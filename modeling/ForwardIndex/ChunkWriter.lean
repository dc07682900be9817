import ForwardIndex.Buffer
import ForwardIndex.FileHandle
import ForwardIndex.Header
import ForwardIndex.Session

/-!
# Chunk writers

A chunk writer puts a forward index file together: the header, then compressed chunks back to back.
While it is writing it owns a compressor, a chunk buffer and a staging buffer; chunks are written
right after the room of the header, and the header itself at the end. A writer is opened once and
closed once, and what it owns is released whatever fails on the way. Memory for its buffers is
always there.
-/
set_option autoImplicit false
namespace ForwardIndex

/-- What a file is opened with. -/
structure Parameters where
  compression : Compression := .passThrough
  totalDocs : Int32 := 0
  docsPerChunk : Int32 := 0
  /-- The capacity of an uncompressed chunk in bytes. -/
  chunkSize : Int64 := 0
  /-- The size of an entry, or of the longest one. -/
  entrySize : Int32 := 0
  version : Int32 := 2
  fixedWidth : Bool := false
  deriving DecidableEq

namespace Parameters

/-- The first rule that the parameters break. -/
def check (p : Parameters) : Outcome :=
  match Layout.checkVersion p.version p.fixedWidth with
  | .error e => .error e
  | .ok () =>
    if (Layout.maxInt32 : Int) < p.chunkSize.toInt then .error (.chunkTooLarge p.chunkSize)
    else if p.chunkSize ≤ 0 then .error (.chunkNotPositive p.chunkSize)
    else if p.docsPerChunk ≤ 0 then .error (.docsPerChunkNotPositive p.docsPerChunk)
    else if p.totalDocs < 0 then .error (.negativeTotalDocs p.totalDocs)
    else if p.entrySize < 0 then .error (.negativeEntrySize p.entrySize)
    else .ok ()

/-- The header of a file with these parameters. -/
def header (p : Parameters) (type : Compression) : Header :=
  .new p.version p.totalDocs p.docsPerChunk p.entrySize type

end Parameters

/-- What a writer owns in the stages of its life. -/
inductive Stage where
  | unopened
  | writing (codec : Codec) (buffer : Buffer) (staging : Bytes)
  | closed

structure ChunkWriter where
  logger : Logger := { level := Logger.warnLevel }
  header : Header := {}
  file : FileHandle := {}
  /-- Where the next chunk goes. -/
  cursor : Nat := 0
  stage : Stage := .unopened

namespace ChunkWriter

def isUnopened (w : ChunkWriter) : Bool := match w.stage with
  | .unopened => true
  | _ => false

def isOpen (w : ChunkWriter) : Bool := match w.stage with
  | .writing .. => true
  | _ => false

def isClosed (w : ChunkWriter) : Bool := match w.stage with
  | .closed => true
  | _ => false

/-- How often the compressor was called. -/
def calls (w : ChunkWriter) : Nat := match w.stage with
  | .writing codec _ _ => codec.calls
  | _ => 0

/-- The chunk buffer; a writer that is not writing has one without room. -/
def buffer (w : ChunkWriter) : Buffer := match w.stage with
  | .writing _ buffer _ => buffer
  | _ => .new 0

/-- Does something with the chunk buffer. -/
def onBuffer {α : Type} (w : ChunkWriter) (f : Buffer → α × Buffer) : α × ChunkWriter :=
  match w with
  | ⟨logger, header, file, cursor, .writing codec buffer staging⟩ =>
    let (result, buffer) := f buffer
    (result, ⟨logger, header, file, cursor, .writing codec buffer staging⟩)
  | w => ((f (.new 0)).1, w)

/-! ## Opening -/

def openedLine (path : Text) (h : Header) (chunkSize : Nat) : Text :=
  "opened '" ++ path.untilNul ++ "': version=" ++ Text.ofInt h.version.toInt ++
    ", docs=" ++ Text.ofInt h.totalDocs.toInt ++
    ", docs_per_chunk=" ++ Text.ofInt h.docsPerChunk.toInt ++
    ", chunks=" ++ Text.ofInt h.chunkCount.toInt ++
    ", chunk_size=" ++ Text.ofNat chunkSize ++
    ", compression=" ++ h.compression.name ++ ", header=" ++ Text.ofNat h.size ++ " bytes"

/-- Opens a path with parameters and a compressor of the caller's, which is taken over: if it is not
put to work it is closed at once. -/
def openWith (w : ChunkWriter) (path : Text) (p : Parameters) (compressor : Option Compressor)
    (s : Session) : Outcome × ChunkWriter × Session :=
  match compressor with
  | none => (.error (.noCompressor path), w, s)
  | some c =>
    let (codec, s) := s.handOver c
    if !w.isUnopened then (.error (.reopened w.file.path), w, s.closeCodec codec)
    else
      match p.check with
      | .error e => (.error e, w, s.closeCodec codec)
      | .ok () =>
        let header := p.header c.type
        let chunkSize := p.chunkSize.toInt.toNat
        match w.file.openAt path s.volume with
        | (.error e, file, volume) =>
          (.error e, { w with header, file }, { s with volume }.closeCodec codec)
        | (.ok (), file, volume) =>
          let stage := .writing codec (.new chunkSize) (Bytes.zeros (c.bound chunkSize))
          (.ok (), { w with header, file, cursor := header.size, stage },
            { s with volume }.report (w.logger.debug (openedLine path header chunkSize)))

/-- Opens a path with parameters and the built-in compressor of their type. -/
def openBuiltin (w : ChunkWriter) (path : Text) (p : Parameters) (s : Session)
    (z : Deflater := .builtin) : Outcome × ChunkWriter × Session :=
  if !w.isUnopened then (.error (.reopened w.file.path), w, s)
  else
    match p.check with
    | .error e => (.error e, w, s)
    | .ok () =>
      match Compressor.ofType p.compression z with
      | .error e => (.error e, w, s)
      | .ok c => w.openWith path p (some c) s

/-! ## Flushing -/

def chunkLine (what : Text) (h : Header) (path : Text) (e : Failure) : Text :=
  what ++ " chunk " ++ Text.ofNat h.recorded ++ " of '" ++ path.untilNul ++ "': " ++
    e.message.untilNul

def writingLine (h : Header) (e : Failure) : Text :=
  "writing chunk " ++ Text.ofNat h.recorded ++ ": " ++ e.message.untilNul

/-- Compresses the chunk in the buffer into the staging buffer. The result is the size to write,
which lies inside the staging buffer. -/
def compressChunk (codec : Codec) (buffer : Buffer) (staging : Bytes) :
    Except Failure Nat × Codec × Bytes :=
  let (staging, result) := codec.compressor.compress codec.calls buffer.filled staging
  let result := match result with
    | .error e => .error e
    | .ok size =>
      if staging.size < size then .error (.overReported codec.compressor.name size staging.size)
      else .ok size
  (result, { codec with calls := codec.calls + 1 }, staging)

/-- Compresses and writes the chunk in the buffer and records its offset. On failure the header, the
cursor and the buffer stay as they are. -/
def flush (w : ChunkWriter) (s : Session) : Outcome × ChunkWriter × Session :=
  match w with
  | ⟨logger, header, file, cursor, .writing codec buffer staging⟩ =>
    if buffer.isEmpty then
      (.error .flushEmpty, ⟨logger, header, file, cursor, .writing codec buffer staging⟩, s)
    else if header.isFull then
      (.error (.allChunksWritten file.path header.chunkCount),
        ⟨logger, header, file, cursor, .writing codec buffer staging⟩, s)
    else
      match header.checkOffset cursor with
      | .error e =>
        (.error e, ⟨logger, header, file, cursor, .writing codec buffer staging⟩,
          s.report (logger.error ("'" ++ file.path.untilNul ++ "': " ++ e.message.untilNul)))
      | .ok () =>
        let (result, codec, staging) := compressChunk codec buffer staging
        let s := { s with events := s.events.push (.compressed codec.id) }
        match result with
        | .error e =>
          (.error e, ⟨logger, header, file, cursor, .writing codec buffer staging⟩,
            s.report (logger.error (chunkLine "compressing" header file.path e)))
        | .ok size =>
          match file.writeAll (staging.first size) cursor s.volume with
          | (.error e, volume) =>
            (.error e, ⟨logger, header, file, cursor, .writing codec buffer staging⟩,
              { s with volume }.report (logger.error (writingLine header e)))
          | (.ok (), volume) =>
            match header.record cursor with
            | (.error e, header) =>
              (.error e, ⟨logger, header, file, cursor, .writing codec buffer staging⟩,
                { s with volume })
            | (.ok (), header) =>
              (.ok (), ⟨logger, header, file, cursor + size, .writing codec buffer.clear staging⟩,
                { s with volume })
  | w => (.error .flushNotOpen, w, s)

/-! ## Closing -/

/-- Flushes what is in the buffer, if anything is. -/
def flushPending (w : ChunkWriter) (s : Session) : Outcome × ChunkWriter × Session :=
  if w.buffer.isEmpty then (.ok (), w, s) else w.flush s

/-- Writes the header to the start of the file. -/
def writeHeader (w : ChunkWriter) (s : Session) : Outcome × Session :=
  let (outcome, volume) := w.file.writeAll w.header.toBytes 0 s.volume
  (outcome, { s with volume })

/-- Closes the file and the compressor and drops the buffers, after an outcome so far. The first
failure is reported. -/
def release (w : ChunkWriter) (soFar : Outcome) (s : Session) : Outcome × ChunkWriter × Session :=
  let (closing, file, volume) := w.file.close s.volume
  let s := { s with volume }
  let s := match w.stage with
    | .writing codec _ _ => s.closeCodec codec
    | _ => s
  (match soFar with
    | .ok () => closing
    | .error e => .error e, { w with file, stage := .closed }, s)

/-- The last word on a writer released without failure: all declared chunks must be there. -/
def conclude (w : ChunkWriter) (s : Session) : Outcome × ChunkWriter × Session :=
  let path := w.file.path.untilNul
  if w.header.recorded < w.header.capacity then
    (.error (.closedShort w.header.recorded w.header.chunkCount), w,
      s.report (w.logger.warn ("'" ++ path ++ "' closed after " ++ Text.ofNat w.header.recorded ++
        " of " ++ Text.ofInt w.header.chunkCount.toInt ++ " declared chunks")))
  else
    (.ok (), w, s.report (w.logger.debug ("closed '" ++ path ++ "': " ++
      Text.ofNat w.header.recorded ++ " chunk(s), " ++ Text.ofNat w.cursor ++ " bytes")))

/-- Flushes a partial chunk, writes the header and releases everything. -/
def close (w : ChunkWriter) (s : Session) : Outcome × ChunkWriter × Session :=
  match w.stage with
  | .unopened => (.error .closeUnopened, w, s)
  | .closed => (.error (.closeAgain w.file.path), w, s)
  | .writing .. =>
    let (outcome, w, s) := w.flushPending s
    let (outcome, s) := match outcome with
      | .error e => (.error e, s)
      | .ok () => w.writeHeader s
    match w.release outcome s with
    | (.error e, w, s) => (.error e, w, s)
    | (.ok (), w, s) => w.conclude s

/-- The end of a writer's life: one that is still writing is closed. -/
def drop (w : ChunkWriter) (s : Session) : Session :=
  if !w.isOpen then s
  else
    match w.close s with
    | (.ok (), _, s) => s
    | (.error e, _, s) =>
      s.report (w.logger.error ("closing forward index on destruction: " ++ e.render.untilNul))

end ChunkWriter
end ForwardIndex
