import ForwardIndex.ChunkWriter
import ForwardIndex.Column.Basic

/-!
# Writers of fixed-width values

Values of one width are put into the chunk buffer one after the other; a full buffer is flushed.
From version 3 on a chunk holds a power of two of values.
-/
set_option autoImplicit false
namespace ForwardIndex

structure FixedWriter where
  core : ChunkWriter := {}

namespace FixedWriter

/-- Beyond this number of documents there is no next power of two. -/
def maxRoundable : Int32 := 1073741824

/-- The parameters of a file of values of a width. -/
def parameters (compression : Compression) (totalDocs docsPerChunk entrySize version : Int32) :
    Parameters :=
  let docs := Layout.roundedDocs version docsPerChunk
  { compression, totalDocs, docsPerChunk := docs, entrySize, version, fixedWidth := true,
    chunkSize := Layout.fixedChunkSize entrySize docs }

/-- Opens a path for values of a width. -/
def openAt (w : FixedWriter) (path : Text) (compression : Compression)
    (totalDocs docsPerChunk entrySize version : Int32) (s : Session)
    (z : Deflater := .builtin) : Outcome × FixedWriter × Session :=
  if maxRoundable < docsPerChunk ∧ 3 ≤ version then
    (.error (.docsPerChunkNotRoundable docsPerChunk), w, s)
  else
    let (outcome, core, s) :=
      w.core.openBuiltin path (parameters compression totalDocs docsPerChunk entrySize version) s z
    (outcome, ⟨core⟩, s)

/-- Puts the next value. -/
def put (w : FixedWriter) (v : FixedValue) (s : Session) : Outcome × FixedWriter × Session :=
  if !w.core.isOpen then (.error (.putNotOpen true), w, s)
  else if w.core.header.entrySize.toInt ≠ v.width then
    (.error (.widthMismatch v.width w.core.header.entrySize), w, s)
  else
    match w.core.onBuffer (·.append (Bytes.ofText v.bytes)) with
    | (false, core) => (.error .chunkFull, ⟨core⟩, s)
    | (true, core) =>
      if core.buffer.isFull then
        let (outcome, core, s) := core.flush s
        (outcome, ⟨core⟩, s)
      else (.ok (), ⟨core⟩, s)

/-- Puts values up to the first that is refused. -/
def putAll (w : FixedWriter) (values : List FixedValue) (s : Session) :
    Outcome × FixedWriter × Session :=
  match values with
  | [] => (.ok (), w, s)
  | v :: rest =>
    match w.put v s with
    | (.ok (), w, s) => putAll w rest s
    | (.error e, w, s) => (.error e, w, s)

def close (w : FixedWriter) (s : Session) : Outcome × FixedWriter × Session :=
  let (outcome, core, s) := w.core.close s
  (outcome, ⟨core⟩, s)

def drop (w : FixedWriter) (s : Session) : Session := w.core.drop s

end FixedWriter
end ForwardIndex
