import ForwardIndex.ChunkWriter
import ForwardIndex.Column.Basic

/-!
# Writers of variable-width values

A chunk starts with one big-endian 32-bit slot per document, which tells where the document's value
starts in the chunk; the values follow, concatenated. The slots of documents that are not there are
zero.
-/
set_option autoImplicit false
namespace ForwardIndex

structure VariableWriter where
  core : ChunkWriter := {}
  /-- The bytes of the slots of a chunk. -/
  slotsSize : Nat := 0
  /-- Where the next slot is. -/
  slotPosition : Nat := 0
  /-- Where the next value goes. -/
  dataPosition : Nat := 0

namespace VariableWriter

/-- The parameters of a file of values of at most the longest length. -/
def parameters (compression : Compression) (totalDocs docsPerChunk longest version : Int32) :
    Parameters :=
  { compression, totalDocs, docsPerChunk, entrySize := longest, version, fixedWidth := false,
    chunkSize := Layout.variableChunkSize docsPerChunk longest }

/-- Opens a path for values of at most the longest length. -/
def openAt (w : VariableWriter) (path : Text) (compression : Compression)
    (totalDocs docsPerChunk longest version : Int32) (s : Session)
    (z : Deflater := .builtin) : Outcome × VariableWriter × Session :=
  let p := parameters compression totalDocs docsPerChunk longest version
  match w.core.openBuiltin path p s z with
  | (.error e, core, s) => (.error e, { w with core }, s)
  | (.ok (), core, s) =>
    let slotsSize := docsPerChunk.toInt.toNat * Layout.slotWidth
    (.ok (), ⟨core, slotsSize, 0, slotsSize⟩, s)

/-- Stores zeros in so many slots from a position on, or tells the position of one without room. -/
def clearSlots (b : Buffer) (position : Nat) : Nat → Option Nat × Buffer
  | 0 => (none, b)
  | count + 1 =>
    match b.putWord32At position 0 with
    | (false, b) => (some position, b)
    | (true, b) => clearSlots b (position + Layout.slotWidth) count

/-- Clears the slots of absent documents and sets the fill level behind the values. -/
def completeChunk (slotPosition slotsSize dataPosition : Nat) (b : Buffer) :
    Outcome × Buffer :=
  match clearSlots b slotPosition ((slotsSize - slotPosition) / Layout.slotWidth) with
  | (some position, b) => (.error (.slotPastBuffer position), b)
  | (none, b) =>
    match b.seek dataPosition with
    | (false, b) => (.error (.dataPastBuffer dataPosition), b)
    | (true, b) => (.ok (), b)

/-- Flushes the values of a chunk and starts the next. -/
def finishChunk (w : VariableWriter) (s : Session) : Outcome × VariableWriter × Session :=
  match w with
  | ⟨core, slotsSize, slotPosition, dataPosition⟩ =>
    match core.onBuffer (completeChunk slotPosition slotsSize dataPosition) with
    | (.error e, core) => (.error e, ⟨core, slotsSize, slotPosition, dataPosition⟩, s)
    | (.ok (), core) =>
      match core.flush s with
      | (.error e, core, s) => (.error e, ⟨core, slotsSize, slotPosition, dataPosition⟩, s)
      | (.ok (), core, s) => (.ok (), ⟨core, slotsSize, 0, slotsSize⟩, s)

/-- Stores a value and its slot. -/
def storeValue (slotPosition dataPosition : Nat) (value : Bytes) (b : Buffer) :
    Bool × Buffer :=
  match b.putWord32At slotPosition (UInt32.ofNat dataPosition) with
  | (false, b) => (false, b)
  | (true, b) =>
    match b.seek dataPosition with
    | (false, b) => (false, b)
    | (true, b) => b.append value

/-- Puts the next value. -/
def put (w : VariableWriter) (value : Bytes) (s : Session) : Outcome × VariableWriter × Session :=
  match w with
  | ⟨core, slotsSize, slotPosition, dataPosition⟩ =>
    if !core.isOpen then
      (.error (.putNotOpen false), ⟨core, slotsSize, slotPosition, dataPosition⟩, s)
    else if core.header.entrySize.toInt < value.size then
      (.error (.valueTooLong value.size core.header.entrySize),
        ⟨core, slotsSize, slotPosition, dataPosition⟩, s)
    else if slotsSize ≤ slotPosition then
      (.error .chunkFull, ⟨core, slotsSize, slotPosition, dataPosition⟩, s)
    else
      match core.onBuffer (storeValue slotPosition dataPosition value) with
      | (false, core) =>
        (.error (.valueDoesNotFit value.size), ⟨core, slotsSize, slotPosition, dataPosition⟩, s)
      | (true, core) =>
        let w := ⟨core, slotsSize, slotPosition + Layout.slotWidth, dataPosition + value.size⟩
        if slotPosition + Layout.slotWidth = slotsSize then w.finishChunk s else (.ok (), w, s)

/-- Puts values up to the first that is refused. -/
def putAll (w : VariableWriter) (values : List Text) (s : Session) :
    Outcome × VariableWriter × Session :=
  match values with
  | [] => (.ok (), w, s)
  | v :: rest =>
    match w.put (Bytes.ofText v) s with
    | (.ok (), w, s) => putAll w rest s
    | (.error e, w, s) => (.error e, w, s)

/-- Flushes the values of a partial chunk and closes. A failure of the first and one of the second
are reported together. -/
def close (w : VariableWriter) (s : Session) : Outcome × VariableWriter × Session :=
  if w.core.isOpen ∧ 0 < w.slotPosition then
    match w.finishChunk s with
    | (.ok (), w, s) =>
      let (outcome, core, s) := w.core.close s
      (outcome, { w with core }, s)
    | (.error e, w, s) =>
      match w.core.close s with
      | (.ok (), core, s) => (.error e, { w with core }, s)
      | (.error e', core, s) => (.error (.followedBy e e'), { w with core }, s)
  else
    let (outcome, core, s) := w.core.close s
    (outcome, { w with core }, s)

/-- The end of a writer's life: what is in the chunk buffer is flushed as it is. -/
def drop (w : VariableWriter) (s : Session) : Session := w.core.drop s

end VariableWriter
end ForwardIndex
