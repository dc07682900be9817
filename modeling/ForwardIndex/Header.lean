import ForwardIndex.Bytes
import ForwardIndex.Layout

/-!
# File headers

A file starts with seven big-endian 32-bit fields — version, number of chunks, documents per chunk,
entry size, number of documents, compression type, start of the offset table — and the table of the
chunks' offsets, 32 bits wide in version 2 and 64 bits after. Offsets are collected as chunks are
written; `toBytes` gives the whole header, zeros for chunks that are not there.
-/
set_option autoImplicit false
namespace ForwardIndex

structure Header where
  version : Int32 := 0
  chunkCount : Int32 := 0
  docsPerChunk : Int32 := 0
  entrySize : Int32 := 0
  totalDocs : Int32 := 0
  compression : Compression := .passThrough
  /-- The offsets of the chunks written so far. -/
  offsets : Array Nat := #[]
  deriving DecidableEq

namespace Header

/-- The header of a file before its first chunk. -/
def new (version totalDocs docsPerChunk entrySize : Int32) (compression : Compression) :
    Header where
  version
  chunkCount := Layout.chunkCount totalDocs docsPerChunk
  docsPerChunk
  entrySize
  totalDocs
  compression

def offsetWidth (h : Header) : Nat := Layout.offsetWidth h.version

/-- How many chunks the header has room for. -/
def capacity (h : Header) : Nat := h.chunkCount.toNatClampNeg

def size (h : Header) : Nat := Layout.fieldsSize + h.capacity * h.offsetWidth

/-- How many chunks are recorded. -/
def recorded (h : Header) : Nat := h.offsets.size

def isFull (h : Header) : Bool := h.capacity ≤ h.recorded

/-- Whether an offset can be stored in the table's width. -/
def checkOffset (h : Header) (offset : Nat) : Outcome :=
  if h.offsetWidth = 4 ∧ Layout.maxInt32 < offset then .error (.offsetTooLarge offset h.version)
  else .ok ()

/-- Records the offset of the next chunk. -/
def record (h : Header) (offset : Nat) : Outcome × Header :=
  if h.isFull then (.error (.offsetTableFull h.chunkCount h.totalDocs), h)
  else
    match h.checkOffset offset with
    | .error e => (.error e, h)
    | .ok () => (.ok (), { h with offsets := h.offsets.push offset })

/-- The fields in the order of the file. -/
def fields (h : Header) : List Int32 :=
  [h.version, h.chunkCount, h.docsPerChunk, h.entrySize, h.totalDocs, h.compression.code,
    Int32.ofNat Layout.fieldsSize]

/-- The bytes of an offset in the table. -/
def offsetBytes (h : Header) (offset : Nat) : List UInt8 :=
  if h.offsetWidth = 4 then Bytes.word32 (UInt32.ofNat offset)
  else Bytes.word64 (UInt64.ofNat offset)

/-- The bytes of the header. -/
def toBytes (h : Header) : Bytes :=
  let written := h.fields.flatMap (fun f => Bytes.word32 f.toUInt32) ++
    h.offsets.toList.flatMap h.offsetBytes
  (Bytes.ofText written).pad (h.size - written.length)

end Header
end ForwardIndex
