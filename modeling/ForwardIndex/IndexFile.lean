import ForwardIndex.Bytes
import ForwardIndex.Gzip
import ForwardIndex.Layout

/-!
# Reading index files

An index file read back: the fields of its header, the offsets of its chunks, and from these the
chunks and the values in document order. GZIP chunks are read with a function that inflates their
streams. Reading answers `none` for a file that is too short or
contradicts itself.
-/
set_option autoImplicit false
namespace ForwardIndex

structure IndexFile where
  version : Int32
  chunkCount : Int32
  docsPerChunk : Int32
  entrySize : Int32
  totalDocs : Int32
  compression : Int32
  tableStart : Int32
  offsets : List Nat
  content : Bytes

namespace IndexFile

/-- The 32-bit number at a position. -/
def int32At (b : Bytes) (position : Nat) : Int32 :=
  Int32.ofNat (Bytes.bigEndian (b.slice position (position + 4)).toText)

/-- The numbers of a width that stand side by side from a position on. -/
def numbersAt (b : Bytes) (width position : Nat) : Nat → List Nat
  | 0 => []
  | count + 1 =>
    Bytes.bigEndian (b.slice position (position + width)).toText ::
      numbersAt b width (position + width) count

/-- The size of the header that the fields tell of. -/
def headerSize (version chunkCount : Int32) : Nat :=
  Layout.fieldsSize + chunkCount.toNatClampNeg * Layout.offsetWidth version

def parse (b : Bytes) : Option IndexFile :=
  if b.size < Layout.fieldsSize then none
  else
    let version := int32At b 0
    let chunkCount := int32At b 4
    let tableStart := int32At b 24
    if b.size < headerSize version chunkCount then none
    else some
      { version
        chunkCount
        docsPerChunk := int32At b 8
        entrySize := int32At b 12
        totalDocs := int32At b 16
        compression := int32At b 20
        tableStart
        offsets := numbersAt b (Layout.offsetWidth version) tableStart.toNatClampNeg
          chunkCount.toNatClampNeg
        content := b }

/-- Where every chunk starts and ends: at the next one's start, the last at the end of the file. -/
def spans (finish : Nat) : List Nat → List (Nat × Nat)
  | [] => []
  | [start] => [(start, finish)]
  | start :: next :: rest => (start, next) :: spans finish (next :: rest)

/-- The stored chunks, in order. -/
def storedChunks (f : IndexFile) : List Bytes :=
  (spans f.content.size f.offsets).map fun (start, stop) => f.content.slice start stop

/-- The raw form of a stored chunk. -/
def rawChunk? (inflate : Bytes → Option Bytes) (f : IndexFile) (stored : Bytes) : Option Bytes :=
  if f.compression = Compression.passThrough.code then some stored
  else if f.compression = Compression.gzip.code then Gzip.decode? inflate stored
  else none

/-- The raw chunks, in order. -/
def rawChunks? (inflate : Bytes → Option Bytes) (f : IndexFile) : Option (List Bytes) :=
  f.storedChunks.mapM (f.rawChunk? inflate)

/-- A text cut into pieces of a width; `none` if the last piece is short or the width is zero. -/
def cut? (width : Nat) (t : Text) : Option (List Text) :=
  if width = 0 then (if t = [] then some [] else none)
  else if t.length % width = 0 then
    some ((List.range (t.length / width)).map fun i => (t.drop (i * width)).take width)
  else none

/-- The entries of a file of fixed-width values, in document order. -/
def fixedEntries? (inflate : Bytes → Option Bytes) (f : IndexFile) : Option (List Text) := do
  let chunks ← f.rawChunks? inflate
  let pieces ← chunks.mapM fun c => cut? f.entrySize.toNatClampNeg c.toText
  let entries := pieces.flatten
  if (entries.length : Int) = f.totalDocs.toInt then return entries else none

/-- The values in a chunk of so many documents. -/
def chunkValues? (docs : Nat) (chunk : Bytes) : Option (List Text) :=
  if chunk.size < docs * Layout.slotWidth then none
  else
    (spans chunk.size (numbersAt chunk Layout.slotWidth 0 docs)).mapM fun (start, stop) =>
      if start ≤ stop ∧ stop ≤ chunk.size then some (chunk.slice start stop).toText else none

/-- The values of a file of variable-width values, in document order. -/
def variableValues? (inflate : Bytes → Option Bytes) (f : IndexFile) : Option (List Text) := do
  let chunks ← f.rawChunks? inflate
  let values ← chunks.zipIdx.mapM fun (chunk, i) =>
    let left := f.totalDocs.toInt - i * f.docsPerChunk.toInt
    chunkValues? (min f.docsPerChunk.toInt left).toNat chunk
  return values.flatten

end IndexFile
end ForwardIndex
