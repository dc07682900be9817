import ForwardIndex.Failure

/-!
# Sizes of a forward index

How many chunks a column takes, how wide an offset is, and how many documents go into a chunk. The
numbers are 32- and 64-bit words because the header stores them so: a quotient truncates toward zero
and a result that leaves the width wraps.
-/
set_option autoImplicit false
namespace ForwardIndex.Layout

def minVersion : Int32 := 2

def maxVersion : Int32 := 5

def defaultVersion : Int32 := 2

/-- Seven fields of four bytes each. -/
def fieldsSize : Nat := 28

/-- The largest chunk, and the largest offset of a version 2 table. -/
def maxInt32 : Nat := 0x7FFFFFFF

/-- The width of a row offset in a chunk of variable-width values. -/
def slotWidth : Nat := 4

def defaultTargetChunkSize : Int64 := 1048576

def defaultTargetDocs : Int32 := 1000

/-- The width of an entry of the offset table. -/
def offsetWidth (version : Int32) : Nat := if version = 2 then 4 else 8

/-- How many chunks the documents fill, the last one perhaps in part. -/
def chunkCount (totalDocs docsPerChunk : Int32) : Int32 :=
  Int32.ofInt (Int.tdiv (totalDocs.toInt + docsPerChunk.toInt - 1) docsPerChunk.toInt)

/-- Copies every one bit to the places below it. -/
def smear (x : UInt32) : UInt32 :=
  let x := x ||| (x >>> 1)
  let x := x ||| (x >>> 2)
  let x := x ||| (x >>> 4)
  let x := x ||| (x >>> 8)
  x ||| (x >>> 16)

/-- The least power of two that is not below a positive number. -/
def nextPowerOfTwo (n : Int32) : Int32 := (smear (n.toUInt32 - 1) + 1).toInt32

/-- Chunks of fixed-width values hold a power of two of them from version 3 on, so that a shift
finds a document's chunk. -/
def roundedDocs (version docsPerChunk : Int32) : Int32 :=
  if version < 3 ∨ docsPerChunk ≤ 0 then docsPerChunk else nextPowerOfTwo docsPerChunk

/-- The bytes of a chunk of fixed-width values. -/
def fixedChunkSize (entrySize docsPerChunk : Int32) : Int64 :=
  Int64.ofInt (entrySize.toInt * docsPerChunk.toInt)

/-- The bytes of a chunk of variable-width values of at most the longest length. -/
def variableChunkSize (docsPerChunk longest : Int32) : Int64 :=
  Int64.ofInt (docsPerChunk.toInt * (slotWidth + longest.toInt))

/-- As many documents as were asked for and as the target size has room for, but at least one. -/
def docsWithin (targetDocs : Int32) (room : Int) : Int32 :=
  Int32.ofInt (max 1 (min targetDocs.toInt room))

def fixedDocsPerChunk (entrySize : Int32) (targetSize : Int64) (targetDocs : Int32) : Int32 :=
  docsWithin targetDocs (if 0 < entrySize then Int.tdiv targetSize.toInt entrySize.toInt else 1)

def variableDocsPerChunk (longest : Int32) (targetSize : Int64) (targetDocs : Int32) : Int32 :=
  docsWithin targetDocs (Int.tdiv targetSize.toInt (longest.toInt + slotWidth))

/-- Versions 2 and 3 take every value, 4 and 5 only those of a fixed width. -/
def checkVersion (version : Int32) (fixedWidth : Bool) : Outcome :=
  if version = 2 ∨ version = 3 ∨ (fixedWidth ∧ (version = 4 ∨ version = 5)) then .ok ()
  else .error (.illegalVersion version fixedWidth)

end ForwardIndex.Layout
