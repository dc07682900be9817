import ForwardIndex.Gzip

/-!
# Compressors

A compressor has the type that the header records, a bound on the size of its results, and a
function from a chunk to a staging buffer. It may behave differently from call to call: calls are
numbered. The staging buffer keeps its size; what the compressor reports may be anything.
-/
set_option autoImplicit false
namespace ForwardIndex

structure Compressor where
  type : Compression
  bound : Nat → Nat
  /-- Of call number, chunk and staging buffer: the buffer afterwards and the size of the result. -/
  compress : Nat → Bytes → Bytes → Bytes × Except Failure Nat
  size_staging : ∀ call chunk staging, (compress call chunk staging).1.size = staging.size

namespace Compressor

def name (c : Compressor) : Text := c.type.name

/-- Puts a result at the start of a buffer, as far as there is room. -/
def stage (staging out : Bytes) : Bytes := staging.overwrite 0 (out.first staging.size)

theorem size_stage (staging out : Bytes) : (stage staging out).size = staging.size :=
  Bytes.size_overwrite (by rw [Nat.zero_add]; exact Bytes.size_first_le out staging.size)

/-- A compressor given by what it puts at the start of a buffer and what it reports. -/
def ofFunction (type : Compression) (bound : Nat → Nat)
    (f : Nat → Bytes → Nat → Bytes × Except Failure Nat) : Compressor where
  type
  bound
  compress call chunk staging :=
    let result := f call chunk staging.size
    (stage staging result.1, result.2)
  size_staging call chunk staging := size_stage staging (f call chunk staging.size).1

/-- A compressor that reports what it produced, or fails. -/
def ofEncoder (type : Compression) (bound : Nat → Nat)
    (encode : Bytes → Nat → Except Failure Bytes) : Compressor :=
  ofFunction type bound fun _ chunk capacity =>
    match encode chunk capacity with
    | .ok out => (out, .ok out.size)
    | .error e => (ByteArray.empty, .error e)

/-- Stores a chunk as it is. -/
def storeChunk (chunk : Bytes) (capacity : Nat) : Except Failure Bytes :=
  if capacity < chunk.size then .error (.stagingTooSmall chunk.size capacity) else .ok chunk

def passThrough : Compressor := ofEncoder .passThrough id storeChunk

/-- The GZIP compressor in a state, on a deflate library. -/
def gzip (g : Gzip) (z : Deflater := .builtin) : Compressor :=
  ofFunction .gzip Gzip.bound (g.deflate z)

/-- The compressor of a type, initialised. Two types are built in. -/
def ofType (type : Compression) (z : Deflater := .builtin) : Except Failure Compressor :=
  if type = .passThrough then .ok passThrough
  else if type = .gzip then
    match Gzip.init Gzip.defaultLevel z with
    | (.error e, _) => .error e
    | (.ok (), g) => .ok (gzip g z)
  else
    match Compression.ofCode? type.code with
    | some _ => .error (.codecUnavailable type)
    | none => .error (.codecUnknown type)

end Compressor
end ForwardIndex
