import ForwardIndex.Text

/-!
# Compressions

How the chunks of a file are compressed is a 32-bit code in its header. Six codes have names; a
compressor may carry any other.
-/
set_option autoImplicit false
namespace ForwardIndex

structure Compression where
  code : Int32
  deriving DecidableEq, Repr

namespace Compression

def passThrough : Compression := ⟨0⟩
def snappy : Compression := ⟨1⟩
def zstandard : Compression := ⟨2⟩
def lz4 : Compression := ⟨3⟩
def lz4LengthPrefixed : Compression := ⟨4⟩
def gzip : Compression := ⟨5⟩

/-- The compressions with a name. -/
def named : List (Compression × Text) :=
  [(passThrough, "PASS_THROUGH"), (snappy, "SNAPPY"), (zstandard, "ZSTANDARD"), (lz4, "LZ4"),
    (lz4LengthPrefixed, "LZ4_LENGTH_PREFIXED"), (gzip, "GZIP")]

def name (c : Compression) : Text :=
  match named.find? (·.1 == c) with
  | some (_, n) => n
  | none => "UNKNOWN"

/-- The compression of a name in letters of either case. -/
def ofName? (t : Text) : Option Compression :=
  (named.find? (·.2 == t.uppercase)).map (·.1)

/-- The compression of a code that has a name. -/
def ofCode? (code : Int32) : Option Compression :=
  (named.find? (·.1.code == code)).map (·.1)

end Compression
end ForwardIndex
