import ForwardIndex.Zlib.Stream

/-!
# Deflate libraries

GZIP chunks are made by a deflate library, of which the rest of the program knows the calls that it
makes. Everything that compresses takes the library as a parameter; `builtin` is the one that the
program comes with.
-/
set_option autoImplicit false
namespace ForwardIndex

/-- A deflate library as far as it is called: what it has against a level, what it has against a
reset, and what it puts into the room for a stream that is to be finished at once, with what it says
unless the stream has come to its end. It may behave differently from call to call. -/
structure Deflater where
  start : Int → Option Text
  reset : Nat → Option Text
  finish : Nat → Int → Bytes → Nat → Bytes × Option Text

namespace Deflater

/-- The most bytes that a stream takes, as the library tells it. -/
def bound (n : Nat) : Nat := n + n >>> 12 + n >>> 14 + n >>> 25 + 13

/-- The library that the program comes with. Level 0 stores. -/
def builtin : Deflater where
  start level := if -1 ≤ level ∧ level ≤ 9 then none else some "stream error"
  reset _ := none
  finish _ level input _ := (Zlib.compress (level == 0) input, none)

end Deflater
end ForwardIndex
