import ForwardIndex.Deflater
import ForwardIndex.Proofs.Zlib.Stream

/-!
# What is relied on in a deflate library

Little is: a stream ends within the library's own bound when it is given as much room, and a
function is at hand that inflates it again. What is proved about GZIP chunks rests on these two
promises and not on a library; the one that the program comes with keeps both.
-/
set_option autoImplicit false
namespace ForwardIndex.Deflater

/-- What the library promises: a reset succeeds, and in room for the bound a stream comes to its end
within the bound. -/
structure Documented (z : Deflater) : Prop where
  reset (call : Nat) : z.reset call = none
  ends (call : Nat) (level : Int) (input : Bytes) (room : Nat) : bound input.size ≤ room →
    (z.finish call level input room).2 = none
  size_le (call : Nat) (level : Int) (input : Bytes) (room : Nat) : bound input.size ≤ room →
    (z.finish call level input room).1.size ≤ bound input.size

/-- A function gives the bytes back that a stream was made of. -/
def UndoneBy (z : Deflater) (inflate : Bytes → Option Bytes) : Prop :=
  ∀ call level input room, bound input.size ≤ room →
    inflate (z.finish call level input room).1 = some input

theorem bound_mono {m n : Nat} (h : m ≤ n) : bound m ≤ bound n := by
  unfold bound
  omega

theorem builtin_documented : builtin.Documented where
  reset _ := rfl
  ends _ _ _ _ _ := rfl
  size_le call level input room _ := by
    have blocks := Zlib.size_deflate (level == 0) input
    simp only [builtin, Zlib.size_compress]
    unfold Zlib.maxStored at blocks
    unfold bound
    omega

theorem builtin_undoneBy : builtin.UndoneBy Zlib.decompress :=
  fun _ level input _ _ => Zlib.decompress_compress (level == 0) input

end ForwardIndex.Deflater
