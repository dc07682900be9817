import ForwardIndex.Proofs.Representation
import Mathlib.Order.Bounds.Basic

/-!
# The largest number of documents

A chunk gets as many documents as are asked for and as the target size has room for, and one where
there is room for none. The target and the number asked for may be zero, negative or as large as
their words allow: the number that comes out is the largest that will do. The words on the way lose
nothing. A writer of fixed-width values then rounds the number up to the power of two that is less
than twice as large.
-/
set_option autoImplicit false
namespace ForwardIndex.Layout

/-! ## Numbers without a width -/

/-- Numbers of documents that will do: no more than are asked for, their entries within the target
size, or a single document. -/
def candidates (target wanted entry : Int) : Set Int :=
  {n | n = 1 ∨ 1 ≤ n ∧ n ≤ wanted ∧ n * entry ≤ target}

/-- A number of documents that will do, where one more will not. -/
structure IsLargest (target wanted entry n : Int) : Prop where
  pos : 1 ≤ n
  le : n ≤ max 1 wanted
  fits : n = 1 ∨ n * entry ≤ target
  next : wanted < n + 1 ∨ target < (n + 1) * entry

theorem IsLargest.isGreatest {target wanted entry n : Int} (some : 1 ≤ entry)
    (h : IsLargest target wanted entry n) : IsGreatest (candidates target wanted entry) n := by
  constructor
  · obtain one | within := h.fits
    · exact .inl one
    · obtain one | more : n = 1 ∨ 1 < n := by
        have := h.pos
        omega
      · exact .inl one
      · have := h.le
        exact .inr ⟨h.pos, by omega, within⟩
  · intro m candidate
    have pos := h.pos
    obtain rfl | ⟨-, few, within⟩ := candidate
    · exact pos
    · by_contra more
      -- One more than `n` is asked for and has room, because `m` is and has.
      have above : (n + 1) * entry ≤ m * entry := Int.mul_le_mul_of_nonneg_right (by omega) (by omega)
      have := h.next
      omega

/-- The quotient, brought between one and the number asked for, is the largest that will do. -/
theorem isLargest_clamp (target wanted : Int) {entry : Int} (some : 1 ≤ entry) :
    IsLargest target wanted entry (max 1 (min wanted (target.tdiv entry))) := by
  have above := Int.lt_tdiv_add_one_mul_self target (show 0 < entry by omega)
  have below (room : 1 ≤ target.tdiv entry) : target.tdiv entry * entry ≤ target := by
    have positive : 0 ≤ target := by
      by_contra negative
      have flipped := Int.tdiv_nonneg (a := -target) (b := entry) (by omega) (by omega)
      rw [Int.neg_tdiv] at flipped
      omega
    rw [Int.tdiv_eq_ediv_of_nonneg positive]
    exact Int.ediv_mul_le target (by omega)
  generalize target.tdiv entry = room at above below
  have grown {m n : Int} (le : m ≤ n) : m * entry ≤ n * entry :=
    Int.mul_le_mul_of_nonneg_right le (by omega)
  refine ⟨by omega, by omega, ?_, ?_⟩
  · obtain one | several : max 1 (min wanted room) = 1 ∨ 1 < max 1 (min wanted room) := by omega
    · exact .inl one
    · exact .inr (Int.le_trans (grown (show _ ≤ room by omega)) (below (by omega)))
  · obtain few | fills : wanted < max 1 (min wanted room) + 1 ∨ room ≤ max 1 (min wanted room) := by
      omega
    · exact .inl few
    · exact .inr (Int.lt_of_lt_of_le above (grown (by omega)))

/-! ## Words -/

theorem toInt_docsWithin (wanted : Int32) (room : Int) :
    (docsWithin wanted room).toInt = max 1 (min wanted.toInt room) := by
  have most := wanted.toInt_lt
  exact Int32.toInt_ofInt_of_le (by omega) (by omega)

theorem toInt_max (a b : Int64) : (max a b).toInt = max a.toInt b.toInt := by
  show (if a ≤ b then b else a).toInt = _
  simp only [apply_ite Int64.toInt, Int64.le_iff_toInt_le]
  exact (max_def _ _).symm

theorem toInt_min (a b : Int64) : (min a b).toInt = min a.toInt b.toInt := by
  show (if a ≤ b then a else b).toInt = _
  simp only [apply_ite Int64.toInt, Int64.le_iff_toInt_le]
  exact (min_def _ _).symm

/-- The words of 64 bits that a number of documents is computed with hold what they stand for, and
the one of 32 bits that it becomes holds as much. -/
structure NothingLost (target : Int64) (wanted : Int32) (divisor : Int64) (n : Int32) : Prop where
  divisor_ne_zero : divisor ≠ 0
  quotient : (target / divisor).toInt = target.toInt.tdiv divisor.toInt
  narrowed : n.toInt64 = max 1 (min wanted.toInt64 (target / divisor))

/-- The number for entries of a size is the largest that will do, and so the greatest candidate. The
word that the target is divided by holds the size. -/
theorem docsWithin_isLargest (target : Int64) (wanted : Int32) {divisor : Int64} {entry : Int}
    (word : divisor.toInt = entry) (some : 1 ≤ entry) :
    let n := docsWithin wanted (target.toInt.tdiv entry)
    IsLargest target.toInt wanted.toInt entry n.toInt ∧
      IsGreatest (candidates target.toInt wanted.toInt entry) n.toInt ∧
      NothingLost target wanted divisor n := by
  subst word
  have other {m : Int64} (low : m.toInt < 1) : divisor ≠ m := by
    rintro rfl
    omega
  have quotient := Int64.toInt_div_of_ne_right target divisor (other (by decide))
  have largest := isLargest_clamp target.toInt wanted.toInt some
  rw [← toInt_docsWithin] at largest
  refine ⟨largest, largest.isGreatest some, other (by decide), quotient, ?_⟩
  rw [← Int64.toInt_inj, Int32.toInt_toInt64, toInt_docsWithin, toInt_max, toInt_min, quotient,
    Int32.toInt_toInt64]
  rfl

theorem toInt_longest_add_slotWidth (longest : Int32) :
    (longest.toInt64 + 4).toInt = longest.toInt + slotWidth := by
  have least := longest.le_toInt
  have most := longest.toInt_lt
  rw [Int64.toInt_add, Int32.toInt_toInt64]
  exact Int.bmod_eq_of_le (by simp; omega) (by simp; omega)

/-! ## Rounding -/

/-- Of two powers of two from a number to less than twice the number neither is the larger. -/
theorem exponent_le {n : Int} {j k : Nat} (least : n ≤ 2 ^ j) (most : 2 ^ k < 2 * n) : k ≤ j := by
  by_contra more
  have double : 2 ^ (j + 1) ≤ 2 ^ k := Nat.pow_le_pow_right (n := 2) (by omega) (by omega)
  have double : (2 : Int) ^ (j + 1) ≤ 2 ^ k := by exact_mod_cast double
  rw [Int.pow_succ] at double
  omega

/-- The rounded number is the power of two that is not below the number but below its double. -/
theorem eq_roundedDocs_iff {version n p : Int32} (later : 3 ≤ version) (pos : 1 ≤ n.toInt)
    (most : n.toInt ≤ 2 ^ 30) :
    p = roundedDocs version n ↔
      (∃ k : Nat, p.toInt = 2 ^ k) ∧ n.toInt ≤ p.toInt ∧ p.toInt < 2 * n.toInt := by
  have some : ¬ n ≤ 0 := by
    rw [Int32.le_iff_toInt_le]
    exact Int.not_le.2 pos
  obtain ⟨k, power, least, below⟩ := nextPowerOfTwo_spec pos most
  rw [roundedDocs, if_neg (not_or.2 ⟨Int32.not_lt.2 later, some⟩)]
  constructor
  · rintro rfl
    rw [power]
    exact ⟨⟨k, rfl⟩, least, below⟩
  · rintro ⟨⟨j, other⟩, least', below'⟩
    rw [other] at least' below'
    rw [← Int32.toInt_inj, other, power,
      Nat.le_antisymm (exponent_le least below') (exponent_le least' below)]

end Layout

theorem FixedWriter.openAt_docsPerChunk {w w' : FixedWriter} {path : Text}
    {compression : Compression} {totalDocs docsPerChunk entrySize version : Int32} {s s' : Session}
    {z : Deflater}
    (opened : w.openAt path compression totalDocs docsPerChunk entrySize version s z =
      (.ok (), w', s')) :
    w'.core.header.docsPerChunk = Layout.roundedDocs version docsPerChunk :=
  ChunkWriter.openBuiltin_docsPerChunk (openAt_core opened)

namespace Layout

/-- Whatever the target size and the number asked for, a chunk of entries of a size, with a slot for
each where they vary, gets the largest number of documents that will do. Nothing is divided by zero,
and no word loses anything. From version 3 on a writer of fixed-width values uses the one power of
two that is not below the number but below its double. -/
theorem docsPerChunk_isLargest (target : Int64) (wanted : Int32) :
    (∀ entrySize : Int32, 1 ≤ entrySize.toInt →
      let n := fixedDocsPerChunk entrySize target wanted
      IsLargest target.toInt wanted.toInt entrySize.toInt n.toInt ∧
      IsGreatest (candidates target.toInt wanted.toInt entrySize.toInt) n.toInt ∧
      NothingLost target wanted entrySize.toInt64 n) ∧
    (∀ longest : Int32, 0 ≤ longest.toInt →
      let n := variableDocsPerChunk longest target wanted
      IsLargest target.toInt wanted.toInt (longest.toInt + 4) n.toInt ∧
      IsGreatest (candidates target.toInt wanted.toInt (longest.toInt + 4)) n.toInt ∧
      (longest.toInt64 + 4).toInt = longest.toInt + 4 ∧
      NothingLost target wanted (longest.toInt64 + 4) n) ∧
    (∀ version n p : Int32, 3 ≤ version → 1 ≤ n.toInt → n.toInt ≤ 2 ^ 30 →
      (p = roundedDocs version n ↔
        (∃ k : Nat, p.toInt = 2 ^ k) ∧ n.toInt ≤ p.toInt ∧ p.toInt < 2 * n.toInt)) ∧
    ∀ (w w' : FixedWriter) (path : Text) (compression : Compression)
      (totalDocs n entrySize version : Int32) (s s' : Session) (z : Deflater),
      w.openAt path compression totalDocs n entrySize version s z = (.ok (), w', s') →
      w'.core.header.docsPerChunk = roundedDocs version n := by
  refine ⟨fun entrySize some => ?_, fun longest some => ?_,
    fun version n p => eq_roundedDocs_iff,
    fun w w' path compression totalDocs n entrySize version s s' z =>
      FixedWriter.openAt_docsPerChunk⟩
  · have positive : 0 < entrySize := Int32.lt_iff_toInt_lt.2 some
    rw [fixedDocsPerChunk, if_pos positive]
    exact docsWithin_isLargest target wanted (Int32.toInt_toInt64 entrySize) some
  · have word := toInt_longest_add_slotWidth longest
    obtain ⟨largest, greatest, lossless⟩ :=
      docsWithin_isLargest target wanted word (by unfold slotWidth; omega)
    exact ⟨largest, greatest, word, lossless⟩

/-- Three numbers of four bytes have room in thirteen bytes, and four go into a chunk of version 3.
The largest entry has no room under the least target, but a chunk to itself. -/
theorem docsPerChunk_isLargest_thirteen :
    (fixedDocsPerChunk 4 13 1000 = 3 ∧ IsGreatest (candidates 13 1000 4) 3) ∧
    (variableDocsPerChunk 2147483647 (-9223372036854775808) 0 = 1 ∧
      IsLargest (-9223372036854775808) 0 2147483651 1) ∧
    roundedDocs 3 3 = 4 ∧
    let r := FixedWriter.openAt {} [102] .passThrough 4 3 4 3 {} .builtin
    r.1 = .ok () ∧ r.2.1.core.header.docsPerChunk = 4 := by
  obtain ⟨fixed, -, rounded, used⟩ := docsPerChunk_isLargest 13 1000
  obtain ⟨-, varying, -⟩ := docsPerChunk_isLargest (-9223372036854775808) 0
  have four : roundedDocs 3 3 = 4 :=
    ((rounded 3 3 4 (by decide) (by decide) (by decide)).2 ⟨⟨2, rfl⟩, by decide, by decide⟩).symm
  have opened : (FixedWriter.openAt {} [102] .passThrough 4 3 4 3 {} .builtin).1 = .ok () := by
    decide +kernel
  refine ⟨⟨by decide, (fixed 4 (by decide)).2.1⟩, ⟨by decide, (varying 2147483647 (by decide)).1⟩,
    four, opened, ?_⟩
  exact (used {} _ [102] .passThrough 4 3 4 3 {} _ .builtin (Prod.ext opened rfl)).trans four

end Layout
end ForwardIndex
