import ForwardIndex.ChunkWriter
import Mathlib.Algebra.Group.Int.Defs
import Mathlib.Algebra.Group.Nat.Defs

/-!
# Sizes that are admitted

What parameters promise once they are checked, the number of chunks for a number of documents, and
the least power of two that is not below a number.
-/
set_option autoImplicit false
namespace ForwardIndex

/-- What checked parameters promise. -/
structure Parameters.Admitted (p : Parameters) : Prop where
  version : Layout.checkVersion p.version p.fixedWidth = .ok ()
  chunkSize_pos : 0 < p.chunkSize.toInt
  chunkSize_le : p.chunkSize.toInt ≤ Layout.maxInt32
  docs_pos : 0 < p.docsPerChunk.toInt
  totalDocs : 0 ≤ p.totalDocs.toInt
  entrySize : 0 ≤ p.entrySize.toInt

theorem Parameters.check_ok {p : Parameters} (h : p.check = .ok ()) : p.Admitted := by
  unfold check at h
  split at h
  · cases h
  next u version =>
    split at h
    · cases h
    next small =>
      split at h
      · cases h
      next positive =>
        split at h
        · cases h
        next docs =>
          split at h
          · cases h
          next total =>
            split at h
            · cases h
            next entry =>
              rw [Int64.le_iff_toInt_le] at positive
              rw [Int32.le_iff_toInt_le] at docs
              rw [Int32.lt_iff_toInt_lt] at total entry
              exact ⟨version, by simpa using positive, by omega, by simpa using docs,
                by simpa using total, by simpa using entry⟩

namespace Layout

/-! ## Chunks -/

/-- The number of chunks is the number of documents over that of a chunk, rounded up. It fits. -/
theorem toInt_chunkCount {totalDocs docsPerChunk : Int32} (total : 0 ≤ totalDocs.toInt)
    (docs : 0 < docsPerChunk.toInt) :
    (chunkCount totalDocs docsPerChunk).toInt =
      ((totalDocs.toNatClampNeg + docsPerChunk.toNatClampNeg - 1) / docsPerChunk.toNatClampNeg :
        Nat) := by
  have small := totalDocs.toNatClampNeg_lt
  obtain ⟨t, ht⟩ := Int.eq_ofNat_of_zero_le total
  obtain ⟨d, hd⟩ := Int.eq_ofNat_of_zero_le (Int.le_of_lt docs)
  have positive : 0 < d := by omega
  rw [← Int32.toNat_toInt, ht] at small
  rw [← Int32.toNat_toInt totalDocs, ← Int32.toNat_toInt docsPerChunk, chunkCount, ht, hd,
    Int.toNat_natCast, Int.toNat_natCast]
  have quotient : Int.tdiv ((t : Int) + d - 1) d = ((t + d - 1) / d : Nat) := by
    rw [show (t : Int) + d - 1 = ((t + d - 1 : Nat) : Int) by omega]
    exact (Int.ofNat_tdiv _ _).symm
  have most : (t + d - 1) / d ≤ t := by
    rw [Nat.div_le_iff_le_mul_add_pred positive]
    have := Nat.le_mul_of_pos_left t positive
    omega
  rw [quotient]
  exact Int32.toInt_ofNat_of_lt (Nat.lt_of_le_of_lt most small)

theorem chunkCount_eq {totalDocs docsPerChunk : Int32} (total : 0 ≤ totalDocs.toInt)
    (docs : 0 < docsPerChunk.toInt) :
    (chunkCount totalDocs docsPerChunk).toNatClampNeg =
      (totalDocs.toNatClampNeg + docsPerChunk.toNatClampNeg - 1) / docsPerChunk.toNatClampNeg := by
  rw [← Int32.toNat_toInt, toInt_chunkCount total docs, Int.toNat_natCast]

theorem toInt_ofInt_mul {a b : Int} (ha : a.natAbs ≤ 2 ^ 31) (hb : b.natAbs ≤ 2 ^ 31 + 4) :
    (Int64.ofInt (a * b)).toInt = a * b := by
  have product : (a * b).natAbs ≤ 2 ^ 31 * (2 ^ 31 + 4) := by
    rw [Int.natAbs_mul]
    exact Nat.mul_le_mul ha hb
  exact Int64.toInt_ofInt_of_le (by omega) (by omega)

theorem toInt_eq_natCast {x : Int32} (positive : 0 < x.toNatClampNeg) :
    x.toInt = x.toNatClampNeg := by
  rw [← Int32.toNat_toInt] at positive ⊢
  omega

theorem natAbs_toInt_le (x : Int32) : x.toInt.natAbs ≤ 2 ^ 31 := by
  have least := x.le_toInt
  have most := x.toInt_lt
  omega

/-- The sizes of chunks do not wrap. -/
theorem toInt_fixedChunkSize (entrySize docs : Int32) :
    (fixedChunkSize entrySize docs).toInt = entrySize.toInt * docs.toInt :=
  toInt_ofInt_mul (natAbs_toInt_le entrySize) (Nat.le_trans (natAbs_toInt_le docs) (by omega))

theorem toInt_variableChunkSize (docs longest : Int32) :
    (variableChunkSize docs longest).toInt = docs.toInt * (slotWidth + longest.toInt) := by
  have length := natAbs_toInt_le longest
  exact toInt_ofInt_mul (natAbs_toInt_le docs) (by unfold slotWidth; omega)

/-! ## Powers of two -/

/-- A bit of the result is one where one of so many bits of the number is, from its place up. -/
def Smears (width : Nat) (x y : Nat) : Prop :=
  ∀ i, y.testBit i = true ↔ ∃ j < width, x.testBit (i + j) = true

theorem Smears.double {width x y : Nat} (h : Smears width x y) :
    Smears (width + width) x (y ||| y >>> width) := by
  intro i
  rw [Nat.testBit_or, Nat.testBit_shiftRight, Bool.or_eq_true, h, h]
  constructor
  · rintro (⟨j, hj, bit⟩ | ⟨j, hj, bit⟩)
    · exact ⟨j, by omega, bit⟩
    · exact ⟨width + j, by omega, by rwa [show i + (width + j) = width + i + j by omega]⟩
  · rintro ⟨j, hj, bit⟩
    by_cases near : j < width
    · exact .inl ⟨j, near, bit⟩
    · exact .inr ⟨j - width, by omega, by rwa [show width + i + (j - width) = i + j by omega]⟩

theorem toNat_smear (x : UInt32) : Smears 32 x.toNat (smear x).toNat := by
  have one : Smears 1 x.toNat x.toNat := by
    intro i
    constructor
    · intro bit
      exact ⟨0, by omega, bit⟩
    · rintro ⟨j, hj, bit⟩
      obtain rfl : j = 0 := by omega
      exact bit
  have step {width : Nat} {y : UInt32} (h : Smears width x.toNat y.toNat) (k : UInt32)
      (hk : k.toNat % 32 = width) : Smears (width + width) x.toNat (y ||| (y >>> k)).toNat := by
    rw [UInt32.toNat_or, UInt32.toNat_shiftRight, hk]
    exact h.double
  exact step (step (step (step (step one 1 rfl) 2 rfl) 4 rfl) 8 rfl) 16 rfl

theorem toNat_smear_eq {x : UInt32} (h : x ≠ 0) : (smear x).toNat = 2 ^ (x.toNat.log2 + 1) - 1 := by
  have some : x.toNat ≠ 0 := by simpa [← UInt32.toNat_inj] using h
  have low := Nat.log2_self_le some
  have high : x.toNat < 2 ^ (x.toNat.log2 + 1) := Nat.lt_log2_self
  have top : x.toNat.log2 < 32 := (Nat.log2_lt some).2 x.toNat_lt
  apply Nat.eq_of_testBit_eq
  intro i
  rw [Nat.testBit_two_pow_sub_one, Bool.eq_iff_iff, toNat_smear x i, decide_eq_true_eq]
  constructor
  · rintro ⟨j, _, bit⟩
    have := Nat.ge_two_pow_of_testBit bit
    have : 2 ^ (i + j) < 2 ^ (x.toNat.log2 + 1) := by omega
    have := (Nat.pow_lt_pow_iff_right (by omega)).1 this
    omega
  · intro hi
    refine ⟨x.toNat.log2 - i, by omega, ?_⟩
    rw [Nat.add_sub_cancel' (by omega)]
    exact Nat.testBit_log2 some

/-- The least power of two that is not below a number: the one before it is. -/
theorem nextPowerOfTwo_spec {n : Int32} (positive : 0 < n.toInt) (most : n.toInt ≤ 2 ^ 30) :
    ∃ k, (nextPowerOfTwo n).toInt = 2 ^ k ∧ n.toInt ≤ 2 ^ k ∧ 2 ^ k < 2 * n.toInt := by
  obtain ⟨m, hm⟩ := Int.eq_ofNat_of_zero_le (Int.le_of_lt positive)
  have least : 0 ≤ n := Int32.le_iff_toInt_le.2 (by simpa using Int.le_of_lt positive)
  have word : n.toUInt32.toNat = m := by
    rw [Int32.toNat_toUInt32_of_le least, ← Int32.toNat_toInt, hm, Int.toNat_natCast]
  have pred : (n.toUInt32 - 1).toNat = m - 1 := by
    rw [UInt32.toNat_sub_of_le _ _
        (UInt32.le_iff_toNat_le.2 (by rw [word, UInt32.toNat_one]; omega)),
      word, UInt32.toNat_one]
  have signed (y : UInt32) : y.toInt32 = Int32.ofNat y.toNat := by
    rw [← Int32.toBitVec_inj]
    simp
  have result {k : Nat} (hk : k ≤ 30) (smeared : (smear (n.toUInt32 - 1)).toNat = 2 ^ k - 1) :
      (nextPowerOfTwo n).toInt = 2 ^ k := by
    have top : 2 ^ k ≤ 2 ^ 30 := Nat.pow_le_pow_right (by omega) hk
    have some : 0 < 2 ^ k := Nat.two_pow_pos k
    have sum : (smear (n.toUInt32 - 1) + 1).toNat = 2 ^ k := by
      rw [UInt32.toNat_add, smeared, UInt32.toNat_one, Nat.sub_add_cancel some,
        Nat.mod_eq_of_lt (by omega)]
    rw [nextPowerOfTwo, signed, sum, Int32.toInt_ofNat_of_lt (by omega)]
    rfl
  rw [hm] at positive most ⊢
  by_cases one : m = 1
  · have zero : n.toUInt32 - 1 = 0 := by
      rw [← UInt32.toNat_inj, pred, one]
      rfl
    refine ⟨0, result (by omega) (by rw [zero]; rfl), by omega, by omega⟩
  · have some : n.toUInt32 - 1 ≠ 0 := by
      intro zero
      rw [← UInt32.toNat_inj, pred] at zero
      simp at zero
      omega
    have positive : m - 1 ≠ 0 := by omega
    have low := Nat.log2_self_le positive
    have high : m - 1 < 2 ^ ((m - 1).log2 + 1) := Nat.lt_log2_self
    have top : (m - 1).log2 < 30 := (Nat.log2_lt positive).2 (by omega)
    refine ⟨(m - 1).log2 + 1, result top (by rw [toNat_smear_eq some, pred]), ?_, ?_⟩
    · exact_mod_cast show m ≤ 2 ^ ((m - 1).log2 + 1) by omega
    · exact_mod_cast show 2 ^ ((m - 1).log2 + 1) < 2 * m by rw [Nat.pow_succ]; omega

/-- Chunks of fixed-width values hold a power of two of them from version 3 on. -/
theorem roundedDocs_eq_two_pow {version docs : Int32} (later : 3 ≤ version)
    (roundable : docs.toInt ≤ 2 ^ 30) (positive : 0 < (roundedDocs version docs).toInt) :
    ∃ k, (roundedDocs version docs).toNatClampNeg = 2 ^ k := by
  have early : ¬ version < 3 := Int32.not_lt.2 later
  unfold roundedDocs at positive ⊢
  by_cases none : docs ≤ 0
  · rw [if_pos (.inr none)] at positive
    rw [Int32.le_iff_toInt_le] at none
    exact absurd positive (Int.not_lt.2 none)
  · have some : 0 < docs.toInt := by
      rw [Int32.le_iff_toInt_le] at none
      exact Int.not_le.1 none
    obtain ⟨k, power, _⟩ := nextPowerOfTwo_spec some roundable
    refine ⟨k, ?_⟩
    rw [if_neg (not_or.2 ⟨early, none⟩), ← Int32.toNat_toInt, power]
    exact Int.toNat_natCast (2 ^ k)

end Layout
end ForwardIndex
