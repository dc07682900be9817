import ForwardIndex.Binary.Format
import Mathlib.Algebra.Order.Field.Power
import Mathlib.Algebra.Order.Field.Rat
import Mathlib.Algebra.Order.Floor.Semifield
import Mathlib.Data.Rat.Floor
import Mathlib.Tactic.FieldSimp
import Mathlib.Tactic.Linarith
import Mathlib.Tactic.Positivity
import Mathlib.Tactic.Ring

/-!
# Exact rounding

A quotient that a format has a value for is rounded to that value, and to infinity only if it is
beyond the greatest one. A pattern is its exponent and its significand, `Format.IsPattern`, and
`round` finds both. So a product with a power of two is exact until it is out of range.
-/
set_option autoImplicit false
namespace ForwardIndex.Binary

/-! ## Quotients -/

/-- The numerator and the denominator are shifted by an exponent. -/
theorem cast_shift_div (n d : Nat) (u : Int) :
    ((n <<< u.toNat : Nat) : ℚ) / (d <<< (-u).toNat : Nat) = n / d * 2 ^ u := by
  obtain ⟨k, rfl | rfl⟩ := u.eq_nat_or_neg
  · simp [Nat.shiftLeft_eq]
    ring
  · simp [Nat.shiftLeft_eq]
    field_simp

theorem shift_pos {n : Nat} (h : 0 < n) (k : Nat) : 0 < n <<< k := by
  rw [Nat.shiftLeft_eq]
  positivity

theorem shift_lt_shift_iff (num : Nat) {den : Nat} (pos : 0 < den) (g : Int) :
    num <<< (-g).toNat < den <<< g.toNat ↔ (num : ℚ) / den < 2 ^ g := by
  have shifted := cast_shift_div num den (-g)
  rw [neg_neg] at shifted
  have scale : (0 : ℚ) < 2 ^ g := by positivity
  have den_pos : (0 : ℚ) < (den <<< g.toNat : Nat) := by exact_mod_cast shift_pos pos _
  rw [← @Nat.cast_lt ℚ, ← div_lt_one den_pos, shifted, zpow_neg, ← div_eq_mul_inv,
    div_lt_one scale]

theorem two_pow_log2_le {n : Nat} (pos : 0 < n) :
    (2 : ℚ) ^ (n.log2 : Int) ≤ n ∧ (n : ℚ) < 2 ^ (n.log2 + 1 : Int) := by
  refine ⟨?_, ?_⟩
  · exact_mod_cast Nat.log2_self_le pos.ne'
  · exact_mod_cast @Nat.lt_log2_self n

/-- The binary order is the exponent of the greatest power of two that is not above a quotient. -/
theorem binaryOrder_spec {num den : Nat} (hn : 0 < num) (hd : 0 < den) :
    (2 : ℚ) ^ binaryOrder num den ≤ num / den ∧
      (num : ℚ) / den < 2 ^ (binaryOrder num den + 1) := by
  obtain ⟨num_ge, num_lt⟩ := two_pow_log2_le hn
  obtain ⟨den_ge, den_lt⟩ := two_pow_log2_le hd
  have den_pos : (0 : ℚ) < den := by exact_mod_cast hd
  have two : (2 : ℚ) ≠ 0 := by norm_num
  -- the guess may be one too much, and that is what the comparison finds out
  have low : (2 : ℚ) ^ ((num.log2 : Int) - den.log2 - 1) ≤ num / den := by
    rw [le_div_iff₀ den_pos]
    calc (2 : ℚ) ^ ((num.log2 : Int) - den.log2 - 1) * den
        ≤ 2 ^ ((num.log2 : Int) - den.log2 - 1) * 2 ^ (den.log2 + 1 : Int) := by gcongr
      _ = 2 ^ (num.log2 : Int) := by rw [← zpow_add₀ two]; congr 1; ring
      _ ≤ num := num_ge
  have high : (num : ℚ) / den < 2 ^ ((num.log2 : Int) - den.log2 + 1) := by
    rw [div_lt_iff₀ den_pos]
    calc (num : ℚ) < 2 ^ (num.log2 + 1 : Int) := num_lt
      _ = 2 ^ ((num.log2 : Int) - den.log2 + 1) * 2 ^ (den.log2 : Int) := by
        rw [← zpow_add₀ two]; congr 1; ring
      _ ≤ 2 ^ ((num.log2 : Int) - den.log2 + 1) * den := by gcongr
  unfold binaryOrder
  dsimp only
  split
  · next less =>
    rw [shift_lt_shift_iff num hd] at less
    exact ⟨low, by rwa [sub_add_cancel]⟩
  · next enough =>
    rw [shift_lt_shift_iff num hd, not_lt] at enough
    exact ⟨enough, high⟩

/-- A whole quotient is rounded to itself. -/
theorem roundQuotient_exact {num den q : Nat} (pos : 0 < den) (whole : (num : ℚ) / den = q) :
    roundQuotient num den = q := by
  have den_ne : (den : ℚ) ≠ 0 := by exact_mod_cast pos.ne'
  have num_eq : num = q * den := by
    rw [div_eq_iff den_ne] at whole
    exact_mod_cast whole
  subst num_eq
  simp [roundQuotient, Nat.mul_div_cancel _ pos, pos]

namespace Format

variable (f : Format)

/-! ## Patterns -/

/-- The value of a finite pattern. -/
def value (pattern : Nat) : ℚ := ((f.quotient pattern).1 : ℚ) / (f.quotient pattern).2

/-- A pattern is an exponent above the least one and a significand of the format's precision, which
is full unless the exponent is the least. -/
structure IsPattern (pattern above significand : Nat) : Prop where
  eq : pattern = above * 2 ^ f.fraction + significand
  precise : significand < 2 ^ (f.fraction + 1)
  full : above = 0 ∨ 2 ^ f.fraction ≤ significand

variable {f}

theorem exists_isPattern (f : Format) (pattern : Nat) :
    ∃ above significand, f.IsPattern pattern above significand := by
  have split := Nat.div_add_mod' pattern (2 ^ f.fraction)
  have below : pattern % 2 ^ f.fraction < 2 ^ f.fraction := Nat.mod_lt _ (by positivity)
  generalize pattern % 2 ^ f.fraction = m at split below
  cases h : pattern / 2 ^ f.fraction with
  | zero =>
    rw [h] at split
    exact ⟨0, m, split.symm, by rw [pow_succ]; omega, .inl rfl⟩
  | succ above =>
    rw [h] at split
    refine ⟨above, 2 ^ f.fraction + m, ?_, by rw [pow_succ]; omega, .inr (by omega)⟩
    rw [← split]
    ring

/-- A pattern is taken apart into its exponent and its significand. -/
theorem IsPattern.quotient_eq {pattern above significand : Nat}
    (h : f.IsPattern pattern above significand) :
    f.quotient pattern =
      (significand <<< (f.minUlp + above).toNat, 1 <<< (-(f.minUlp + above)).toNat) := by
  obtain ⟨rfl, precise, full⟩ := h
  have pos : 0 < 2 ^ f.fraction := by positivity
  rw [pow_succ] at precise
  unfold quotient
  rw [Nat.shiftRight_eq_div_pow, Nat.one_shiftLeft]
  by_cases small : significand < 2 ^ f.fraction
  · obtain rfl : above = 0 := by omega
    simp [Nat.div_eq_of_lt small, Nat.mod_eq_of_lt small]
  · obtain ⟨m, rfl⟩ := Nat.exists_eq_add_of_le (Nat.le_of_not_lt small)
    have carried : above * 2 ^ f.fraction + (2 ^ f.fraction + m) =
        m + (above + 1) * 2 ^ f.fraction := by ring
    have exponent : (m + (above + 1) * 2 ^ f.fraction) / 2 ^ f.fraction = above + 1 := by
      rw [Nat.add_mul_div_right _ _ pos, Nat.div_eq_of_lt (by omega), Nat.zero_add]
    have fraction : (m + (above + 1) * 2 ^ f.fraction) % 2 ^ f.fraction = m := by
      rw [Nat.add_mul_mod_self_right, Nat.mod_eq_of_lt (by omega)]
    simp [carried, exponent, fraction]

theorem IsPattern.value_eq {pattern above significand : Nat}
    (h : f.IsPattern pattern above significand) :
    f.value pattern = significand * 2 ^ (f.minUlp + above) := by
  rw [value, h.quotient_eq, cast_shift_div, Nat.cast_one, div_one]

/-! ## Rounding -/

/-- A quotient with a significand of the format's precision is rounded to the pattern that has its
value, or to infinity if there is none. -/
theorem round_isPattern {num den q : Nat} {u : Int} (num_pos : 0 < num) (den_pos : 0 < den)
    (eq : (num : ℚ) / den = q * 2 ^ u) (precise : q < 2 ^ (f.fraction + 1)) (least : f.minUlp ≤ u) :
    ∃ pattern above significand, f.round num den = min pattern f.infinity ∧
      f.IsPattern pattern above significand ∧
      (num : ℚ) / den = significand * 2 ^ (f.minUlp + above) := by
  obtain ⟨order_le, lt_order⟩ := binaryOrder_spec num_pos den_pos
  have two : (2 : ℚ) ≠ 0 := by norm_num
  have ulp_ge : f.minUlp ≤ f.ulp num den := le_max_right _ _
  -- the spacing around the quotient is not wider than the last place of its significand
  have ulp_le : f.ulp num den ≤ u := by
    refine max_le ?_ least
    have below : (2 : ℚ) ^ binaryOrder num den < 2 ^ (f.fraction + 1 + u : Int) := by
      calc (2 : ℚ) ^ binaryOrder num den ≤ q * 2 ^ u := eq ▸ order_le
        _ < 2 ^ (f.fraction + 1 : Int) * 2 ^ u := by
          gcongr
          exact_mod_cast precise
        _ = 2 ^ (f.fraction + 1 + u : Int) := by rw [← zpow_add₀ two]
    have := (zpow_lt_zpow_iff_right₀ (by norm_num : (1 : ℚ) < 2)).1 below
    omega
  obtain ⟨places, u_eq⟩ := Int.eq_ofNat_of_zero_le (Int.sub_nonneg.2 ulp_le)
  obtain ⟨above, ulp_eq⟩ := Int.eq_ofNat_of_zero_le (Int.sub_nonneg.2 ulp_ge)
  have ulp_eq : f.ulp num den = f.minUlp + above := by omega
  have value : (num : ℚ) / den = (q * 2 ^ places : Nat) * 2 ^ (f.minUlp + above) := by
    rw [eq, show u = f.minUlp + above + places by omega, zpow_add₀ two, zpow_natCast]
    push_cast
    ring
  refine ⟨above * 2 ^ f.fraction + q * 2 ^ places, above, q * 2 ^ places, ?_, ⟨rfl, ?_, ?_⟩, value⟩
  · have whole : ((num <<< (-f.ulp num den).toNat : Nat) : ℚ) /
        (den <<< (f.ulp num den).toNat : Nat) = (q * 2 ^ places : Nat) := by
      have shifted := cast_shift_div num den (-f.ulp num den)
      rw [neg_neg] at shifted
      rw [shifted, value, ulp_eq, mul_assoc, ← zpow_add₀ two, add_neg_cancel, zpow_zero, mul_one]
    have exponent : (f.ulp num den - f.minUlp).toNat = above := by omega
    unfold round
    dsimp only
    rw [roundQuotient_exact (shift_pos den_pos _) whole, exponent, Nat.shiftLeft_eq]
  · have scale : (0 : ℚ) < 2 ^ (f.minUlp + above) := by positivity
    have below : ((q * 2 ^ places : Nat) : ℚ) * 2 ^ (f.minUlp + above) <
        2 ^ (f.fraction + 1 : Int) * 2 ^ (f.minUlp + above) := by
      calc ((q * 2 ^ places : Nat) : ℚ) * 2 ^ (f.minUlp + above)
          < 2 ^ (binaryOrder num den + 1) := value ▸ lt_order
        _ ≤ 2 ^ (f.fraction + 1 + (f.minUlp + above) : Int) := by
          refine zpow_le_zpow_right₀ (by norm_num) ?_
          have : binaryOrder num den - f.fraction ≤ f.ulp num den := le_max_left _ _
          omega
        _ = 2 ^ (f.fraction + 1 : Int) * 2 ^ (f.minUlp + above) := zpow_add₀ two _ _
    exact_mod_cast (mul_lt_mul_iff_left₀ scale).1 below
  · rcases Nat.eq_zero_or_pos above with none | some
    · exact .inl none
    · have order : binaryOrder num den = f.fraction + (f.minUlp + above) := by
        have : f.ulp num den = max (binaryOrder num den - f.fraction) f.minUlp := rfl
        omega
      have scale : (0 : ℚ) < 2 ^ (f.minUlp + above) := by positivity
      have enough : (2 : ℚ) ^ (f.fraction : Int) * 2 ^ (f.minUlp + above) ≤
          (q * 2 ^ places : Nat) * 2 ^ (f.minUlp + above) := by
        rw [← zpow_add₀ two, ← order, ← value]
        exact order_le
      exact .inr (by exact_mod_cast (mul_le_mul_iff_left₀ scale).1 enough)

theorem round_le_infinity (f : Format) (num den : Nat) : f.round num den ≤ f.infinity :=
  Nat.min_le_right _ _

/-- Short of infinity, the rounded value is the quotient itself. -/
theorem value_round {num den q : Nat} {u : Int} (num_pos : 0 < num) (den_pos : 0 < den)
    (eq : (num : ℚ) / den = q * 2 ^ u) (precise : q < 2 ^ (f.fraction + 1)) (least : f.minUlp ≤ u)
    (finite : f.round num den ≠ f.infinity) : f.value (f.round num den) = num / den := by
  obtain ⟨pattern, above, significand, rounded, isPattern, same⟩ :=
    round_isPattern num_pos den_pos eq precise least
  rw [rounded] at finite ⊢
  have inside : pattern ≤ f.infinity := by
    by_contra outside
    exact finite (Nat.min_eq_right (Nat.le_of_not_le outside))
  rw [Nat.min_eq_left inside, isPattern.value_eq, same]

/-- A double that is rounded to infinity is beyond the range. -/
theorem le_of_round_infinity {num den q : Nat} {u : Int} (num_pos : 0 < num) (den_pos : 0 < den)
    (eq : (num : ℚ) / den = q * 2 ^ u) (precise : q < 2 ^ 53) (least : -1074 ≤ u)
    (infinite : double.round num den = double.infinity) : (2 : ℚ) ^ 1024 ≤ num / den := by
  obtain ⟨pattern, above, significand, rounded, ⟨split, below, full⟩, same⟩ :=
    @round_isPattern double num den q u num_pos den_pos eq precise least
  have outside : (2 ^ 11 - 1) * 2 ^ 52 ≤ pattern := by
    rw [infinite] at rounded
    exact min_eq_right_iff.1 rounded.symm
  change pattern = above * 2 ^ 52 + significand at split
  change significand < 2 ^ 53 at below
  change above = 0 ∨ 2 ^ 52 ≤ significand at full
  have most : 2046 ≤ above := by omega
  have large : 2 ^ 52 ≤ significand := by omega
  rw [same]
  have exponent : (972 : Int) ≤ double.minUlp + above := by
    have : double.minUlp = -1074 := rfl
    omega
  calc (2 : ℚ) ^ 1024 = (2 : ℚ) ^ 52 * 2 ^ (972 : Int) := by rw [zpow_ofNat, ← pow_add]
    _ ≤ (significand : ℚ) * 2 ^ (double.minUlp + above) := by
        gcongr
        · exact_mod_cast large
        · norm_num

/-! ## Products with a power of two -/

/-- The product of the value of a pattern and a natural number, rounded. -/
def times (f : Format) (pattern factor : Nat) : Nat :=
  let (num, den) := f.quotient pattern
  if num * factor = 0 then 0 else f.round (num * factor) den

theorem quotient_pos (f : Format) (pattern : Nat) : 0 < (f.quotient pattern).2 :=
  shift_pos one_pos _

theorem value_zero (f : Format) : f.value 0 = 0 := by
  have zero : f.IsPattern 0 0 0 := ⟨by simp, by positivity, .inl rfl⟩
  rw [zero.value_eq, Nat.cast_zero, zero_mul]

theorem times_le_infinity (f : Format) (pattern factor : Nat) :
    f.times pattern factor ≤ f.infinity := by
  unfold times
  dsimp only
  split
  · exact Nat.zero_le _
  · exact f.round_le_infinity _ _

section Product

variable {pattern k : Nat}

theorem value_mul (f : Format) (pattern factor : Nat) :
    (((f.quotient pattern).1 * factor : Nat) : ℚ) / (f.quotient pattern).2 =
      f.value pattern * factor := by
  rw [value, Nat.cast_mul, mul_div_right_comm]

/-- The significand of a pattern stays when it is multiplied by a power of two. -/
theorem IsPattern.product {above significand : Nat} (h : f.IsPattern pattern above significand)
    (k : Nat) : (((f.quotient pattern).1 * 2 ^ k : Nat) : ℚ) / (f.quotient pattern).2 =
      significand * 2 ^ (f.minUlp + above + k) := by
  have two : (2 : ℚ) ≠ 0 := by norm_num
  rw [value_mul, h.value_eq, zpow_add₀ two _ (k : Int), zpow_natCast]
  push_cast
  ring

/-- A product with a power of two is exact, short of infinity. -/
theorem value_times (finite : f.times pattern (2 ^ k) ≠ f.infinity) :
    f.value (f.times pattern (2 ^ k)) = f.value pattern * 2 ^ k := by
  obtain ⟨above, significand, isPattern⟩ := f.exists_isPattern pattern
  have least : f.minUlp ≤ f.minUlp + above + k := by omega
  have exact : (((f.quotient pattern).1 * 2 ^ k : Nat) : ℚ) / (f.quotient pattern).2 =
      f.value pattern * 2 ^ k := by exact_mod_cast f.value_mul pattern (2 ^ k)
  rw [times] at finite ⊢
  dsimp only at finite ⊢
  by_cases none : (f.quotient pattern).1 * 2 ^ k = 0
  · rw [if_pos none, value_zero, ← exact, none, Nat.cast_zero, zero_div]
  · rw [if_neg none] at finite ⊢
    rw [value_round (Nat.pos_of_ne_zero none) (f.quotient_pos pattern) (isPattern.product k)
      isPattern.precise least finite, exact]

/-- A product of a double with a power of two is infinite only if it is beyond the range. -/
theorem le_of_times_infinity (infinite : double.times pattern (2 ^ k) = double.infinity) :
    (2 : ℚ) ^ 1024 ≤ double.value pattern * 2 ^ k := by
  obtain ⟨above, significand, isPattern⟩ := double.exists_isPattern pattern
  have least : (-1074 : Int) ≤ double.minUlp + above + k := by
    have : double.minUlp = -1074 := rfl
    omega
  rw [times] at infinite
  dsimp only at infinite
  split at infinite
  · cases infinite
  · next some =>
    have large := le_of_round_infinity (Nat.pos_of_ne_zero some) (double.quotient_pos pattern)
      (isPattern.product k) isPattern.precise least infinite
    rw [value_mul] at large
    exact_mod_cast large

end Product

end Format
end ForwardIndex.Binary
