import ForwardIndex.Proofs.IntegerLines
import ForwardIndex.Proofs.Rounding
import ForwardIndex.SizeText

/-!
# Sizes that are whole numbers

A size is read as a double, multiplied by a power of 1024 and cut to its whole part. For decimal
digits of a number below `2 ^ 53` no step loses anything, as long as the product is a 64-bit number.
What follows the digits must be a suffix as a whole; else the size is zero.
-/
set_option autoImplicit false
namespace ForwardIndex

open Text (Digits digitsValue isDigit lowerByte upperByte)

namespace Text

/-! ## Leading zeros -/

/-- The first digit counts as often as the others have places. -/
theorem digitsValue_cons (c : UInt8) (t : Text) :
    digitsValue (c :: t) = (c.toNat - 48) * 10 ^ t.length + digitsValue t := by
  have shifted (n : Nat) : t.foldl (fun n c => 10 * n + (c.toNat - 48)) n =
      n * 10 ^ t.length + digitsValue t := by
    induction t generalizing n with
    | nil => simp [digitsValue]
    | cons d t ih =>
      have first : digitsValue (d :: t) = (10 * 0 + (d.toNat - 48)) * 10 ^ t.length +
          digitsValue t := by rw [digitsValue, List.foldl_cons, ih]
      rw [List.foldl_cons, ih, first, List.length_cons, pow_succ]
      ring
  rw [digitsValue, List.foldl_cons, shifted, Nat.mul_zero, Nat.zero_add]

theorem digitsValue_dropZeros (t : Text) :
    digitsValue (t.dropWhile (· == 48)) = digitsValue t := by
  induction t with
  | nil => rfl
  | cons c t ih =>
    by_cases zero : c = 48
    · subst zero
      rw [List.dropWhile_cons_of_pos (by rfl), ih, digitsValue_cons]
      simp
    · rw [List.dropWhile_cons_of_neg (by simpa using zero)]

/-- A number has no more digits than powers of ten fit below it, but for leading zeros. -/
theorem pow_length_le {c : UInt8} {t : Text} (digit : isDigit c) (some : c ≠ 48) :
    10 ^ t.length ≤ digitsValue (c :: t) := by
  have least : 1 ≤ c.toNat - 48 := by
    simp only [isDigit, Bool.and_eq_true, decide_eq_true_eq, UInt8.le_iff_toNat_le,
      UInt8.reduceToNat] at digit
    have : c.toNat ≠ 48 := fun same => some (UInt8.toNat_inj.1 same)
    omega
  rw [digitsValue_cons]
  exact Nat.le_add_right_of_le (Nat.le_mul_of_pos_left _ least)

end Text

namespace Binary

/-! ## Doubles of natural numbers -/

theorem magnitude_signed {pattern : Nat} (small : pattern < Format.double.signBit) :
    magnitude (signed false pattern) = pattern ∧ isNegative (signed false pattern) = false := by
  have small : pattern < 2 ^ 63 := small
  have stored : (signed false pattern).toNat = pattern :=
    UInt64.toNat_ofNat_of_lt (show pattern < 2 ^ 64 by omega)
  unfold magnitude isNegative
  rw [stored]
  refine ⟨Nat.mod_eq_of_lt small, decide_eq_false ?_⟩
  exact Nat.not_le.2 small

/-- The double nearest to a natural number. -/
def naturalBits (n : Nat) : UInt64 :=
  signed false (if n = 0 then 0 else Format.double.round n 1)

/-- Natural numbers below `2 ^ 53` are doubles. -/
theorem naturalBits_spec {n : Nat} (small : n < 2 ^ 53) :
    isNegative (naturalBits n) = false ∧ magnitude (naturalBits n) < Format.double.infinity ∧
      Format.double.value (magnitude (naturalBits n)) = n := by
  unfold naturalBits
  by_cases none : n = 0
  · rw [if_pos none, none, Nat.cast_zero]
    exact ⟨by decide, by decide, Format.value_zero _⟩
  · rw [if_neg none]
    have whole : (n : ℚ) / (1 : Nat) = n * 2 ^ (0 : Int) := by simp
    have pos := Nat.pos_of_ne_zero none
    have finite : Format.double.round n 1 ≠ Format.double.infinity := by
      intro infinite
      have large := Format.le_of_round_infinity pos one_pos whole small (by norm_num) infinite
      rw [Nat.cast_one, div_one] at large
      have below : (n : ℚ) < 2 ^ 53 := by exact_mod_cast small
      have inside : (2 : ℚ) ^ 53 ≤ 2 ^ 1024 := pow_le_pow_right₀ (by norm_num) (by norm_num)
      exact absurd (large.trans_lt below) (not_lt.2 inside)
    have finite_lt := Nat.lt_of_le_of_ne (Format.round_le_infinity _ _ _) finite
    obtain ⟨same, positive⟩ := magnitude_signed (finite_lt.trans (by decide))
    rw [same]
    refine ⟨positive, finite_lt, ?_⟩
    rw [Format.value_round pos one_pos whole small (by decide) finite, Nat.cast_one, div_one]

/-! ## Digits at the start of a text -/

/-- A text that may stand behind decimal digits without being part of the numeral. -/
def Ends (tail : Text) : Prop :=
  ∀ c ∈ tail.head?, isDigit c = false ∧ c ≠ 46 ∧ lowerByte c ≠ 101 ∧ lowerByte c ≠ 120

section Digits

variable {digits tail : Text} (all : Digits digits) (ends : Ends tail)
include all ends

theorem takeWhile_digits :
    (digits ++ tail).takeWhile isDigit = digits ∧ (digits ++ tail).dropWhile isDigit = tail := by
  rw [List.takeWhile_append_of_pos all.all, List.dropWhile_append_of_pos all.all]
  cases tail with
  | nil => simp
  | cons c tail =>
    obtain ⟨other, -⟩ := ends c rfl
    rw [List.takeWhile_cons_of_neg (by simp [other]), List.dropWhile_cons_of_neg (by simp [other]),
      List.append_nil]
    exact ⟨rfl, rfl⟩

theorem readFraction_digits :
    Numeral.readFraction isDigit (digits ++ tail) = some (digits, [], tail) := by
  obtain ⟨taken, left⟩ := takeWhile_digits all ends
  unfold Numeral.readFraction
  rw [taken, left]
  split
  · next r => exact absurd rfl (ends 46 rfl).2.1
  · simp [all.some]

omit all in
theorem readScale_none : Numeral.readScale 101 tail = (0, tail) := by
  cases tail with
  | nil => rfl
  | cons c tail => exact if_neg (ends c rfl).2.2.1

/-- Digits are read as a whole; a number below `2 ^ 53` has so few of them that its quotient is not
replaced. -/
theorem readDecimal_digits (negative : Bool) : ∃ num den,
    Numeral.readDecimal negative (digits ++ tail) =
      some (Numeral.ofQuotient negative (some Format.double.decimalPlace) num den tail) ∧
    (digitsValue digits < 2 ^ 53 → num = digitsValue digits ∧ den = 1) := by
  have value := Text.digitsValue_dropZeros digits
  unfold Numeral.readDecimal
  simp only [readFraction_digits all ends, readScale_none ends, Option.bind_eq_bind,
    Option.bind_some, List.append_nil, List.length_nil, Text.decimalValue_eq]
  cases significant : digits.dropWhile (· == 48) with
  | nil =>
    rw [significant] at value
    exact ⟨0, 1, by simp, fun _ => ⟨value, rfl⟩⟩
  | cons c rest =>
    rw [significant] at value
    refine ⟨_, _, rfl, fun small => ?_⟩
    have among : c ∈ digits := (List.dropWhile_suffix _).subset (significant ▸ List.mem_cons_self)
    have nonzero : c ≠ 48 := by
      have stop := List.head?_dropWhile_not (· == 48) digits
      rw [significant] at stop
      simpa using stop
    have few : rest.length < 16 := by
      refine (Nat.pow_lt_pow_iff_right (show 1 < 10 by decide)).1 ?_
      calc 10 ^ rest.length
          ≤ digitsValue digits := value ▸ Text.pow_length_le (all.all c among) nonzero
        _ < 10 ^ 16 := small.trans (by decide)
    have unscaled : Numeral.scaled 10 Numeral.decimalBound (digitsValue (c :: rest))
        (c :: rest).length (0 - (0 : Nat)) = (digitsValue digits, 1) := by
      unfold Numeral.scaled Numeral.decimalBound
      rw [if_neg (by simp; omega), if_neg (by simp; omega), value]
      simp
    exact Prod.ext_iff.1 unscaled

/-- Digits start with a digit, and no marker of hexadecimal digits comes second. -/
theorem head_digits : ∃ c r, digits ++ tail = c :: r ∧ isDigit c ∧
    ∀ x ∈ r.head?, lowerByte x ≠ 120 := by
  obtain ⟨some, all⟩ := all
  cases digits with
  | nil => exact absurd rfl some
  | cons c digits =>
    refine ⟨c, digits ++ tail, rfl, all c List.mem_cons_self, ?_⟩
    cases digits with
    | nil => exact fun x second => (ends x second).2.2.2
    | cons d digits =>
      rintro _ ⟨⟩
      have digit := all d (by simp)
      simp only [isDigit, Bool.and_eq_true, decide_eq_true_eq, UInt8.le_iff_toNat_le,
        UInt8.reduceToNat] at digit
      simp only [lowerByte, Bool.and_eq_true, decide_eq_true_eq, UInt8.le_iff_toNat_le,
        UInt8.reduceToNat, ne_eq, ← UInt8.toNat_inj]
      rw [if_neg (by omega)]
      omega

theorem read_digits : ∃ num den,
    Numeral.read (digits ++ tail) =
      some (Numeral.ofQuotient false (some Format.double.decimalPlace) num den tail) ∧
    (digitsValue digits < 2 ^ 53 → num = digitsValue digits ∧ den = 1) := by
  obtain ⟨num, den, read, small⟩ := readDecimal_digits all ends false
  refine ⟨num, den, ?_, small⟩
  obtain ⟨c, r, eq, digit, second⟩ := head_digits all ends
  rw [eq] at read ⊢
  have unsigned : Numeral.readUnsigned false (c :: r) = Numeral.readDecimal false (c :: r) := by
    unfold Numeral.readUnsigned
    split
    · next x r' same =>
      cases same
      exact if_neg (second x rfl)
    · rw [read]
      rfl
  have plain : Text.readSign (c :: r) = (false, c :: r) := by
    unfold Text.readSign
    split
    · next same => cases same; cases digit
    · next same => cases same; cases digit
    · rfl
  unfold Numeral.read
  rw [List.dropWhile_cons_of_neg (by simp [(Text.solid_of_isDigit digit).1]), plain]
  exact unsigned.trans read

end Digits

end Binary

namespace SizeText

open Binary

/-! ## Whole parts -/

/-- The whole part of a double, zero if that is no 64-bit number. -/
def truncated (pattern : Nat) : Nat :=
  if Format.double.infinity ≤ pattern then 0
  else
    let n := ⌊Format.double.value pattern⌋₊
    if n < 0x10000000000000000 then n else 0

theorem whole_product (pattern factor : Nat) :
    (Format.double.quotient pattern).1 * factor / (Format.double.quotient pattern).2 =
      ⌊Format.double.value pattern * factor⌋₊ := by
  rw [← Format.value_mul, Nat.floor_div_eq_div]

/-- To take the whole part of an exact product is to multiply in doubles and truncate, for every
double and every power of two. -/
theorem wholeBytes_eq (bits : UInt64) (k : Nat) :
    wholeBytes bits (2 ^ k) =
      if isNegative bits || Format.double.infinity ≤ magnitude bits then 0
      else truncated (Format.double.times (magnitude bits) (2 ^ k)) := by
  unfold wholeBytes
  split
  · rfl
  · dsimp only
    rw [whole_product, Nat.cast_pow, Nat.cast_ofNat]
    by_cases infinite : Format.double.times (magnitude bits) (2 ^ k) = Format.double.infinity
    · have inside : ((0x10000000000000000 : Nat) : ℚ) ≤ 2 ^ 1024 := by
        rw [show (0x10000000000000000 : Nat) = 2 ^ 64 from rfl, Nat.cast_pow, Nat.cast_ofNat]
        exact pow_le_pow_right₀ (by norm_num) (by norm_num)
      have large := Nat.le_floor (inside.trans (Format.le_of_times_infinity infinite))
      rw [infinite, truncated, if_pos (Nat.le_refl _), if_neg (Nat.not_lt.2 large)]
    · have finite := Nat.lt_of_le_of_ne (Format.times_le_infinity _ _ _) infinite
      rw [truncated, if_neg (Nat.not_le.2 finite), Format.value_times infinite]

/-! ## Suffixes -/

/-- The factor of a suffix letter. -/
def unit? (c : UInt8) : Option Nat :=
  if c = 75 ∨ c = 107 then some (2 ^ 10)
  else if c = 77 ∨ c = 109 then some (2 ^ 20)
  else if c = 71 ∨ c = 103 then some (2 ^ 30)
  else none

theorem upperByte_eq_iff {c letter : UInt8} (upper : 65 ≤ letter.toNat ∧ letter.toNat ≤ 90) :
    upperByte c = letter ↔ c.toNat = letter.toNat ∨ c.toNat = letter.toNat + 32 := by
  have small := c.toNat_lt
  simp only [upperByte, Bool.and_eq_true, decide_eq_true_eq, UInt8.le_iff_toNat_le,
    UInt8.reduceToNat]
  split
  · rw [← UInt8.toNat_inj, UInt8.toNat_sub_of_le _ _ (by rw [UInt8.le_iff_toNat_le]; simp; omega)]
    simp
    omega
  · rw [← UInt8.toNat_inj]
    omega

/-- Suffix letters are told by their upper case. -/
theorem unit?_eq (c : UInt8) :
    unit? c =
      if upperByte c = 75 then some (2 ^ 10)
      else if upperByte c = 77 then some (2 ^ 20)
      else if upperByte c = 71 then some (2 ^ 30)
      else none := by
  have folds (letter lower : UInt8) (upper : 65 ≤ letter.toNat ∧ letter.toNat ≤ 90)
      (pair : lower.toNat = letter.toNat + 32) :
      (c = letter ∨ c = lower) ↔ upperByte c = letter := by
    rw [upperByte_eq_iff upper, ← UInt8.toNat_inj, ← UInt8.toNat_inj, pair]
  simp only [unit?, folds 75 107 (by decide) rfl, folds 77 109 (by decide) rfl,
    folds 71 103 (by decide) rfl]

theorem multiplier?_cons (c : UInt8) (t : Text) :
    multiplier? (c :: t) =
      if t.map upperByte = [] ∨ t.map upperByte = [66] then unit? c else none := by
  rw [unit?_eq]
  unfold multiplier?
  rw [List.map_cons]
  generalize upperByte c = l, t.map upperByte = m
  split <;> grind

/-- What may follow the digits: nothing, or a letter with an optional `B`. -/
inductive IsSuffix : Text → Nat → Prop
  | none : IsSuffix [] 1
  | letter {c : UInt8} {factor : Nat} (unit : unit? c = some factor) : IsSuffix [c] factor
  | bytes {c b : UInt8} {factor : Nat} (unit : unit? c = some factor) (isB : b = 66 ∨ b = 98) :
      IsSuffix [c, b] factor

theorem unit?_cases {c : UInt8} {factor : Nat} (unit : unit? c = some factor) :
    (c ∈ [75, 107] ∧ factor = 2 ^ 10) ∨ (c ∈ [77, 109] ∧ factor = 2 ^ 20) ∨
      (c ∈ [71, 103] ∧ factor = 2 ^ 30) := by
  unfold unit? at unit
  grind

/-- A suffix letter is part of no numeral. -/
theorem unit?_outside {c : UInt8} {factor : Nat} (unit : unit? c = some factor) :
    c ≠ 0 ∧ isDigit c = false ∧ c ≠ 46 ∧ lowerByte c ≠ 101 ∧ lowerByte c ≠ 120 := by
  have outside : ∀ c ∈ [75, 107, 77, 109, 71, 103], (c : UInt8) ≠ 0 ∧ isDigit c = false ∧ c ≠ 46 ∧
      lowerByte c ≠ 101 ∧ lowerByte c ≠ 120 := by decide +kernel
  refine outside c ?_
  have := unit?_cases unit
  grind

section Suffix

variable {suffix : Text} {factor : Nat}

theorem IsSuffix.multiplier (h : IsSuffix suffix factor) : multiplier? suffix = some factor := by
  cases h with
  | none => rfl
  | letter unit => rw [multiplier?_cons, if_pos (.inl rfl), unit]
  | bytes unit isB =>
    have upper : ∀ b ∈ [66, 98], upperByte b = 66 := by decide +kernel
    have folded : [_].map upperByte = [66] := congrArg (fun b => [b]) (upper _ (by simpa using isB))
    rw [multiplier?_cons, if_pos (.inr folded), unit]

theorem IsSuffix.ends (h : IsSuffix suffix factor) : Ends suffix := by
  cases h with
  | none => nofun
  | letter unit => rintro _ ⟨⟩; exact (unit?_outside unit).2
  | bytes unit isB => rintro _ ⟨⟩; exact (unit?_outside unit).2

theorem IsSuffix.power (h : IsSuffix suffix factor) : ∃ k, factor = 2 ^ k := by
  have power {c : UInt8} (unit : unit? c = some factor) : ∃ k, factor = 2 ^ k := by
    obtain ⟨-, rfl⟩ | ⟨-, rfl⟩ | ⟨-, rfl⟩ := unit?_cases unit
    · exact ⟨10, rfl⟩
    · exact ⟨20, rfl⟩
    · exact ⟨30, rfl⟩
  cases h with
  | none => exact ⟨0, rfl⟩
  | letter unit => exact power unit
  | bytes unit isB => exact power unit

end Suffix

/-! ## Sizes -/

theorem untilNul_digits {digits : Text} (all : Digits digits) (tail : Text) :
    (digits ++ tail).untilNul = digits ++ tail.untilNul :=
  List.takeWhile_append_of_pos fun c among => by
    simpa using (Text.solid_of_isDigit (all.all c among)).2

/-- Behind the digits of a numeral decides what follows them. -/
theorem parse_digits {digits tail : Text} (all : Digits digits) (ends : Ends tail.untilNul) :
    ∃ numeral, Numeral.read (digits ++ tail).untilNul = some numeral ∧
      (digitsValue digits < 2 ^ 53 → numeral.bits = naturalBits (digitsValue digits)) ∧
      parse (digits ++ tail) = (multiplier? tail.untilNul).elim 0 (wholeBytes numeral.bits) := by
  obtain ⟨num, den, read, small⟩ := read_digits all ends
  rw [parse, untilNul_digits all, read]
  refine ⟨_, rfl, fun below => ?_, ?_⟩
  · obtain ⟨rfl, rfl⟩ := small below
    unfold Numeral.ofQuotient naturalBits
    split <;> rfl
  · have rest (place : Option Int) :
        (Numeral.ofQuotient false place num den tail.untilNul).rest = tail.untilNul := by
      unfold Numeral.ofQuotient
      split <;> rfl
    dsimp only
    rw [rest]
    cases multiplier? tail.untilNul <;> rfl

/-- A size is read as a double, multiplied and cut to its whole part, all of it exactly. -/
structure Exact (t : Text) (n factor : Nat) : Prop where
  doubles : ∃ numeral, Numeral.read t.untilNul = some numeral ∧
    Format.double.value (magnitude numeral.bits) = n ∧
    Format.double.value (Format.double.times (magnitude numeral.bits) factor) = n * factor
  parse : parse t = n * factor

theorem exact_of_suffix {digits tail : Text} {factor : Nat} (all : Digits digits)
    (small : digitsValue digits < 2 ^ 53) (suffix : IsSuffix tail.untilNul factor)
    (fits : digitsValue digits * factor < 2 ^ 64) :
    Exact (digits ++ tail) (digitsValue digits) factor := by
  obtain ⟨numeral, read, bits, parsed⟩ := parse_digits all suffix.ends
  obtain ⟨k, rfl⟩ := suffix.power
  obtain ⟨positive, finite, value⟩ := naturalBits_spec small
  rw [← bits small] at positive finite value
  have below : (digitsValue digits : ℚ) * 2 ^ k < 2 ^ 64 := by exact_mod_cast fits
  have within : Format.double.times (magnitude numeral.bits) (2 ^ k) ≠ Format.double.infinity := by
    intro infinite
    have large := Format.le_of_times_infinity infinite
    have inside : (2 : ℚ) ^ 64 ≤ 2 ^ 1024 := pow_le_pow_right₀ (by norm_num) (by norm_num)
    rw [value] at large
    exact absurd (large.trans_lt below) (not_lt.2 inside)
  have product : Format.double.value (Format.double.times (magnitude numeral.bits) (2 ^ k)) =
      (digitsValue digits * 2 ^ k : Nat) := by
    rw [Format.value_times within, value]
    push_cast
    rfl
  refine ⟨⟨numeral, read, value, by rw [product, Nat.cast_mul]⟩, ?_⟩
  have finite_product := Nat.lt_of_le_of_ne (Format.times_le_infinity _ _ _) within
  rw [parsed, suffix.multiplier, Option.elim_some, wholeBytes_eq, positive, Bool.false_or,
    if_neg (by simpa using finite), truncated, if_neg (Nat.not_le.2 finite_product), product,
    Nat.floor_natCast]
  exact if_pos fits

/-- What is behind the digits is no suffix. -/
theorem parse_eq_zero {digits rest : Text} {c : UInt8} (all : Digits digits) (seen : c ≠ 0)
    (ends : Ends (c :: rest.takeWhile (· != 0)))
    (noSuffix : multiplier? (c :: rest.takeWhile (· != 0)) = none) :
    parse (digits ++ c :: rest) = 0 := by
  have kept : Text.untilNul (c :: rest) = c :: rest.takeWhile (· != 0) :=
    List.takeWhile_cons_of_pos (by simpa using seen)
  obtain ⟨numeral, -, -, parsed⟩ := parse_digits all (kept ▸ ends)
  rw [parsed, kept, noSuffix, Option.elim_none]

theorem lowerByte_ne {c lower : UInt8} (isLower : c ≠ lower) (isUpper : c ≠ lower - 32) :
    lowerByte c ≠ lower := by
  unfold lowerByte
  split
  · rintro rfl
    simp at isUpper
  · exact isLower

/-- Decimal digits of a number below `2 ^ 53`, leading zeros included, stand for exactly that number
of units, if a suffix follows as a whole and the size is a 64-bit number: neither the reading nor
the product in doubles nor the truncation loses anything. Digits of any number are no size if a byte
follows that is part of no numeral and no suffix, or if anything follows a suffix. -/
theorem parse_exactly {digits : Text} {n : Nat} (all : Digits digits)
    (value : digitsValue digits = n) :
    (n < 2 ^ 53 → ∀ tail factor, IsSuffix tail.untilNul factor → n * factor < 2 ^ 64 →
      Exact (digits ++ tail) n factor) ∧
    (∀ c rest, c ≠ 0 → isDigit c = false → c ∉ (".eExX" : Text) → unit? c = none →
      parse (digits ++ c :: rest) = 0) ∧
    ∀ c rest, unit? c ≠ none → Text.untilNul rest ∉ [[], ("B" : Text), ("b" : Text)] →
      parse (digits ++ c :: rest) = 0 := by
  subst value
  refine ⟨fun small tail factor suffix fits => exact_of_suffix all small suffix fits,
    fun c rest seen other unread noUnit => ?_, fun c rest unit more => ?_⟩
  · have ends : Ends (c :: Text.untilNul rest) := by
      rintro _ ⟨⟩
      obtain ⟨point, e, E, x, X⟩ : c ≠ 46 ∧ c ≠ 101 ∧ c ≠ 69 ∧ c ≠ 120 ∧ c ≠ 88 := by
        have unread : c ∉ [46, 101, 69, 120, 88] := unread
        simpa using unread
      exact ⟨other, point, lowerByte_ne e E, lowerByte_ne x X⟩
    refine parse_eq_zero all seen ends ?_
    rw [multiplier?_cons, noUnit, ite_self]
  · obtain ⟨factor, unit⟩ := Option.ne_none_iff_exists'.1 unit
    obtain ⟨seen, outside⟩ := unit?_outside unit
    refine parse_eq_zero all seen (by rintro _ ⟨⟩; exact outside) ?_
    have more : Text.untilNul rest ∉ [[], [66], [98]] := more
    have notB : ¬ ((Text.untilNul rest).map upperByte = [] ∨
        (Text.untilNul rest).map upperByte = [66]) := by
      rintro (none | isB)
      · rw [List.map_eq_nil_iff.1 none] at more
        exact more (by decide)
      · obtain ⟨b, eq, upper⟩ := List.map_eq_singleton_iff.1 isB
        rw [upperByte_eq_iff (by decide), UInt8.toNat_inj] at upper
        rw [eq] at more
        obtain rfl | lower := upper
        · exact more (by decide)
        · obtain rfl : b = 98 := UInt8.toNat_inj.1 lower
          exact more (by decide)
    rw [multiplier?_cons]
    exact if_neg notB

/-- The greatest number that is admitted, with zeros in front and a NUL byte behind the suffix. A
blank or an `i` in the suffix is not. -/
theorem parse_exactly_greatest :
    let digits : Text := "009007199254740991"
    Digits digits ∧ digitsValue digits = 2 ^ 53 - 1 ∧
      Exact (digits ++ [107, 66, 0, 57]) (2 ^ 53 - 1) (2 ^ 10) ∧
      parse (digits ++ 32 :: "K") = 0 ∧ parse (digits ++ 75 :: "iB") = 0 := by
  intro digits
  have all : Digits digits := ⟨nofun, by decide +kernel⟩
  have value : digitsValue digits = 2 ^ 53 - 1 := by decide +kernel
  obtain ⟨exact, outside, behind⟩ := parse_exactly all value
  have suffix : IsSuffix (Text.untilNul [107, 66, 0, 57]) (2 ^ 10) := .bytes rfl (.inl rfl)
  exact ⟨all, value, exact (by decide) _ _ suffix (by decide),
    outside 32 _ (by decide) (by decide) (by decide) (by decide),
    behind 75 _ (by decide) (by decide)⟩

end SizeText
end ForwardIndex
