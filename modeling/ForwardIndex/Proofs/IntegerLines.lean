import ForwardIndex.Column.Reader
import Mathlib.Algebra.Ring.Int.Defs
import Mathlib.Data.List.DropRight
import Mathlib.Data.List.Forall2

/-!
# Columns of integers

Which lines stand for an integer: a sign or none, decimal digits, blanks around them, and a value
that the width holds. A NUL byte ends what is read of a line, so a line also counts where an integer
stands before its first NUL, and as zero where nothing does. A column of integers is read up to the
first line that is none of these.
-/
set_option autoImplicit false
namespace ForwardIndex

namespace Text

/-! ## Lines -/

/-- A byte other than a newline belongs to the first line. -/
theorem lines_cons {c : UInt8} (other : c ≠ 10) (t : Text) :
    lines (c :: t) = match lines t with
      | [] => [[c]]
      | l :: rest => (c :: l) :: rest := by
  rw [lines, List.foldr_cons, consByte.eq_def, if_neg other]
  rfl

theorem lines_append_newline {l : Text} (single : 10 ∉ l) (t : Text) :
    lines (l ++ 10 :: t) = l :: lines t := by
  induction l with
  | nil => rfl
  | cons c l ih =>
    have single : c ≠ 10 ∧ 10 ∉ l := by simpa [eq_comm] using single
    rw [List.cons_append, lines_cons single.1, ih single.2]

theorem lines_last {l : Text} (single : 10 ∉ l) : lines l = if l = [] then [] else [l] := by
  induction l with
  | nil => rfl
  | cons c l ih =>
    have single : c ≠ 10 ∧ 10 ∉ l := by simpa [eq_comm] using single
    rw [lines_cons single.1, ih single.2]
    by_cases none : l = []
    · simp [none]
    · simp [none]

/-- Lines, and a last piece that no newline ends, are split off again. -/
theorem lines_unlines {ls : List Text} {last : Text} (single : ∀ l ∈ ls, 10 ∉ l)
    (open' : 10 ∉ last) :
    lines (unlines ls ++ last) = ls ++ if last = [] then [] else [last] := by
  induction ls with
  | nil => exact lines_last open'
  | cons l ls ih =>
    have ih := ih fun other known => single other (List.mem_cons_of_mem _ known)
    rw [List.cons_append, ← ih, ← lines_append_newline (single l List.mem_cons_self)]
    simp [unlines]

/-- A text is cut at the first of its separators: what stands before it has none. -/
theorem cut_iff {separator : UInt8} {t before after : Text} :
    (t.takeWhile (· != separator) = before ∧ ∃ c, t.dropWhile (· != separator) = c :: after) ↔
      t = before ++ [separator] ++ after ∧ separator ∉ before := by
  constructor
  · rintro ⟨rfl, c, left⟩
    have stop := List.head?_dropWhile_not (· != separator) t
    rw [left] at stop
    obtain rfl : c = separator := by simpa using stop
    refine ⟨?_, fun known => by simpa using List.mem_takeWhile_imp known⟩
    rw [List.append_assoc, List.singleton_append, ← left, List.takeWhile_append_dropWhile]
  · rintro ⟨rfl, free⟩
    have others : ∀ c ∈ before, (c != separator) = true := fun c known => by
      simpa using ne_of_mem_of_not_mem known free
    rw [List.append_assoc, List.takeWhile_append_of_pos others,
      List.dropWhile_append_of_pos others]
    simp

/-! ## Integers -/

/-- The number that decimal digits stand for, the highest first. -/
def digitsValue (t : Text) : Nat := t.foldl (fun n c => 10 * n + (c.toNat - 48)) 0

theorem decimalValue_eq (t : Text) : decimalValue t = digitsValue t := by
  simp only [decimalValue, digitsValue, ofDigits_eq_foldr, List.foldr_map, List.foldr_reverse,
    Nat.add_comm]

/-- One digit or more, and nothing else. -/
structure Digits (t : Text) : Prop where
  some : t ≠ []
  all : ∀ c ∈ t, isDigit c

/-- Decimal text of an integer: a sign or none, then digits. -/
inductive Decimal : Text → Int → Prop
  | unsigned {t : Text} (digits : Digits t) : Decimal t (digitsValue t)
  | plus {t : Text} (digits : Digits t) : Decimal (43 :: t) (digitsValue t)
  | minus {t : Text} (digits : Digits t) : Decimal (45 :: t) (-digitsValue t)

/-- Neither a blank nor a NUL byte. -/
def Solid (c : UInt8) : Prop := isBlank c = false ∧ c ≠ 0

instance (c : UInt8) : Decidable (Solid c) := inferInstanceAs (Decidable (_ ∧ _))

theorem solid_of_isDigit {c : UInt8} (digit : isDigit c) : Solid c := by
  simp only [isDigit, Bool.and_eq_true, decide_eq_true_eq, UInt8.le_iff_toNat_le,
    UInt8.reduceToNat] at digit
  simp only [Solid, isBlank, Bool.or_eq_false_iff, Bool.and_eq_false_iff, decide_eq_false_iff_not,
    beq_eq_false_iff_ne, ne_eq, ← UInt8.toNat_inj, UInt8.le_iff_toNat_le, UInt8.reduceToNat]
  omega

theorem Decimal.solid {t : Text} {n : Int} (h : Decimal t n) : t ≠ [] ∧ ∀ c ∈ t, Solid c := by
  have digit {t : Text} (digits : Digits t) : ∀ c ∈ t, Solid c :=
    fun c known => solid_of_isDigit (digits.all c known)
  cases h with
  | unsigned digits => exact ⟨digits.some, digit digits⟩
  | plus digits => exact ⟨nofun, List.forall_mem_cons.2 ⟨by decide, digit digits⟩⟩
  | minus digits => exact ⟨nofun, List.forall_mem_cons.2 ⟨by decide, digit digits⟩⟩

theorem digit_spec {d : Nat} (small : d < 10) : isDigit (digit d) ∧ (digit d).toNat - 48 = d := by
  revert d
  decide

/-- The decimal text of a number consists of digits that stand for it. -/
theorem digits_ofNat (n : Nat) : Digits (ofNat n) ∧ digitsValue (ofNat n) = n := by
  fun_induction ofNat n with
  | case1 n small =>
    obtain ⟨isDigit, value⟩ := digit_spec small
    exact ⟨⟨nofun, by simpa using isDigit⟩, by simp [digitsValue, value]⟩
  | case2 n large ih =>
    obtain ⟨isDigit, value⟩ := digit_spec (Nat.mod_lt n (show 0 < 10 by omega))
    obtain ⟨⟨some, all⟩, ih⟩ := ih
    refine ⟨⟨by simp, ?_⟩, ?_⟩
    · intro c known
      obtain before | last := List.mem_append.1 known
      · exact all c before
      · rw [List.mem_singleton.1 last]
        exact isDigit
    · unfold digitsValue at ih ⊢
      rw [List.foldl_append, ih, List.foldl_cons, List.foldl_nil, value]
      omega

/-- Digits of a known value, behind a sign or none. -/
theorem decimal_of_digits {t : Text} {n : Nat} (digits : Digits t) (value : digitsValue t = n) :
    Decimal t n ∧ Decimal (43 :: t) n ∧ Decimal (45 :: t) (-n) := by
  subst value
  exact ⟨.unsigned digits, .plus digits, .minus digits⟩

theorem decimal_ofInt (n : Int) : Decimal (ofInt n) n := by
  cases n with
  | ofNat n =>
    obtain ⟨digits, value⟩ := digits_ofNat n
    exact (decimal_of_digits digits value).1
  | negSucc n =>
    obtain ⟨digits, value⟩ := digits_ofNat (n + 1)
    exact (decimal_of_digits digits value).2.2

/-- Digits up to the end are taken whole. -/
theorem digits_iff {t : Text} :
    Digits t ↔ t.takeWhile isDigit ≠ [] ∧ t.dropWhile isDigit = [] := by
  constructor
  · intro digits
    rw [List.takeWhile_eq_self_iff.2 digits.all]
    exact ⟨digits.some, List.dropWhile_eq_nil_iff.2 digits.all⟩
  · rintro ⟨some, done⟩
    have all := List.dropWhile_eq_nil_iff.1 done
    rw [List.takeWhile_eq_self_iff.2 all] at some
    exact ⟨some, all⟩

theorem Digits.takeWhile {t : Text} (digits : Digits t) : t.takeWhile isDigit = t :=
  List.takeWhile_eq_self_iff.2 digits.all

/-- Digits do not start with a sign. -/
theorem Digits.readSign {t : Text} (digits : Digits t) : readSign t = (false, t) := by
  fun_cases Text.readSign t with
  | case1 r => exact absurd (digits.all 43 List.mem_cons_self) (by decide)
  | case2 r => exact absurd (digits.all 45 List.mem_cons_self) (by decide)
  | case3 => rfl

theorem decimal_iff {value : Text} {n : Int} :
    Decimal value n ↔ Digits (readSign value).2 ∧
      (if (readSign value).1 then -(digitsValue (readSign value).2 : Int)
        else digitsValue (readSign value).2) = n := by
  constructor
  · intro h
    cases h with
    | unsigned digits => simp [digits.readSign, digits]
    | plus digits => simp [readSign, digits]
    | minus digits => simp [readSign, digits]
  · fun_cases readSign value with
    | case1 r => exact fun ⟨digits, value⟩ => value ▸ .plus digits
    | case2 r => exact fun ⟨digits, value⟩ => value ▸ .minus digits
    | case3 => exact fun ⟨digits, value⟩ => value ▸ .unsigned digits

/-- An integer takes a whole text exactly where decimal text stands behind the blanks. -/
theorem readInteger_eq_some {t : Text} {n : Int} :
    readInteger t = some (n, []) ↔ Decimal (t.dropWhile isBlank) n := by
  rw [decimal_iff, digits_iff]
  simp only [readInteger, Option.ite_none_left_eq_some, Option.some.injEq, Prod.mk.injEq,
    decimalValue_eq]
  constructor
  · rintro ⟨some, value, done⟩
    rw [(digits_iff.2 ⟨some, done⟩).takeWhile] at value
    exact ⟨⟨some, done⟩, value⟩
  · rintro ⟨⟨some, done⟩, value⟩
    rw [(digits_iff.2 ⟨some, done⟩).takeWhile]
    exact ⟨(digits_iff.2 ⟨some, done⟩).some, value, done⟩

/-! ## Blanks at the ends -/

theorem trim_decompose (t : Text) :
    ∃ left right, t = left ++ trim t ++ right ∧ (∀ c ∈ left, isBlank c) ∧
      ∀ c ∈ right, isBlank c := by
  refine ⟨t.takeWhile isBlank, (t.dropWhile isBlank).rtakeWhile isBlank, ?_,
    fun c known => List.mem_takeWhile_imp known, fun c known => List.mem_rtakeWhile_imp known⟩
  have right : trim t ++ (t.dropWhile isBlank).rtakeWhile isBlank = t.dropWhile isBlank :=
    List.rdropWhile_append_rtakeWhile
  rw [List.append_assoc, right, List.takeWhile_append_dropWhile]

theorem trimRight_append_cons {c : UInt8} (solid : isBlank c = false) (a b : Text) :
    trimRight (a ++ c :: b) = a ++ c :: trimRight b := by
  have kept : (c :: a.reverse).dropWhile isBlank = c :: a.reverse :=
    List.dropWhile_cons_of_neg (by simp [solid])
  by_cases blank : b.reverse.dropWhile isBlank = []
  · simp [trimRight, List.dropWhile_append, kept, blank]
  · simp [trimRight, List.dropWhile_append, blank]

theorem trim_append {left : Text} (blank : ∀ c ∈ left, isBlank c) {c : UInt8}
    (solid : isBlank c = false) (t : Text) : trim (left ++ c :: t) = trimRight (c :: t) := by
  rw [trim, List.dropWhile_append_of_pos blank, List.dropWhile_cons_of_neg (by simp [solid])]

/-- Blanks around bytes that are none are dropped. -/
theorem trim_solid {left value right : Text} (before : ∀ c ∈ left, isBlank c)
    (after : ∀ c ∈ right, isBlank c) (some : value ≠ []) (solid : ∀ c ∈ value, Solid c) :
    trim (left ++ value ++ right) = value := by
  obtain ⟨first, more, rfl⟩ := List.exists_cons_of_ne_nil some
  obtain ⟨init, last, eq⟩ := (List.eq_nil_or_concat' (first :: more)).resolve_left some
  have gone : trimRight right = [] := List.rdropWhile_eq_nil_iff.2 after
  rw [List.append_assoc, List.cons_append, trim_append before (solid first List.mem_cons_self).1,
    ← List.cons_append, eq, List.append_assoc, List.singleton_append,
    trimRight_append_cons (solid last (by simp [eq])).1, gone]

/-- What stands before a NUL byte is kept up to it. -/
theorem trim_nul {left value : Text} (before : ∀ c ∈ left, isBlank c)
    (solid : ∀ c ∈ value, Solid c) (rest : Text) :
    trim (left ++ value ++ 0 :: rest) = value ++ 0 :: trimRight rest := by
  rw [← trimRight_append_cons rfl, List.append_assoc]
  cases value with
  | nil => exact trim_append before rfl rest
  | cons first more => exact trim_append before (solid first List.mem_cons_self).1 _

/-! ## Integers alone on a line -/

/-- What a width of so many bits holds. -/
def InRange (bits : Nat) (n : Int) : Prop := -2 ^ (bits - 1) ≤ n ∧ n < 2 ^ (bits - 1)

/-- An integer alone on its line, with blanks around it or none. -/
def Alone (line : Text) (n : Int) : Prop :=
  ∃ left value right, line = left ++ value ++ right ∧ (∀ c ∈ left, isBlank c) ∧
    (∀ c ∈ right, isBlank c) ∧ Decimal value n

/-- A line that is cut short by a NUL byte right behind an integer or, for zero, behind nothing. -/
def CutShort (line : Text) (n : Int) : Prop :=
  ∃ left value rest, line = left ++ value ++ 0 :: rest ∧ (∀ c ∈ left, isBlank c) ∧
    (Decimal value n ∨ value = [] ∧ n = 0)

theorem alone_iff {line : Text} {n : Int} : Alone line n ↔ Decimal (trim line) n := by
  constructor
  · rintro ⟨left, value, right, rfl, before, after, decimal⟩
    rwa [trim_solid before after decimal.solid.1 decimal.solid.2]
  · intro decimal
    obtain ⟨left, right, eq, before, after⟩ := trim_decompose line
    exact ⟨left, trim line, right, eq, before, after, decimal⟩

theorem cutShort_iff {line : Text} {n : Int} :
    CutShort line n ↔ ∃ value rest, trim line = value ++ 0 :: rest ∧
      (Decimal value n ∨ value = [] ∧ n = 0) := by
  constructor
  · rintro ⟨left, value, rest, rfl, before, number⟩
    have solid : ∀ c ∈ value, Solid c := by
      obtain decimal | ⟨rfl, -⟩ := number
      · exact decimal.solid.2
      · exact nofun
    exact ⟨value, trimRight rest, trim_nul before solid rest, number⟩
  · rintro ⟨value, rest, trimmed, number⟩
    obtain ⟨left, right, eq, before, -⟩ := trim_decompose line
    exact ⟨left, value, rest ++ right, by rw [eq, trimmed]; simp, before, number⟩

theorem toInteger?_eq_some {bits : Nat} {t : Text} {n : Int} :
    toInteger? bits t = some n ↔ Decimal (t.untilNul.dropWhile isBlank) n ∧ InRange bits n := by
  rw [← readInteger_eq_some, InRange]
  have bound : ((1 <<< (bits - 1) : Nat) : Int) = 2 ^ (bits - 1) := by
    rw [Nat.one_shiftLeft]
    push_cast
    rfl
  unfold toInteger?
  split
  · next m read =>
    simp [read, bound]
    grind
  · next other =>
    simp
    intro read
    exact absurd read (other n)

/-- No blank stands at the start of a trimmed text. -/
theorem isBlank_trim {t rest : Text} {c : UInt8} (trimmed : trim t = c :: rest) :
    isBlank c = false := by
  have start := List.head?_dropWhile_not isBlank t
  unfold trim at trimmed
  generalize t.dropWhile isBlank = u at start trimmed
  cases u with
  | nil => cases trimmed
  | cons d u =>
    have kept := trimRight_append_cons start [] u
    rw [List.nil_append, List.nil_append, trimmed] at kept
    cases kept
    exact start

theorem untilNul_append {value : Text} (free : 0 ∉ value) (rest : Text) :
    untilNul (value ++ 0 :: rest) = value := by
  unfold untilNul
  rw [List.takeWhile_append_of_pos fun c known => by simpa using ne_of_mem_of_not_mem known free]
  simp

/-- A text goes up to its first NUL byte or to its end. -/
theorem untilNul_cases (t : Text) : t = t.untilNul ∨ ∃ rest, t = t.untilNul ++ 0 :: rest := by
  induction t with
  | nil => exact .inl rfl
  | cons c t ih =>
    by_cases nul : c = 0
    · exact .inr ⟨t, by simp [untilNul, nul]⟩
    · have first : untilNul (c :: t) = c :: untilNul t := by simp [untilNul, nul]
      rw [first]
      simpa using ih

/-- A property of texts without NUL bytes holds of what stands before the first one if and only if
it holds of the whole text or of a part that a NUL byte ends. -/
theorem holds_untilNul (Is : Text → Prop) (free : ∀ {value}, Is value → 0 ∉ value) {t : Text} :
    Is t.untilNul ↔ Is t ∨ ∃ value rest, t = value ++ 0 :: rest ∧ Is value := by
  constructor
  · intro holds
    obtain eq | ⟨rest, eq⟩ := untilNul_cases t
    · exact .inl (eq ▸ holds)
    · exact .inr ⟨_, rest, eq, holds⟩
  · rintro (holds | ⟨value, rest, rfl, holds⟩)
    · rwa [untilNul_eq_self (free holds)]
    · rwa [untilNul_append (free holds)]

theorem inRange_zero (bits : Nat) : InRange bits 0 := by
  have : (0 : Int) < 2 ^ (bits - 1) := Int.pow_pos (by decide)
  unfold InRange
  omega

theorem inRange_of_toColumnInteger? {bits : Nat} {t : Text} {n : Int}
    (taken : toColumnInteger? bits t = some n) : InRange bits n := by
  fun_cases toColumnInteger? bits t with
  | case1 => cases taken
  | case2 rest =>
    cases taken
    exact inRange_zero bits
  | case3 none nul =>
    simp only [toColumnInteger?] at taken
    exact (toInteger?_eq_some.1 taken).2

/-- What the column reader makes of a text that does not start with a blank. -/
theorem toColumnInteger?_eq_some {bits : Nat} {t : Text} {n : Int}
    (start : ∀ c rest, t = c :: rest → isBlank c = false) :
    toColumnInteger? bits t = some n ↔
      InRange bits n ∧ (Decimal t.untilNul n ∨ (∃ rest, t = 0 :: rest) ∧ n = 0) := by
  have nothing {n : Int} : ¬ Decimal [] n := fun h => h.solid.1 rfl
  cases t with
  | nil => simp [toColumnInteger?, untilNul, nothing]
  | cons c t =>
    by_cases nul : c = 0
    · subst nul
      have before : untilNul (0 :: t) = [] := rfl
      simp only [toColumnInteger?, before, nothing, Option.some.injEq]
      constructor
      · rintro rfl
        exact ⟨inRange_zero bits, .inr ⟨⟨t, rfl⟩, rfl⟩⟩
      · rintro ⟨-, impossible | ⟨-, rfl⟩⟩
        · exact impossible.elim
        · rfl
    · have first : untilNul (c :: t) = c :: untilNul t := by simp [untilNul, nul]
      have whole : toColumnInteger? bits (c :: t) = toInteger? bits (c :: t) := by
        simp [toColumnInteger?, nul]
      rw [whole, toInteger?_eq_some, first,
        List.dropWhile_cons_of_neg (by simp [start c t rfl])]
      simp [nul, and_comm]

/-- The column reader takes a line for an integer exactly where one stands alone on it, or where a
NUL byte cuts it short. -/
theorem toColumnInteger?_trim {bits : Nat} {line : Text} {n : Int} :
    toColumnInteger? bits (trim line) = some n ↔
      InRange bits n ∧ (Alone line n ∨ CutShort line n) := by
  have free {t : Text} (decimal : Decimal t n) : 0 ∉ t := fun known =>
    (decimal.solid.2 0 known).2 rfl
  rw [alone_iff, cutShort_iff, toColumnInteger?_eq_some fun c rest => isBlank_trim,
    holds_untilNul (Decimal · n) free]
  generalize trim line = t
  apply and_congr_right
  intro range
  constructor
  · rintro ((decimal | ⟨value, rest, rfl, decimal⟩) | ⟨⟨rest, rfl⟩, rfl⟩)
    · exact .inl decimal
    · exact .inr ⟨value, rest, rfl, .inl decimal⟩
    · exact .inr ⟨[], rest, rfl, .inr ⟨rfl, rfl⟩⟩
  · rintro (decimal | ⟨value, rest, rfl, decimal | ⟨rfl, rfl⟩⟩)
    · exact .inl (.inl decimal)
    · exact .inl (.inr ⟨value, rest, rfl, decimal⟩)
    · exact .inr ⟨⟨rest, rfl⟩, rfl⟩

end Text

namespace Column

/-! ## Reading a column -/

/-- Reading goes through the lines that have a value and ends at the first that has none. -/
theorem readLines_spec {α : Type} (value? : Text → Option α) (number : Nat) (lines : List Text) :
    ∃ good rest, lines = good ++ rest ∧
      List.Forall₂ (fun line v => value? line = some v) good (readLines value? number lines).1 ∧
      ((rest = [] ∧ (readLines value? number lines).2 = none) ∨
        ∃ bad more, rest = bad :: more ∧ value? bad = none ∧
          (readLines value? number lines).2 = some (number + good.length, bad)) := by
  induction lines generalizing number with
  | nil => exact ⟨[], [], rfl, .nil, .inl ⟨rfl, rfl⟩⟩
  | cons line lines ih =>
    cases found : value? line with
    | none =>
      refine ⟨[], line :: lines, rfl, ?_, .inr ⟨line, lines, rfl, found, ?_⟩⟩
      · simp [readLines, found]
      · simp [readLines, found]
    | some v =>
      obtain ⟨good, rest, rfl, values, finish⟩ := ih (number + 1)
      refine ⟨line :: good, rest, rfl, ?_, ?_⟩
      · simpa [readLines, found] using values
      · obtain ⟨done, none⟩ | ⟨bad, more, eq, refused, stopped⟩ := finish
        · exact .inl ⟨done, by simpa [readLines, found] using none⟩
        · refine .inr ⟨bad, more, eq, refused, ?_⟩
          simpa [readLines, found, Nat.add_assoc, Nat.add_comm 1] using stopped

/-- A line that the column reader takes for an integer of a width: one alone on it, or one that a
NUL byte cuts short. -/
def TakenFor (bits : Nat) (line : Text) (n : Int) : Prop :=
  Text.InRange bits n ∧ (Text.Alone line.dropReturn n ∨ Text.CutShort line.dropReturn n)

/-- Lines are read as integers up to the first that is taken for none, which is refused. -/
theorem readLines_integers {α : Type} {bits : Nat} {value? : Text → Option α} {toInt : α → Int}
    (reads : ∀ t, (value? t).map toInt = t.toColumnInteger? bits) (source : Text)
    (type : ColumnType) (lines : List Text) :
    let read := readLines value? 1 ((lines.map Text.dropReturn).map Text.trim)
    ∃ good rest, lines = good ++ rest ∧ List.Forall₂ (TakenFor bits) good (read.1.map toInt) ∧
      ((rest = [] ∧ verdict source type read.2 = .ok ()) ∨
        ∃ bad more, rest = bad :: more ∧ (∀ n, ¬ TakenFor bits bad n) ∧
          ∃ e, verdict source type read.2 = .error e ∧ e.kind = .configuration) := by
  intro read
  obtain ⟨good, rest, eq, values, finish⟩ :=
    readLines_spec value? 1 ((lines.map Text.dropReturn).map Text.trim)
  rw [List.map_map, List.map_eq_append_iff] at eq
  obtain ⟨good, rest, rfl, rfl, rfl⟩ := eq
  have taken (line : Text) (n : Int) :
      (value? line.dropReturn.trim).map toInt = some n ↔ TakenFor bits line n := by
    rw [reads, Text.toColumnInteger?_trim]
    rfl
  refine ⟨good, rest, rfl, ?_, ?_⟩
  · rw [List.forall₂_map_right_iff]
    rw [List.forall₂_map_left_iff] at values
    refine values.imp fun line v found => (taken line (toInt v)).1 ?_
    simpa using congrArg (Option.map toInt) found
  · obtain ⟨done, none⟩ | ⟨bad, more, eq, refused, stopped⟩ := finish
    · exact .inl ⟨List.map_eq_nil_iff.1 done, congrArg (verdict source type) none⟩
    · rw [List.map_eq_cons_iff] at eq
      obtain ⟨bad, more, rfl, rfl, rfl⟩ := eq
      refine .inr ⟨bad, more, rfl, fun n => ?_, _, congrArg (verdict source type) stopped, rfl⟩
      have none : value? bad.dropReturn.trim = none := refused
      rw [← taken, none]
      nofun

theorem int?_toInt (t : Text) : (int? t).map Int32.toInt = t.toColumnInteger? 32 := by
  rw [int?, Option.map_map]
  cases found : t.toColumnInteger? 32 with
  | none => rfl
  | some n =>
    obtain ⟨least, most⟩ := Text.inRange_of_toColumnInteger? found
    exact congrArg some (Int32.toInt_ofInt_of_le (by omega) (by omega))

theorem long?_toInt (t : Text) : (long? t).map Int64.toInt = t.toColumnInteger? 64 := by
  rw [long?, Option.map_map]
  cases found : t.toColumnInteger? 64 with
  | none => rfl
  | some n =>
    obtain ⟨least, most⟩ := Text.inRange_of_toColumnInteger? found
    exact congrArg some (Int64.toInt_ofInt_of_le (by omega) (by omega))

/-- The types of integers, with the bits of their values. -/
inductive Integral : ColumnType → Nat → Prop
  | int : Integral .int 32
  | long : Integral .long 64

/-- The numbers in a column of integers. -/
def numbers : Column → List Int
  | int values => values.map Int32.toInt
  | long values => values.map Int64.toInt
  | _ => []

/-- A column of integers has the numbers of its lines up to the first that is taken for none. If
there is such a line the text is refused. -/
theorem parse_integral {type : ColumnType} {bits : Nat} (integral : Integral type bits)
    (source : Text) {ended : List Text} {last : Text} (single : ∀ line ∈ ended, 10 ∉ line)
    (unended : 10 ∉ last) :
    let lines := ended ++ if last = [] then [] else [last]
    let read := parse type source (Text.unlines ended ++ last)
    read.2.type = type ∧
      ∃ good rest, lines = good ++ rest ∧ List.Forall₂ (TakenFor bits) good read.2.numbers ∧
        ((rest = [] ∧ read.1 = .ok ()) ∨
          ∃ bad more, rest = bad :: more ∧ (∀ n, ¬ TakenFor bits bad n) ∧
            ∃ e, read.1 = .error e ∧ e.kind = .configuration) := by
  intro lines read
  have split : (Text.unlines ended ++ last).lines = lines := Text.lines_unlines single unended
  cases integral with
  | int =>
    simp only [read, parse, split]
    exact ⟨rfl, readLines_integers int?_toInt source .int lines⟩
  | long =>
    simp only [read, parse, split]
    exact ⟨rfl, readLines_integers long?_toInt source .long lines⟩

/-- Three lines: a number between blanks, one that a NUL byte cuts short, and a sign alone. The
second is taken for a number though none stands alone on it; the third is refused. -/
theorem parse_integral_cutShort :
    let lines : List Text := [[32, 45, 49, 50, 13], [55, 0, 120], [43]]
    let read := parse .int "in" (Text.unlines lines ++ [])
    read.2.numbers = [-12, 7] ∧ TakenFor 32 [55, 0, 120] 7 ∧
      (∀ n, ¬ Text.Alone [55, 0, 120] n) ∧ ∃ e, read.1 = .error e ∧ e.kind = .configuration := by
  intro lines read
  have single : ∀ line ∈ lines, 10 ∉ line := by decide
  have unended : 10 ∉ ([] : Text) := List.not_mem_nil
  obtain ⟨-, good, rest, eq, values, finish⟩ := parse_integral .int "in" single unended
  have numbers : read.2.numbers = [-12, 7] := by decide +kernel
  rw [numbers] at values
  match good, values with
  | [_, second], .cons _ (.cons cut .nil) =>
    obtain ⟨-, rfl, rfl⟩ : _ ∧ second = [55, 0, 120] ∧ rest = [[43]] := by
      simpa [lines, eq_comm] using eq
    refine ⟨numbers, cut, fun n alone => ?_, ?_⟩
    · exact absurd rfl ((Text.alone_iff.1 alone).solid.2 0 (by decide)).2
    · obtain ⟨none, -⟩ | ⟨bad, more, -, -, refused⟩ := finish
      · cases none
      · exact refused

end Column
end ForwardIndex
