import ForwardIndex.Proofs.ColumnLines

/-!
# Printed columns

Values that are printed one on a line are read back. An integer may have blanks around it, leading
zeros and a plus sign, hexadecimal text letters of either case, and a carriage return may stand in
front of a newline. The other way round, the byte strings that a text is read as have its lines,
without the blanks at their ends, as their hexadecimal text.
-/
set_option autoImplicit false
namespace ForwardIndex

namespace Text

/-! ## Printed integers -/

/-- Blanks that end no line. -/
def Padding (t : Text) : Prop := ∀ c ∈ t, isBlank c ∧ c ≠ 10

instance (t : Text) : Decidable (Padding t) := inferInstanceAs (Decidable (∀ c ∈ t, _))

/-- An integer in decimal with some zeros in front of its digits, and with a plus sign if asked for
and it is not negative. -/
def spell (plus : Bool) (zeros : Nat) : Int → Text
  | .ofNat n => (if plus then [43] else []) ++ (List.replicate zeros 48 ++ ofNat n)
  | .negSucc n => 45 :: (List.replicate zeros 48 ++ ofNat (n + 1))

/-- A line with nothing but a printed integer and padding. -/
def Spells (line : Text) (n : Int) : Prop :=
  ∃ left plus zeros right, line = left ++ spell plus zeros n ++ right ∧
    Padding left ∧ Padding right

theorem digits_zeros {t : Text} (digits : Digits t) (zeros : Nat) :
    Digits (List.replicate zeros 48 ++ t) ∧
      digitsValue (List.replicate zeros 48 ++ t) = digitsValue t := by
  induction zeros with
  | zero => exact ⟨digits, rfl⟩
  | succ zeros ih =>
    obtain ⟨⟨-, all⟩, value⟩ := ih
    -- A zero in front leaves the fold where it starts.
    exact ⟨⟨nofun, List.forall_mem_cons.2 ⟨by decide, all⟩⟩, value⟩

theorem decimal_spell (plus : Bool) (zeros : Nat) (n : Int) : Decimal (spell plus zeros n) n := by
  have padded (n : Nat) :
      let t := List.replicate zeros 48 ++ ofNat n
      Decimal t n ∧ Decimal (43 :: t) n ∧ Decimal (45 :: t) (-n) := by
    obtain ⟨digits, value⟩ := digits_ofNat n
    obtain ⟨all, same⟩ := digits_zeros digits zeros
    exact decimal_of_digits all (same.trans value)
  cases n with
  | ofNat n =>
    cases plus with
    | false => exact (padded n).1
    | true => exact (padded n).2.1
  | negSucc n => exact (padded (n + 1)).2.2

theorem Spells.alone {line : Text} {n : Int} (spells : Spells line n) : Alone line n := by
  obtain ⟨left, plus, zeros, right, rfl, before, after⟩ := spells
  exact ⟨left, _, right, rfl, fun c known => (before c known).1, fun c known => (after c known).1,
    decimal_spell plus zeros n⟩

theorem not_newline_of_solid {c : UInt8} (solid : Solid c) : c ≠ 10 := by
  rintro rfl
  exact absurd solid (by decide)

theorem Spells.single {line : Text} {n : Int} (spells : Spells line n) : 10 ∉ line := by
  obtain ⟨left, plus, zeros, right, rfl, before, after⟩ := spells
  have solid := (decimal_spell plus zeros n).solid.2
  simp only [List.mem_append, not_or]
  exact ⟨⟨fun known => (before 10 known).2 rfl,
    fun known => not_newline_of_solid (solid 10 known) rfl⟩, fun known => (after 10 known).2 rfl⟩

/-! ## Printed byte strings -/

theorem IsHex.solid {t : Text} {bytes : List UInt8} (hex : IsHex t bytes) : ∀ c ∈ t, Solid c := by
  intro c known
  have lower : lowerByte c ∈ toHex bytes := hex ▸ List.mem_map_of_mem known
  obtain ⟨d, digit⟩ : ∃ d, hexDigit? c = some d := by
    simp only [hexDigit?_eq_some]
    obtain ⟨byte, -, half⟩ := List.mem_flatMap.1 lower
    have small := byte.toNat_lt
    obtain high | low : lowerByte c = _ ∨ lowerByte c = _ := by simpa using half
    · exact ⟨_, by omega, high⟩
    · exact ⟨_, by omega, low⟩
  simp only [hexDigit?, UInt8.le_iff_toNat_le, UInt8.reduceToNat] at digit
  simp only [Solid, isBlank, Bool.or_eq_false_iff, Bool.and_eq_false_iff, decide_eq_false_iff_not,
    beq_eq_false_iff_ne, ne_eq, ← UInt8.toNat_inj, UInt8.le_iff_toNat_le, UInt8.reduceToNat]
  grind

theorem IsHex.trim {t : Text} {bytes : List UInt8} (hex : IsHex t bytes) : t.trim = t := by
  by_cases none : t = []
  · rw [none]
    rfl
  · have kept : Text.trim ([] ++ t ++ []) = t := trim_solid nofun nofun none hex.solid
    simpa using kept

/-! ## Carriage returns -/

theorem dropReturn_append (t : Text) : dropReturn (t ++ [13]) = t := by simp [dropReturn]

theorem trim_append_blank (t : Text) {c : UInt8} (blank : isBlank c) :
    trim (t ++ [c]) = trim t := by
  have right (u : Text) : trimRight (u ++ [c]) = trimRight u := by
    simp [trimRight, List.dropWhile_cons_of_pos blank]
  unfold trim
  rw [List.dropWhile_append]
  split_ifs with all
  · rw [List.isEmpty_iff.1 all, List.dropWhile_cons_of_pos blank]
    rfl
  · exact right _

/-- A carriage return is a blank too. -/
theorem trim_dropReturn (t : Text) : t.dropReturn.trim = t.trim := by
  unfold dropReturn
  split_ifs with last
  · obtain ⟨init, rfl⟩ := List.getLast?_eq_some_iff.1 last
    rw [List.dropLast_concat, trim_append_blank init (by decide)]
  · rfl

end Text

namespace Column

/-! ## Printed columns -/

/-- The lines that a value of a type is printed as: integers, byte strings and strings. -/
def Printed : (type : ColumnType) → Text → type.Value → Prop
  | .int, line, v => Text.Spells line v.toInt
  | .long, line, v => Text.Spells line v.toInt
  | .bytes, line, v => Text.IsHex line v
  | .string, line, v => line = v ∧ 10 ∉ v
  | .float, _, _ | .double, _, _ => False

/-- A printed line with its end. A string that ends in a carriage return needs one more. -/
inductive PrintedLine (type : ColumnType) : Text → type.Value → Prop
  | newline {line : Text} {v : type.Value} (printed : Printed type line v)
    (kept : type = .string → line.getLast? ≠ some 13) : PrintedLine type (line ++ [10]) v
  | returned {line : Text} {v : type.Value} (printed : Printed type line v) :
    PrintedLine type (line ++ [13, 10]) v

theorem Printed.single {type : ColumnType} {line : Text} {v : type.Value}
    (printed : Printed type line v) : 10 ∉ line := by
  cases type with
  | int | long => exact Text.Spells.single printed
  | float | double => exact printed.elim
  | string =>
    obtain ⟨rfl, single⟩ := printed
    exact single
  | bytes => exact fun known => Text.not_newline_of_solid (Text.IsHex.solid printed 10 known) rfl

theorem Printed.stands {type : ColumnType} {line : Text} {v : type.Value}
    (printed : Printed type line v) : Stands type line v := by
  cases type with
  | int | long => exact .inl (Text.alone_iff.1 (Text.Spells.alone printed))
  | float | double => exact printed.elim
  | string => exact printed.1
  | bytes =>
    show Text.IsHex line.trim v
    rwa [Text.IsHex.trim printed]

theorem stands_dropReturn {type : ColumnType} {line : Text} {v : type.Value}
    (kept : type = .string → line.getLast? ≠ some 13) :
    Stands type line.dropReturn v ↔ Stands type line v := by
  cases type with
  | string => rw [Text.dropReturn, if_neg (kept rfl)]
  | _ => simp only [Stands, StandsFor, Text.trim_dropReturn]

/-- A printed line is one line of a text, and it stands for its value. -/
theorem PrintedLine.stands {type : ColumnType} {line : Text} {v : type.Value}
    (printed : PrintedLine type line v) :
    ∃ body, line = body ++ [10] ∧ 10 ∉ body ∧ Stands type (Text.dropReturn body) v := by
  cases printed with
  | newline printed kept => exact ⟨_, rfl, printed.single, (stands_dropReturn kept).2 printed.stands⟩
  | @returned line _ printed =>
    refine ⟨line ++ [13], by simp, by simpa using printed.single, ?_⟩
    rw [Text.dropReturn_append]
    exact printed.stands

/-- The lines of printed values, in their order, stand for the values. -/
theorem forall₂_stands {type : ColumnType} {lines : List Text} {values : List type.Value}
    (all : List.Forall₂ (PrintedLine type) lines values) :
    List.Forall₂ (Stands type) ((Text.lines lines.flatten).map Text.dropReturn) values := by
  induction all with
  | nil => exact .nil
  | cons printed _ ih =>
    obtain ⟨body, rfl, single, stands⟩ := printed.stands
    rw [List.flatten_cons, List.append_assoc, List.singleton_append,
      Text.lines_append_newline single]
    exact .cons stands ih

theorem parseInto_ok_iff {type : ColumnType} {source text : Text} {out : Lists}
    {values : List type.Value} :
    parseInto type source text out = (.ok (), .ofColumn (of type values)) ↔
      parse type source text = (.ok (), of type values) := by
  rw [parseInto_eq, Prod.mk.injEq, Prod.ext_iff]
  exact and_congr_right fun _ => ⟨Lists.ofColumn_injective, congrArg _⟩

/-- What is read without a failure are values of the type. -/
theorem exists_of_parseInto_ok {type : ColumnType} {source text : Text} {out : Lists}
    (ok : (parseInto type source text out).1 = .ok ()) :
    ∃ values, parseInto type source text out = (.ok (), .ofColumn (of type values)) := by
  rw [parseInto_eq] at ok ⊢
  rw [parse_eq] at ok ⊢
  exact ⟨_, Prod.ext ok rfl⟩

/-- The hexadecimal text of byte strings is their lines in lower case, trimmed. -/
theorem map_toHex {lines : List Text} {values : List (List UInt8)}
    (stands : List.Forall₂ (Stands .bytes) (lines.map Text.dropReturn) values) :
    values.map Text.toHex = lines.map fun line => line.trim.map Text.lowerByte := by
  rw [List.forall₂_map_left_iff] at stands
  induction stands with
  | nil => rfl
  | @cons line v _ _ hex _ ih =>
    have hex : line.dropReturn.trim.map Text.lowerByte = Text.toHex v := hex
    rw [List.map_cons, List.map_cons, ih, ← hex, Text.trim_dropReturn]

/-- The lines of printed values are read without a failure, and as the values, whatever the output
held. A text that is read as byte strings has, for their hexadecimal text, its lines, trimmed and
in lower case. -/
theorem parseInto_printed (source : Text) (out : Lists) :
    (∀ (type : ColumnType) (lines : List Text) (values : List type.Value),
      List.Forall₂ (PrintedLine type) lines values →
      parseInto type source lines.flatten out = (.ok (), .ofColumn (of type values)) ∧
        parse type source lines.flatten = (.ok (), of type values)) ∧
    ∀ text, (parseInto .bytes source text out).1 = .ok () →
      ∃ values, parseInto .bytes source text out = (.ok (), .ofColumn (.bytes values)) ∧
        parse .bytes source text = (.ok (), .bytes values) ∧
        values.map Text.toHex = text.pieces.map fun line => line.trim.map Text.lowerByte := by
  constructor
  · intro type lines values all
    have read : parseInto type source lines.flatten out = _ := parseInto_ok.2 (forall₂_stands all)
    exact ⟨read, parseInto_ok_iff.1 read⟩
  · intro text ok
    obtain ⟨values, read⟩ := exists_of_parseInto_ok ok
    refine ⟨values, read, parseInto_ok_iff.1 read, ?_⟩
    rw [← Text.lines_eq_pieces]
    exact map_toHex (parseInto_ok.1 read)

/-- The least integer with padding and a carriage return, one with a plus sign and zeros; a string
that ends in a carriage return, and an empty one; byte strings, one of them empty, in letters of
both cases, with blanks around them. The output is stale every time. -/
theorem parseInto_printed_extremes :
    let stale : Lists := ⟨.bytes, [9], [], [], [], [[104, 105]]⟩
    let read := parseInto .bytes "in" "aB\n\n 0F\t\r\n" stale
    parseInto .int "in" (" -2147483648\t\r\n+007\n" : Text) stale =
        (.ok (), ⟨.int, [-2147483648, 7], [], [], [], []⟩) ∧
      parseInto .string "in" ("x\r\r\n\n" : Text) stale =
        (.ok (), ⟨.string, [], [], [], [], [("x\r" : Text), []]⟩) ∧
      ∃ values, read = (.ok (), ⟨.bytes, [], [], [], [], values⟩) ∧
        values.map Text.toHex = [("ab" : Text), [], ("0f" : Text)] := by
  intro stale read
  have least : PrintedLine .int ((" -2147483648\t" : Text) ++ [13, 10]) (-2147483648) :=
    .returned ⟨" ", false, 0, "\t", by decide +kernel, by decide +kernel, by decide +kernel⟩
  have seven : PrintedLine .int (("+007" : Text) ++ [10]) 7 :=
    .newline ⟨"", true, 2, "", by decide +kernel, by decide +kernel, by decide +kernel⟩ nofun
  have returned : PrintedLine .string (("x\r" : Text) ++ [13, 10]) ("x\r" : Text) :=
    .returned ⟨rfl, by decide +kernel⟩
  have empty : PrintedLine .string ([] ++ [10]) [] := .newline ⟨rfl, by decide⟩ (by decide)
  obtain ⟨printed, again⟩ := parseInto_printed "in" stale
  have ok : read.1 = .ok () := by
    simp only [read, parseInto_eq]
    decide +kernel
  obtain ⟨values, column, -, lines⟩ := again "aB\n\n 0F\t\r\n" ok
  refine ⟨?_, ?_, values, column, lines.trans (by decide +kernel)⟩
  · exact (printed .int _ _ (.cons least (.cons seven .nil))).1
  · exact (printed .string _ _ (.cons returned (.cons empty .nil))).1

end Column
end ForwardIndex
