import ForwardIndex.Proofs.IntegerLines

/-!
# Columns line by line

A reader that takes one line after the other off a text and pushes its value onto a list of the
output, whatever the output held before. It comes to the values of a parsed column. The lines are
the pieces between newlines; they are read up to the first that stands for no value of the type,
which the failure names, and the lines of two texts are read one after the other.
-/
set_option autoImplicit false
namespace ForwardIndex

namespace Text

/-! ## Pieces between newlines -/

/-- What stands between newlines; behind the last newline only if there is something. -/
def pieces (t : Text) : List Text :=
  let all := t.splitOn 10
  if all.getLast? = some [] then all.dropLast else all

theorem lines_eq_pieces (t : Text) : t.lines = t.pieces := by
  induction t with
  | nil => rfl
  | cons c t ih =>
    obtain ⟨first, more, split⟩ := List.exists_cons_of_ne_nil (List.splitOn_ne_nil 10 t)
    have grown : (c :: t).splitOn 10 =
        if c = 10 then [] :: first :: more else (c :: first) :: more := by
      rw [List.splitOn_eq_splitOnP] at split
      simp [List.splitOn_eq_splitOnP, List.splitOnP_cons_eq_if_modifyHead, split]
    by_cases newline : c = 10
    · have next : lines (c :: t) = [] :: lines t := newline ▸ rfl
      rw [next, ih]
      simp only [pieces, split, grown, if_pos newline]
      split_ifs <;> simp_all
    · rw [lines_cons newline, ih]
      simp only [pieces, split, grown, if_neg newline]
      cases more with
      | nil => cases first <;> simp
      | cons second more => simp only [List.getLast?_cons_cons]; split_ifs <;> simp

/-- The bytes before the next newline or the end, and those behind it; `none` at the end. -/
def getLine? (t : Text) : Option (Text × Text) :=
  if t = [] then none else some (t.takeWhile (· != 10), (t.dropWhile (· != 10)).tail)

theorem length_getLine? {t line rest : Text} (found : getLine? t = some (line, rest)) :
    rest.length < t.length := by
  simp only [getLine?, Option.ite_none_left_eq_some, Option.some.injEq, Prod.mk.injEq] at found
  obtain ⟨some, -, rfl⟩ := found
  have := List.length_pos_iff.2 some
  have := (t.dropWhile_suffix (· != 10)).length_le
  rw [List.length_tail]
  omega

theorem lines_eq_getLine? (t : Text) :
    t.lines = match getLine? t with
      | none => []
      | some (line, rest) => line :: rest.lines := by
  have single : 10 ∉ t.takeWhile (· != 10) := fun known => by
    simpa using List.mem_takeWhile_imp known
  have whole := t.takeWhile_append_dropWhile (p := (· != 10))
  have stop := List.head?_dropWhile_not (· != 10) t
  unfold getLine?
  split_ifs with none
  · rw [none]
    rfl
  · cases left : t.dropWhile (· != 10) with
    | nil =>
      rw [left, List.append_nil] at whole
      rw [whole] at single ⊢
      rw [lines_last single, if_neg none]
      rfl
    | cons c rest =>
      rw [left] at stop whole
      obtain rfl : c = 10 := by simpa using stop
      conv_lhs => rw [← whole, lines_append_newline single]
      rfl

/-- A newline ends the lines before it. -/
theorem lines_append (s t : Text) : lines (s ++ [10] ++ t) = lines (s ++ [10]) ++ lines t := by
  -- There is a first line, which a byte in front belongs to on both sides.
  obtain ⟨first, rest, alone, both⟩ :
      ∃ first rest, lines (s ++ [10]) = first :: rest ∧
        lines (s ++ [10] ++ t) = first :: rest ++ lines t := by
    induction s with
    | nil => exact ⟨[], [], rfl, rfl⟩
    | cons c s ih =>
      obtain ⟨first, rest, alone, both⟩ := ih
      by_cases newline : c = 10
      · subst newline
        exact ⟨[], first :: rest, congrArg ([] :: ·) alone, congrArg ([] :: ·) both⟩
      · refine ⟨c :: first, rest, ?_, ?_⟩
        · rw [List.cons_append, lines_cons newline, alone]
        · rw [List.cons_append, List.cons_append, lines_cons newline, both]
          rfl
  rw [alone, both]

/-! ## Hexadecimal text -/

/-- A byte string as hexadecimal text, in letters of either case. -/
def IsHex (t : Text) (bytes : List UInt8) : Prop := t.map lowerByte = toHex bytes

theorem hexDigit?_eq_some {c : UInt8} {d : Nat} :
    hexDigit? c = some d ↔ d < 16 ∧ lowerByte c = hexDigit d := by
  have bound := c.toNat_lt
  have lower : (lowerByte c).toNat =
      if 65 ≤ c.toNat ∧ c.toNat ≤ 90 then c.toNat + 32 else c.toNat := by
    simp only [lowerByte, Bool.and_eq_true, decide_eq_true_eq, UInt8.le_iff_toNat_le,
      UInt8.reduceToNat]
    split_ifs
    · simp
      omega
    · rfl
  have digit (small : d < 16) : (hexDigit d).toNat = if d < 10 then 48 + d else 87 + d := by
    unfold hexDigit
    split_ifs <;> simp <;> omega
  simp only [hexDigit?, UInt8.le_iff_toNat_le, UInt8.reduceToNat]
  rw [← UInt8.toNat_inj, lower]
  constructor
  · intro found
    have small : d < 16 := by grind
    rw [digit small]
    grind
  · rintro ⟨small, equal⟩
    rw [digit small] at equal
    grind

/-- Two digits make a byte exactly where they are its halves. -/
theorem ofNat_halves {high low : Nat} (h : high < 16) (l : low < 16) {b : UInt8} :
    UInt8.ofNat (16 * high + low) = b ↔ high = b.toNat / 16 ∧ low = b.toNat % 16 := by
  rw [← UInt8.toNat_inj, UInt8.toNat_ofNat_of_lt' (by show _ < 256; omega)]
  omega

theorem ofHex?_eq_some {t : Text} {bytes : List UInt8} :
    ofHex? t = some bytes ↔ IsHex t bytes := by
  unfold IsHex
  fun_induction ofHex? t generalizing bytes with
  | case1 => cases bytes <;> simp [toHex]
  | case2 => cases bytes <;> simp [toHex]
  | case3 a b r ih =>
    simp only [Option.bind_eq_bind, Option.bind_eq_some_iff, hexDigit?_eq_some, ih]
    cases bytes with
    | nil => simp [toHex]
    | cons byte bytes =>
      have small := byte.toNat_lt
      simp only [toHex, List.flatMap_cons, List.map_cons, List.cons_append, List.nil_append,
        List.cons.injEq, pure, Option.some.injEq]
      constructor
      · rintro ⟨high, ⟨h, first⟩, low, ⟨l, second⟩, rest, more, whole, rfl⟩
        obtain ⟨rfl, rfl⟩ := (ofNat_halves h l).1 whole
        exact ⟨first, second, more⟩
      · rintro ⟨first, second, more⟩
        have high : byte.toNat / 16 < 16 := by omega
        have low : byte.toNat % 16 < 16 := by omega
        have whole := (ofNat_halves high low).2 ⟨rfl, rfl⟩
        exact ⟨_, ⟨high, first⟩, _, ⟨low, second⟩, bytes, more, whole, rfl⟩

end Text

/-- The values of a type: numbers, floats and doubles as bits, strings and byte strings as bytes. -/
abbrev ColumnType.Value : ColumnType → Type
  | .int => Int32
  | .long => Int64
  | .float => UInt32
  | .double => UInt64
  | .string | .bytes => Text

namespace Column

open Binary (Numeral exceedsSingle narrow)

/-- The column of values of a type. -/
def of : (type : ColumnType) → List type.Value → Column
  | .int, values => .int values
  | .long, values => .long values
  | .float, values => .float values
  | .double, values => .double values
  | .string, values => .string values
  | .bytes, values => .bytes values

theorem of_injective {type : ColumnType} {values others : List type.Value}
    (same : of type values = of type others) : values = others := by
  cases type <;> cases same <;> rfl

/-! ## What a line stands for -/

/-- A text that is a numeral of a double as a whole, its value within range. -/
def IsDouble (t : Text) (bits : UInt64) : Prop := 0 ∉ t ∧ Numeral.read t = some ⟨bits, false, []⟩

/-- So is a float, if the double is in the range of singles. -/
def IsFloat (t : Text) (bits : UInt32) : Prop :=
  ∃ wide, IsDouble t wide ∧ exceedsSingle wide = false ∧ narrow wide = bits

/-- A line stands for a number if the number is all there is between the blanks at its ends, or if
a NUL byte stands right behind the number or, for zero, in front of everything. -/
def StandsFor {α : Type} (zero : α) (Is : Text → α → Prop) (line : Text) (v : α) : Prop :=
  Is line.trim v ∨
    ∃ value rest, line.trim = value ++ 0 :: rest ∧ (Is value v ∨ value = [] ∧ v = zero)

/-- The lines of a type and their values. A string is its line. -/
def Stands : (type : ColumnType) → Text → type.Value → Prop
  | .int, line, v => StandsFor 0 (fun t (n : Int32) => Text.Decimal t n.toInt) line v
  | .long, line, v => StandsFor 0 (fun t (n : Int64) => Text.Decimal t n.toInt) line v
  | .float, line, v => StandsFor 0 IsFloat line v
  | .double, line, v => StandsFor 0 IsDouble line v
  | .string, line, v => line = v
  | .bytes, line, v => Text.IsHex line.trim v

theorem not_isDouble_nil {bits : UInt64} : ¬ IsDouble [] bits := by
  rintro ⟨-, read⟩
  cases read

/-- The numeral must fill a text up to its first NUL byte if something stands before that. -/
theorem toColumnDouble?_cons {c : UInt8} (seen : c ≠ 0) {t : Text} {bits : UInt64} :
    Numeral.toColumnDouble? (c :: t) = some bits ↔ IsDouble (Text.untilNul (c :: t)) bits := by
  have free : 0 ∉ Text.untilNul (c :: t) := fun known => by
    simpa using List.mem_takeWhile_imp known
  unfold Numeral.toColumnDouble? IsDouble
  split
  · simp_all
  · simp_all
  · split <;> simp_all

theorem toColumnDouble?_eq_some {t : Text} {bits : UInt64} :
    Numeral.toColumnDouble? t = some bits ↔ IsDouble t bits ∨
      ∃ value rest, t = value ++ 0 :: rest ∧ (IsDouble value bits ∨ value = [] ∧ bits = 0) := by
  cases t with
  | nil => simp [Numeral.toColumnDouble?, not_isDouble_nil]
  | cons c t =>
    by_cases nul : c = 0
    · subst nul
      simp only [Numeral.toColumnDouble?, Option.some.injEq]
      constructor
      · rintro rfl
        exact .inr ⟨[], t, rfl, .inr ⟨rfl, rfl⟩⟩
      · -- No numeral is empty or has a NUL byte in it, so the zero is all that is left.
        rintro (⟨free, -⟩ | ⟨value, rest, eq, ⟨free, read⟩ | ⟨-, rfl⟩⟩)
        · exact absurd List.mem_cons_self free
        · cases value with
          | nil => exact absurd ⟨free, read⟩ not_isDouble_nil
          | cons d value =>
            cases eq
            exact absurd List.mem_cons_self free
        · rfl
    · rw [toColumnDouble?_cons nul, Text.holds_untilNul (IsDouble · bits) And.left]
      grind

/-- An integer of a width as the column reader takes it off a line. -/
theorem standsFor_integer {α : Type} {bits : Nat} {value? : Text → Option α} {toInt : α → Int}
    (injective : Function.Injective toInt) {zero : α} (toInt_zero : toInt zero = 0)
    (range : ∀ n, Text.InRange bits (toInt n))
    (reads : ∀ t, (value? t).map toInt = t.toColumnInteger? bits) {line : Text} {n : α} :
    value? line.trim = some n ↔ StandsFor zero (fun t n => Text.Decimal t (toInt n)) line n := by
  have taken : value? line.trim = some n ↔ line.trim.toColumnInteger? bits = some (toInt n) := by
    rw [← reads]
    exact (Option.map_injective injective).eq_iff.symm
  have isZero : toInt n = 0 ↔ n = zero := by rw [← toInt_zero, injective.eq_iff]
  rw [taken, Text.toColumnInteger?_trim, Text.alone_iff, Text.cutShort_iff, isZero]
  exact and_iff_right (range n)

theorem standsFor_float {line : Text} {bits : UInt32} :
    float? line.trim = some bits ↔ StandsFor 0 IsFloat line bits := by
  have taken : float? line.trim = some bits ↔ ∃ wide, StandsFor 0 IsDouble line wide ∧
      exceedsSingle wide = false ∧ narrow wide = bits := by
    unfold StandsFor
    simp only [← toColumnDouble?_eq_some]
    unfold float? double?
    split <;> simp_all
  rw [taken]
  constructor
  · rintro ⟨wide, whole | ⟨value, rest, eq, whole | ⟨none, rfl⟩⟩, within, rfl⟩
    · exact .inl ⟨wide, whole, within, rfl⟩
    · exact .inr ⟨value, rest, eq, .inl ⟨wide, whole, within, rfl⟩⟩
    · exact .inr ⟨value, rest, eq, .inr ⟨none, by decide⟩⟩
  · rintro (⟨wide, whole, within⟩ | ⟨value, rest, eq, ⟨wide, whole, within⟩ | ⟨none, rfl⟩⟩)
    · exact ⟨wide, .inl whole, within⟩
    · exact ⟨wide, .inr ⟨value, rest, eq, .inl whole⟩, within⟩
    · exact ⟨0, .inr ⟨value, rest, eq, .inr ⟨none, rfl⟩⟩, by decide⟩

/-- The value of a line, its carriage return gone. -/
def value? : (type : ColumnType) → Text → Option type.Value
  | .int, line => int? line.trim
  | .long, line => long? line.trim
  | .float, line => float? line.trim
  | .double, line => double? line.trim
  | .string, line => some line
  | .bytes, line => Text.ofHex? line.trim

theorem value?_eq_some {type : ColumnType} {line : Text} {v : type.Value} :
    value? type line = some v ↔ Stands type line v := by
  cases type with
  | int =>
    exact standsFor_integer (fun _ _ => Int32.toInt_inj.1) rfl
      (fun n => ⟨n.le_toInt, n.toInt_lt⟩) int?_toInt
  | long =>
    exact standsFor_integer (fun _ _ => Int64.toInt_inj.1) rfl
      (fun n => ⟨n.le_toInt, n.toInt_lt⟩) long?_toInt
  | float => exact standsFor_float
  | double => exact toColumnDouble?_eq_some
  | string => exact Option.some_inj
  | bytes => exact Text.ofHex?_eq_some

/-! ## An output of lists -/

/-- A type and a list for every kind of value; strings and byte strings share one. -/
structure Lists where
  type : ColumnType
  ints : List Int32
  longs : List Int64
  floats : List UInt32
  doubles : List UInt64
  bytes : List Text
  deriving DecidableEq

namespace Lists

/-- A column as lists, all but the one of its type empty. -/
def ofColumn : Column → Lists
  | .int values => ⟨.int, values, [], [], [], []⟩
  | .long values => ⟨.long, [], values, [], [], []⟩
  | .float values => ⟨.float, [], [], values, [], []⟩
  | .double values => ⟨.double, [], [], [], values, []⟩
  | .string values => ⟨.string, [], [], [], [], values⟩
  | .bytes values => ⟨.bytes, [], [], [], [], values⟩

theorem ofColumn_injective {c d : Column} (same : ofColumn c = ofColumn d) : c = d := by
  cases c <;> cases d <;> cases same <;> rfl

/-- Emptied for a type. -/
def reset (out : Lists) (type : ColumnType) : Lists :=
  { out with type := type, ints := [], longs := [], floats := [], doubles := [], bytes := [] }

/-- Pushes values onto the list of their type. -/
def append (out : Lists) : Column → Lists
  | .int values => { out with ints := out.ints ++ values }
  | .long values => { out with longs := out.longs ++ values }
  | .float values => { out with floats := out.floats ++ values }
  | .double values => { out with doubles := out.doubles ++ values }
  | .string values | .bytes values => { out with bytes := out.bytes ++ values }

theorem append_nil (out : Lists) (type : ColumnType) : out.append (of type []) = out := by
  cases type <;> simp [append, of]

theorem append_append (out : Lists) {type : ColumnType} (values more : List type.Value) :
    (out.append (of type values)).append (of type more) = out.append (of type (values ++ more)) := by
  cases type <;> simp [append, of]

theorem reset_append (out : Lists) {type : ColumnType} (values : List type.Value) :
    (out.reset type).append (of type values) = ofColumn (of type values) := by
  cases type <;> rfl

end Lists

/-- Reads lines off a text into the output, `number` of them read before. -/
def fill (type : ColumnType) (source : Text) (number : Nat) (text : Text) (out : Lists) :
    Outcome × Lists :=
  match _found : text.getLine? with
  | none => (.ok (), out)
  | some (line, rest) =>
    match value? type line.dropReturn with
    | none => (.error (.invalidValue source (number + 1) type line.dropReturn.trim), out)
    | some v => fill type source (number + 1) rest (out.append (of type [v]))
termination_by text.length
decreasing_by exact Text.length_getLine? _found

/-- Reads a text into an output, which is emptied first. -/
def parseInto (type : ColumnType) (source text : Text) (out : Lists) : Outcome × Lists :=
  fill type source 0 text (out.reset type)

/-- Reading changed lines is reading with the change in front of every line. -/
theorem readLines_map {α : Type} (f : Text → Text) (value? : Text → Option α) (number : Nat)
    (lines : List Text) :
    readLines value? number (lines.map f) =
      let read := readLines (value? ∘ f) number lines
      (read.1, read.2.map (Prod.map id f)) := by
  induction lines generalizing number with
  | nil => rfl
  | cons line lines ih =>
    simp only [List.map_cons, readLines, Function.comp_apply, ih]
    cases value? (f line) with
    | none => rfl
    | some v => rfl

/-- Where every line has a value the values are those of the lines. -/
theorem readLines_all {α : Type} {value? : Text → Option α} (number : Nat) {lines : List Text}
    {values : List α} (all : List.Forall₂ (fun line v => value? line = some v) lines values) :
    readLines value? number lines = (values, none) := by
  induction all generalizing number with
  | nil => rfl
  | cons found all ih => simp only [readLines, found, ih]

theorem parse_eq (type : ColumnType) (source text : Text) :
    let read := readLines (value? type) 1 (text.lines.map Text.dropReturn)
    parse type source text =
      (verdict source type (read.2.map (Prod.map id Text.trim)), of type read.1) := by
  cases type with
  | string =>
    have all : List.Forall₂ (fun line v => value? .string line = some v)
        (text.lines.map Text.dropReturn) (text.lines.map Text.dropReturn) :=
      List.forall₂_same.2 fun _ _ => rfl
    simp only [readLines_all 1 all]
    rfl
  | _ =>
    simp only [parse, readLines_map]
    rfl

theorem fill_eq (type : ColumnType) (source : Text) (number : Nat) (text : Text) (out : Lists) :
    let read := readLines (value? type) (number + 1) (text.lines.map Text.dropReturn)
    fill type source number text out =
      (verdict source type (read.2.map (Prod.map id Text.trim)), out.append (of type read.1)) := by
  fun_induction fill type source number text out with
  | case1 number text out none =>
    simp only [Text.lines_eq_getLine? text, none]
    exact Prod.ext rfl (out.append_nil type).symm
  | case2 number text out line rest found none =>
    simp only [Text.lines_eq_getLine? text, found, List.map_cons, readLines, none]
    exact Prod.ext rfl (out.append_nil type).symm
  | case3 number text out line rest found v value ih =>
    simp only [Text.lines_eq_getLine? text, found, List.map_cons, readLines, value]
    rw [ih, Lists.append_append]
    rfl

/-- Reading into an output comes to the parsed column, whatever the output held. -/
theorem parseInto_eq (type : ColumnType) (source text : Text) (out : Lists) :
    parseInto type source text out =
      ((parse type source text).1, .ofColumn (parse type source text).2) := by
  rw [parseInto, fill_eq, parse_eq, Lists.reset_append]

/-! ## Lines read one after the other -/

theorem verdict_ok {source : Text} {type : ColumnType} {bad : Option (Nat × Text)}
    (ok : verdict source type bad = .ok ()) : bad = none := by
  cases bad with
  | none => rfl
  | some bad => cases ok

theorem parseInto_ok {type : ColumnType} {source text : Text} {out : Lists}
    {values : List type.Value} :
    parseInto type source text out = (.ok (), .ofColumn (of type values)) ↔
      List.Forall₂ (Stands type) (text.lines.map Text.dropReturn) values := by
  rw [parseInto_eq, parse_eq]
  constructor
  · intro read
    obtain ⟨ok, filled⟩ := Prod.mk.inj read
    have none := Option.map_eq_none_iff.1 (verdict_ok ok)
    obtain ⟨good, rest, eq, all, ⟨rfl, -⟩ | ⟨bad, more, -, -, stopped⟩⟩ :=
      readLines_spec (value? type) 1 (text.lines.map Text.dropReturn)
    · rw [of_injective (Lists.ofColumn_injective filled)] at all
      rw [eq, List.append_nil]
      exact all.imp fun _ _ => value?_eq_some.1
    · rw [stopped] at none
      cases none
  · intro stands
    rw [readLines_all 1 (stands.imp fun _ _ => value?_eq_some.2)]
    rfl

/-- An output is emptied, then filled with the values of the lines up to the first that stands for
no value of the type. If there is such a line, the failure has its number, counted from one. A text
that a newline ends, with another one behind it, has the values of both if neither fails. -/
theorem parseInto_lines (type : ColumnType) (source : Text) :
    (∀ text out,
      let lines := text.pieces.map Text.dropReturn
      let read := parseInto type source text out
      ∃ good rest values, lines = good ++ rest ∧ List.Forall₂ (Stands type) good values ∧
        read.2 = .ofColumn (of type values) ∧ parse type source text = (read.1, of type values) ∧
        ((rest = [] ∧ read.1 = .ok ()) ∨
          ∃ bad more e, rest = bad :: more ∧ (∀ v, ¬ Stands type bad v) ∧ read.1 = .error e ∧
            e.kind = .configuration ∧
            e.message = source ++ ":" ++ Text.ofNat (good.length + 1) ++ ": invalid " ++
              type.name ++ " value '" ++ bad.trim ++ "'")) ∧
    ∀ first second out out₁ out₂ values more,
      parseInto type source (first ++ [10]) out₁ = (.ok (), .ofColumn (of type values)) →
      parseInto type source second out₂ = (.ok (), .ofColumn (of type more)) →
      parseInto type source (first ++ [10] ++ second) out =
        (.ok (), .ofColumn (of type (values ++ more))) := by
  constructor
  · intro text out lines read
    -- The running reader and the loop both come to `readLines` over the pieces.
    obtain ⟨good, rest, eq, all, finish⟩ := readLines_spec (value? type) 1 lines
    have parsed := parse_eq type source text
    rw [Text.lines_eq_pieces] at parsed
    have filled : read = _ := parseInto_eq type source text out
    rw [parsed] at filled
    rw [parsed, filled]
    refine ⟨good, rest, _, eq, all.imp fun _ _ => value?_eq_some.1, rfl, rfl, ?_⟩
    obtain ⟨done, none⟩ | ⟨bad, more, eq, refused, stopped⟩ := finish
    · refine .inl ⟨done, ?_⟩
      show verdict source type (Option.map _ (readLines (value? type) 1 lines).2) = _
      rw [none]
      rfl
    · refine .inr ⟨bad, more, .invalidValue source (good.length + 1) type bad.trim, eq,
        fun v stands => ?_, ?_, rfl, rfl⟩
      · rw [value?_eq_some.2 stands] at refused
        cases refused
      · show verdict source type (Option.map _ (readLines (value? type) 1 lines).2) = _
        rw [stopped, Nat.add_comm]
        rfl
  · intro first second out out₁ out₂ values more taken taken'
    rw [parseInto_ok] at taken taken' ⊢
    rw [Text.lines_append, List.map_append]
    exact List.rel_append taken taken'

/-- A stale output, and a text of four lines: a number and a carriage return, a number that a NUL
byte cuts short, which is no decimal text, a sign alone, and a number that is not reached. Then two
texts of one number. -/
theorem parseInto_lines_stale :
    let stale : Lists := ⟨.bytes, [9], [], [], [], [[104, 105]]⟩
    let read := parseInto .int "in" [49, 13, 10, 55, 0, 120, 10, 43, 10, 50] stale
    let both := parseInto .int "in" ([49] ++ [10] ++ [45, 50, 32]) stale
    read.2 = ⟨.int, [1, 7], [], [], [], []⟩ ∧ Stands .int [55, 0, 120] 7 ∧
      (∀ n, ¬ Text.Decimal [55, 0, 120] n) ∧
      (∃ e, read.1 = .error e ∧ e.message = "in:3: invalid INT value '+'") ∧
      both = (.ok (), ⟨.int, [1, -2], [], [], [], []⟩) := by
  intro stale read both
  have filled : read.2 = ⟨.int, [1, 7], [], [], [], []⟩ := by
    simp only [read, parseInto_eq]
    decide +kernel
  have first : parseInto .int "in" ([49] ++ [10]) stale = (.ok (), .ofColumn (of .int [1])) := by
    rw [parseInto_eq]
    decide +kernel
  have second : parseInto .int "in" [45, 50, 32] stale = (.ok (), .ofColumn (of .int [-2])) := by
    rw [parseInto_eq]
    decide +kernel
  obtain ⟨each, append⟩ := parseInto_lines .int "in"
  obtain ⟨good, rest, values, eq, all, column, -, finish⟩ :=
    each [49, 13, 10, 55, 0, 120, 10, 43, 10, 50] stale
  obtain rfl : values = [1, 7] := of_injective (Lists.ofColumn_injective (column.symm.trans filled))
  match good, all with
  | [one, short], .cons _ (.cons cut .nil) =>
    have lines : (Text.pieces [49, 13, 10, 55, 0, 120, 10, 43, 10, 50]).map Text.dropReturn =
      [[49], [55, 0, 120], [43], [50]] := by decide
    rw [lines] at eq
    obtain ⟨rfl, rfl, rfl⟩ : one = [49] ∧ short = [55, 0, 120] ∧ rest = [[43], [50]] := by
      simpa [eq_comm] using eq
    obtain ⟨none, -⟩ | ⟨bad, more, e, eq, -, failed, -, message⟩ := finish
    · cases none
    · cases eq
      refine ⟨filled, cut, fun n decimal => (decimal.solid.2 0 (by decide)).2 rfl,
        ⟨e, failed, message.trans (by decide +kernel)⟩, ?_⟩
      exact append [49] [45, 50, 32] stale stale stale [1] [-2] first second

end Column
end ForwardIndex
