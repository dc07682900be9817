import ForwardIndex.Binary.Format
import ForwardIndex.Text.Hex
import ForwardIndex.Text.Integer

/-!
# Numerals of doubles

The numeral at the start of a text: blanks, a sign, then a decimal fraction with an optional power
of ten, a hexadecimal fraction with an optional power of two, `inf`, `infinity` or `nan`, letters in
either case. The value is rounded once, from the exact quotient. A `nan` may carry a payload in
brackets, itself an integer in decimal, octal (`0…`) or hexadecimal (`0x…`) digits.
-/
set_option autoImplicit false
namespace ForwardIndex.Binary

/-- What a numeral says: the bits of its double, whether the value was out of range, and the text
after it. -/
structure Numeral where
  bits : UInt64
  outOfRange : Bool
  rest : Text

namespace Numeral

def isHexDigit (c : UInt8) : Bool := (Text.hexDigit? c).isSome

/-- Digits with at most one point among them: the digits before it, after it, and the rest. -/
def readFraction (isDigit : UInt8 → Bool) (t : Text) : Option (Text × Text × Text) :=
  let whole := t.takeWhile isDigit
  match t.dropWhile isDigit with
  | 46 :: r =>
    let part := r.takeWhile isDigit
    if whole = [] ∧ part = [] then none else some (whole, part, r.dropWhile isDigit)
  | r => if whole = [] then none else some (whole, [], r)

/-- A scale after its letter; without digits there is no scale, and nothing is taken. -/
def readScale (letter : UInt8) (t : Text) : Int × Text :=
  match t with
  | c :: r =>
    if Text.lowerByte c = letter then
      let (negative, body) := Text.readSign r
      let digits := body.takeWhile Text.isDigit
      if digits = [] then (0, t)
      else
        let n : Int := Text.decimalValue digits
        (if negative then -n else n, body.dropWhile Text.isDigit)
    else (0, t)
  | [] => (0, t)

/-- Decimal magnitudes beyond `10 ^ 400` or below its inverse are out of every format's range. -/
def decimalBound : Nat := 400

/-- Binary magnitudes beyond `2 ^ 2000` or below its inverse are out of every format's range. -/
def binaryBound : Nat := 2000

/-- `n · base ^ scale` as a quotient, where `order` is about the number of digits of `n` in that
base. A value far out of range is replaced by another one, so that no huge power is computed. -/
def scaled (base bound n order : Nat) (scale : Int) : Nat × Nat :=
  if scale + order < -(bound : Int) then (1, base.pow bound)
  else if (bound : Int) < scale + order then (base.pow bound, 1)
  else (n * base.pow scale.toNat, base.pow (-scale).toNat)

/-- The numeral of a magnitude `num / den`, whose digits are looked at down to a place. -/
def ofQuotient (negative : Bool) (place : Option Int) (num den : Nat) (rest : Text) : Numeral :=
  if num = 0 then ⟨signed negative 0, false, rest⟩
  else
    ⟨signed negative (Format.double.round num den), Format.double.isOutOfRange place num den, rest⟩

def readDecimal (negative : Bool) (t : Text) : Option Numeral := do
  let (whole, part, r) ← readFraction Text.isDigit t
  let (power, rest) := readScale 101 r
  let digits := (whole ++ part).dropWhile (· == 48)
  let place := some Format.double.decimalPlace
  if digits = [] then return ofQuotient negative place 0 1 rest
  let (num, den) := scaled 10 decimalBound (Text.decimalValue digits) digits.length
    (power - part.length)
  return ofQuotient negative place num den rest

def readHexadecimal (negative : Bool) (t : Text) : Option Numeral := do
  let (whole, part, r) ← readFraction isHexDigit t
  let (power, rest) := readScale 112 r
  let n := Text.valueIn 16 (whole ++ part)
  if n = 0 then return ofQuotient negative none 0 1 rest
  let (num, den) := scaled 2 binaryBound n n.log2 (power - 4 * part.length)
  return ofQuotient negative none num den rest

/-- What is left of a text after a word given in lower case. -/
def skipWord (word : Text) (t : Text) : Option Text :=
  if (t.take word.length).map Text.lowerByte = word then some (t.drop word.length) else none

/-- The value of an integer in a base, and whether digits of the base fill the whole text. -/
def payloadValue (base : Nat) (t : Text) : Nat × Bool :=
  let isDigit := fun c => match Text.hexDigit? c with
    | some d => d < base
    | none => false
  (Text.valueIn base (t.takeWhile isDigit), (t.dropWhile isDigit).isEmpty)

/-- The payload that the text between the brackets asks for, the base told by its first digits. -/
def readPayload (t : Text) : Nat × Bool :=
  match t with
  | 48 :: x :: d :: r =>
    if Text.lowerByte x = 120 ∧ isHexDigit d then payloadValue 16 (d :: r) else payloadValue 8 t
  | 48 :: _ => payloadValue 8 t
  | _ => payloadValue 10 t

def isPayloadByte (c : UInt8) : Bool :=
  Text.isDigit c || (97 ≤ Text.lowerByte c && Text.lowerByte c ≤ 122) || c == 95

/-- A NaN whose payload is the low 51 bits of a number; the quiet bit is always set. -/
def quiet (negative : Bool) (payload : Nat) : UInt64 :=
  signed negative (Format.double.quietNaN + payload % 1 <<< 51)

/-- A NaN after its word, with a payload if brackets follow and close. -/
def readNaN (negative : Bool) (t : Text) : Numeral :=
  match t with
  | 40 :: r =>
    match r.dropWhile isPayloadByte with
    | 41 :: rest =>
      let (value, whole) := readPayload (r.takeWhile isPayloadByte)
      ⟨quiet negative (if whole then value else 0), 0x10000000000000000 ≤ value, rest⟩
    | _ => ⟨quiet negative 0, false, t⟩
  | _ => ⟨quiet negative 0, false, t⟩

/-- The words for infinity and for no number. -/
def readWord (negative : Bool) (t : Text) : Option Numeral :=
  let infinite := fun rest => some ⟨signed negative Format.double.infinity, false, rest⟩
  match skipWord "infinity" t, skipWord "inf" t, skipWord "nan" t with
  | some rest, _, _ => infinite rest
  | none, some rest, _ => infinite rest
  | none, none, some rest => some (readNaN negative rest)
  | none, none, none => none

/-- A hexadecimal marker without digits after it leaves the zero in front of it as the numeral. -/
def readUnsigned (negative : Bool) (t : Text) : Option Numeral :=
  match t with
  | 48 :: x :: r =>
    if Text.lowerByte x = 120 then
      some ((readHexadecimal negative r).getD ⟨signed negative 0, false, x :: r⟩)
    else readDecimal negative t
  | _ => (readDecimal negative t).or (readWord negative t)

/-- The numeral at the start of a text, `none` where there is none. -/
def read (t : Text) : Option Numeral :=
  let (negative, body) := Text.readSign (t.dropWhile Text.isBlank)
  readUnsigned negative body

/-- A column value: the numeral must fill the text up to the first NUL byte and be in range. A text
that starts with a NUL byte counts as zero. -/
def toColumnDouble? (t : Text) : Option UInt64 :=
  match t with
  | [] => none
  | 0 :: _ => some 0
  | _ =>
    match read t.untilNul with
    | some ⟨bits, false, []⟩ => some bits
    | _ => none

end Numeral
end ForwardIndex.Binary
