import ForwardIndex.Text.Digits

/-!
# Hexadecimal text

Two digits a byte, in either case.
-/
set_option autoImplicit false
namespace ForwardIndex.Text

def hexDigit? (c : UInt8) : Option Nat :=
  if 48 ≤ c ∧ c ≤ 57 then some (c.toNat - 48)
  else if 97 ≤ c ∧ c ≤ 102 then some (c.toNat - 87)
  else if 65 ≤ c ∧ c ≤ 70 then some (c.toNat - 55)
  else none

/-- The value of a text of digits in a base of at most sixteen. -/
def valueIn (base : Nat) (t : Text) : Nat :=
  ofDigits base (t.reverse.map fun c => (hexDigit? c).getD 0)

/-- The bytes that a hexadecimal text stands for; `none` for an odd length or a foreign byte. -/
def ofHex? : Text → Option (List UInt8)
  | [] => some []
  | [_] => none
  | a :: b :: r => do
    let hi ← hexDigit? a
    let lo ← hexDigit? b
    let rest ← ofHex? r
    return UInt8.ofNat (16 * hi + lo) :: rest

/-- The lower-case digit of a number below sixteen. -/
def hexDigit (n : Nat) : UInt8 := if n < 10 then UInt8.ofNat (48 + n) else UInt8.ofNat (87 + n)

def toHex (bytes : List UInt8) : Text :=
  bytes.flatMap fun b => [hexDigit (b.toNat / 16), hexDigit (b.toNat % 16)]

end ForwardIndex.Text
