import ForwardIndex.Binary.Numeral

/-!
# Byte sizes

A size is a numeral with an optional letter `K`, `M` or `G` for a power of 1024 and an optional `B`
after the letter. What cannot be read, or is negative, is size zero.
-/
set_option autoImplicit false
namespace ForwardIndex.SizeText
open Binary

/-- The factor of a suffix, `none` if the suffix is none. -/
def multiplier? (suffix : Text) : Option Nat :=
  match suffix.map Text.upperByte with
  | [] => some 1
  | [75] | [75, 66] => some 1024
  | [77] | [77, 66] => some (1024 * 1024)
  | [71] | [71, 66] => some (1024 * 1024 * 1024)
  | _ => none

/-- The whole number of bytes in a double times a factor; zero if that is no 64-bit number. -/
def wholeBytes (bits : UInt64) (factor : Nat) : Nat :=
  if isNegative bits || Format.double.infinity ≤ magnitude bits then 0
  else
    let (num, den) := Format.double.quotient (magnitude bits)
    let n := num * factor / den
    if n < 0x10000000000000000 then n else 0

/-- The number of bytes that a text stands for. -/
def parse (t : Text) : Nat :=
  match Numeral.read t.untilNul with
  | none => 0
  | some numeral =>
    match multiplier? numeral.rest with
    | none => 0
    | some factor => wholeBytes numeral.bits factor

end ForwardIndex.SizeText
