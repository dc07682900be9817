import ForwardIndex.Text.Digits

/-!
# Reading decimal integers

`readInteger` takes the longest integer at the start of a text: blanks, a sign, digits. It has no
bounds of its own. The two readers built on it differ in what they do where there are no digits: a
column value stands for zero if the system would see nothing at all, an option is refused.
-/
set_option autoImplicit false
namespace ForwardIndex.Text

/-- Splits a sign off; `true` is negative. -/
def readSign : Text → Bool × Text
  | 43 :: r => (false, r)
  | 45 :: r => (true, r)
  | t => (false, t)

/-- The integer at the start of a text and what follows it, `none` where no digit stands. -/
def readInteger (t : Text) : Option (Int × Text) :=
  let (negative, body) := readSign (t.dropWhile isBlank)
  let digits := body.takeWhile isDigit
  if digits = [] then none
  else
    let n : Int := decimalValue digits
    some (if negative then -n else n, body.dropWhile isDigit)

/-- A whole text as an integer of `bits` bits in two's complement, cut at the first NUL byte. -/
def toInteger? (bits : Nat) (t : Text) : Option Int :=
  match readInteger t.untilNul with
  | some (n, []) =>
    let bound : Int := (1 <<< (bits - 1) : Nat)
    if -bound ≤ n ∧ n < bound then some n else none
  | _ => none

/-- A column value: as `toInteger?`, but a text that starts with a NUL byte counts as zero. -/
def toColumnInteger? (bits : Nat) (t : Text) : Option Int :=
  match t with
  | [] => none
  | 0 :: _ => some 0
  | _ => toInteger? bits t

end ForwardIndex.Text
