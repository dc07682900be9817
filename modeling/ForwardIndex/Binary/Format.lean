import ForwardIndex.Text

/-!
# Binary floating-point formats

A format is a number of stored fraction bits and a number of exponent bits. `Format.round` is
rounding of an exact positive quotient to the nearest value of the format, a tie to the even
neighbour; its result is the bit pattern without the sign. Read as numbers, the patterns of a format
grow with the values they stand for, so a carry out of the fraction needs no case of its own.
-/
set_option autoImplicit false
namespace ForwardIndex.Binary

structure Format where
  fraction : Nat
  exponent : Nat

namespace Format

def single : Format := ⟨23, 8⟩

def double : Format := ⟨52, 11⟩

/-- The exponent of two of the least positive value. -/
def minUlp (f : Format) : Int := 2 - (1 <<< (f.exponent - 1) : Nat) - f.fraction

/-- The pattern of infinity. -/
def infinity (f : Format) : Nat := (1 <<< f.exponent - 1) <<< f.fraction

/-- The pattern of the quiet NaN without a payload. -/
def quietNaN (f : Format) : Nat := f.infinity + 1 <<< (f.fraction - 1)

/-- The sign bit. -/
def signBit (f : Format) : Nat := 1 <<< (f.fraction + f.exponent)

end Format

/-- The quotient rounded to the nearest natural number, a half to the even one. -/
def roundQuotient (num den : Nat) : Nat :=
  let q := num / den
  let r := num % den
  if 2 * r < den then q
  else if 2 * r > den then q + 1
  else if q % 2 = 0 then q else q + 1

/-- The exponent `e` with `2 ^ e ≤ num / den < 2 ^ (e + 1)`. -/
def binaryOrder (num den : Nat) : Int :=
  let guess : Int := (num.log2 : Int) - den.log2
  if num <<< (-guess).toNat < den <<< guess.toNat then guess - 1 else guess

/-- A quotient is a whole multiple of a power of two. -/
def isMultiple (exponent : Int) (num den : Nat) : Bool :=
  num <<< (-exponent).toNat % den <<< exponent.toNat = 0

namespace Format

/-- The exponent of two of the spacing of the format's values around a quotient. -/
def ulp (f : Format) (num den : Nat) : Int :=
  max (binaryOrder num den - f.fraction) f.minUlp

/-- The pattern nearest to a positive quotient. -/
def round (f : Format) (num den : Nat) : Nat :=
  let u := f.ulp num den
  let q := roundQuotient (num <<< (-u).toNat) (den <<< u.toNat)
  min ((u - f.minUlp).toNat <<< f.fraction + q) f.infinity

/-- A positive quotient stays below the least normal value even when it is rounded to the format's
precision with no lower end of the exponents. -/
def isTiny (f : Format) (num den : Nat) : Bool :=
  (4 * num) <<< (-f.minUlp).toNat < (1 <<< (f.fraction + 2) - 1) * den

/-- The place of the last bit that a reading of decimal digits looks at: a quarter of the least
value. -/
def decimalPlace (f : Format) : Int := f.minUlp - 2

/-- A tiny positive quotient keeps all bits that count. Those are the bits of the format's precision
and all from the second one behind it on; the first bit behind the precision does not count. Where
the digits are looked at down to a place only, everything below it counts. -/
def isKept (f : Format) (place : Option Int) (num den : Nat) : Bool :=
  let step := binaryOrder num den - f.fraction
  let half := match place with
    | none => step - 1
    | some p => max p (step - 1)
  let whole := num <<< (-step).toNat / den <<< step.toNat
  isMultiple half num den && whole % 1 <<< (f.minUlp - step).toNat = 0

/-- A positive quotient is out of range: too large, or tiny and not kept. -/
def isOutOfRange (f : Format) (place : Option Int) (num den : Nat) : Bool :=
  f.round num den = f.infinity || (f.isTiny num den && !f.isKept place num den)

/-- The magnitude of a finite pattern as a quotient. -/
def quotient (f : Format) (pattern : Nat) : Nat × Nat :=
  let e := pattern >>> f.fraction
  let m := pattern % 1 <<< f.fraction
  let u : Int := if e = 0 then f.minUlp else f.minUlp + (e - 1 : Nat)
  let s := if e = 0 then m else 1 <<< f.fraction + m
  (s <<< u.toNat, 1 <<< (-u).toNat)

end Format

/-- A double's bits without the sign. -/
def magnitude (bits : UInt64) : Nat := bits.toNat % Format.double.signBit

def isNegative (bits : UInt64) : Bool := Format.double.signBit ≤ bits.toNat

def isNaN (bits : UInt64) : Bool := Format.double.infinity < magnitude bits

/-- Puts a sign on a pattern of the double format. -/
def signed (negative : Bool) (pattern : Nat) : UInt64 :=
  UInt64.ofNat (if negative then Format.double.signBit + pattern else pattern)

/-- The largest finite single, as a pattern of the double format. -/
def largestSingle : Nat := 0x47EFFFFFE0000000

/-- A finite double beyond the range of singles. -/
def exceedsSingle (bits : UInt64) : Bool :=
  largestSingle < magnitude bits && magnitude bits < Format.double.infinity

/-- The nearest single of a double. A NaN stays quiet and keeps the high bits of its payload. -/
def narrow (bits : UInt64) : UInt32 :=
  let m := magnitude bits
  let pattern :=
    if Format.double.infinity < m then
      Format.single.quietNaN ||| ((m % 1 <<< 52) >>> 29)
    else if m = Format.double.infinity then Format.single.infinity
    else if m = 0 then 0
    else
      let (num, den) := Format.double.quotient m
      Format.single.round num den
  UInt32.ofNat (if isNegative bits then Format.single.signBit + pattern else pattern)

end ForwardIndex.Binary
