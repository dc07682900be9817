/-!
# Byte text

Names, paths, messages and column lines are lists of bytes; no encoding is assumed, and a byte may
be zero. A string literal stands for its UTF-8 bytes. Whitespace, digits and letter case are those
of ASCII, because the formats read here define them so.
-/
set_option autoImplicit false
namespace ForwardIndex

abbrev Text := List UInt8

namespace Text

/-- The UTF-8 bytes of a literal. -/
def lit (s : String) : Text := s.toUTF8.data.toList

instance : Coe String Text := ⟨lit⟩

/-- The part before the first NUL byte: what the system sees of a path, and a log line of an
argument. -/
def untilNul (t : Text) : Text := t.takeWhile (· != 0)

theorem untilNul_eq_self {t : Text} (free : 0 ∉ t) : t.untilNul = t := by
  induction t with
  | nil => rfl
  | cons c t ih =>
    simp only [List.mem_cons, not_or] at free
    have kept : (c != 0) = true := bne_iff_ne.2 (Ne.symm free.1)
    rw [untilNul, List.takeWhile_cons, if_pos kept]
    exact congrArg (c :: ·) (ih free.2)

def isBlank (c : UInt8) : Bool := c == 32 || (9 ≤ c && c ≤ 13)

def isDigit (c : UInt8) : Bool := 48 ≤ c && c ≤ 57

def upperByte (c : UInt8) : UInt8 := if 97 ≤ c && c ≤ 122 then c - 32 else c

def lowerByte (c : UInt8) : UInt8 := if 65 ≤ c && c ≤ 90 then c + 32 else c

def uppercase (t : Text) : Text := t.map upperByte

/-- Drops the blanks at the end. -/
def trimRight (t : Text) : Text := (t.reverse.dropWhile isBlank).reverse

/-- Drops the blanks at both ends. -/
def trim (t : Text) : Text := trimRight (t.dropWhile isBlank)

/-- Texts one after the other with a separator between them. -/
def joinWith (separator : Text) (ts : List Text) : Text := separator.intercalate ts

/-! ## Lines -/

/-- Puts a byte in front of a text that is already split into lines. -/
def consByte (c : UInt8) (ls : List Text) : List Text :=
  if c = 10 then [] :: ls
  else match ls with
    | [] => [[c]]
    | l :: rest => (c :: l) :: rest

/-- The lines of a text. A newline ends a line; a last piece without one counts unless empty. -/
def lines (t : Text) : List Text := t.foldr consByte []

/-- Texts as lines, each with a newline behind it. -/
def unlines (ls : List Text) : Text := ls.flatMap (· ++ [10])

/-- Removes one carriage return at the end. -/
def dropReturn (t : Text) : Text := if t.getLast? = some 13 then t.dropLast else t

/-! ## Decimal text -/

def digit (d : Nat) : UInt8 := UInt8.ofNat (48 + d)

/-- The decimal digits of a number, without leading zeros. -/
def ofNat (n : Nat) : Text :=
  if n < 10 then [digit n] else ofNat (n / 10) ++ [digit (n % 10)]

/-- Decimal text with a minus sign in front of a negative number. -/
def ofInt : Int → Text
  | .ofNat n => ofNat n
  | .negSucc n => 45 :: ofNat (n + 1)

end Text
end ForwardIndex
