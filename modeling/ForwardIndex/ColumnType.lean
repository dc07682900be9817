import ForwardIndex.Text

/-!
# Column types

The six types of a single-value column. Four have values of a fixed width; strings and byte strings
vary in length.
-/
set_option autoImplicit false
namespace ForwardIndex

inductive ColumnType where
  | int
  | long
  | float
  | double
  | string
  | bytes
  deriving DecidableEq, Repr

namespace ColumnType

def all : List ColumnType := [int, long, float, double, string, bytes]

def name : ColumnType → Text
  | int => "INT"
  | long => "LONG"
  | float => "FLOAT"
  | double => "DOUBLE"
  | string => "STRING"
  | bytes => "BYTES"

/-- The stored width of a value in bytes; zero where it varies. -/
def width : ColumnType → Nat
  | int | float => 4
  | long | double => 8
  | string | bytes => 0

def isFixedWidth (t : ColumnType) : Bool := t.width != 0

/-- The number that stands for a type. -/
def number : ColumnType → Nat
  | int => 0
  | long => 1
  | float => 2
  | double => 3
  | string => 4
  | bytes => 5

def ofNumber? (n : Nat) : Option ColumnType := all.find? (·.number == n)

/-- The type of a name in letters of either case. -/
def ofName? (t : Text) : Option ColumnType := all.find? (·.name == t.uppercase)

/-- The name shown for a number, whether a type has it or not. -/
def nameOfNumber (n : Nat) : Text :=
  match ofNumber? n with
  | some t => t.name
  | none => "UNKNOWN"

end ColumnType
end ForwardIndex
