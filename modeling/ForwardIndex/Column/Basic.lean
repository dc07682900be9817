import ForwardIndex.Bytes
import ForwardIndex.ColumnType

/-!
# Columns

The values of a column in document order. Floats and doubles are kept as their bits. A fixed-width
value has a big-endian form of its width; strings and byte strings are their own bytes.
-/
set_option autoImplicit false
namespace ForwardIndex

/-- A value of a fixed width. -/
inductive FixedValue where
  | int (v : Int32)
  | long (v : Int64)
  | float (bits : UInt32)
  | double (bits : UInt64)
  deriving DecidableEq

namespace FixedValue

/-- The stored form of a value. -/
def bytes : FixedValue → List UInt8
  | int v => Bytes.word32 v.toUInt32
  | long v => Bytes.word64 v.toUInt64
  | float bits => Bytes.word32 bits
  | double bits => Bytes.word64 bits

/-- The width of the stored form. -/
def width : FixedValue → Nat
  | int _ | float _ => 4
  | long _ | double _ => 8

@[simp] theorem length_bytes (v : FixedValue) : v.bytes.length = v.width := by
  cases v <;> rfl

end FixedValue

/-- A column: its values in the form of its type. -/
inductive Column where
  | int (values : List Int32)
  | long (values : List Int64)
  | float (values : List UInt32)
  | double (values : List UInt64)
  | string (values : List Text)
  | bytes (values : List Text)
  deriving DecidableEq

namespace Column

def type : Column → ColumnType
  | int _ => .int
  | long _ => .long
  | float _ => .float
  | double _ => .double
  | string _ => .string
  | bytes _ => .bytes

def size : Column → Nat
  | int vs => vs.length
  | long vs => vs.length
  | float vs => vs.length
  | double vs => vs.length
  | string vs => vs.length
  | bytes vs => vs.length

/-- The two ways in which values are stored. -/
inductive Stored where
  | fixed (values : List FixedValue)
  | varying (values : List Text)

def stored : Column → Stored
  | int vs => .fixed (vs.map .int)
  | long vs => .fixed (vs.map .long)
  | float vs => .fixed (vs.map .float)
  | double vs => .fixed (vs.map .double)
  | string vs => .varying vs
  | bytes vs => .varying vs

/-- The stored form of every value, in order. -/
def entries (c : Column) : List Text :=
  match c.stored with
  | .fixed values => values.map FixedValue.bytes
  | .varying values => values

/-- The column of a type without values. -/
def empty : ColumnType → Column
  | .int => int []
  | .long => long []
  | .float => float []
  | .double => double []
  | .string => string []
  | .bytes => bytes []

end Column
end ForwardIndex
