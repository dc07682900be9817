import ForwardIndex.Binary.Numeral
import ForwardIndex.Column.Basic
import ForwardIndex.Failure
import ForwardIndex.Volume.Operations

/-!
# Reading columns

A column text has one value per line. A string is its line as it is; every other value stands alone
on its line, blanks around it left aside. Reading stops at the first line that is no value of the
type, and the values before it are kept.
-/
set_option autoImplicit false
namespace ForwardIndex.Column

/-- The values of lines up to the first that is none; that line and its number, if there is one. -/
def readLines {α : Type} (value? : Text → Option α) (number : Nat) :
    List Text → List α × Option (Nat × Text)
  | [] => ([], none)
  | line :: rest =>
    match value? line with
    | none => ([], some (number, line))
    | some v =>
      let (values, bad) := readLines value? (number + 1) rest
      (v :: values, bad)

def int? (t : Text) : Option Int32 := (t.toColumnInteger? 32).map Int32.ofInt

def long? (t : Text) : Option Int64 := (t.toColumnInteger? 64).map Int64.ofInt

def double? (t : Text) : Option UInt64 := Binary.Numeral.toColumnDouble? t

/-- A double that lies in the range of singles, narrowed. -/
def float? (t : Text) : Option UInt32 :=
  match double? t with
  | some bits => if Binary.exceedsSingle bits then none else some (Binary.narrow bits)
  | none => none

/-- The outcome of reading lines of a type. -/
def verdict (source : Text) (type : ColumnType) : Option (Nat × Text) → Outcome
  | none => .ok ()
  | some (number, line) => .error (.invalidValue source number type line)

/-- The values of a column text; `source` names it in a failure. -/
def parse (type : ColumnType) (source text : Text) : Outcome × Column :=
  let lines := text.lines.map Text.dropReturn
  let trimmed := lines.map Text.trim
  match type with
  | .int =>
    let (values, bad) := readLines int? 1 trimmed
    (verdict source type bad, .int values)
  | .long =>
    let (values, bad) := readLines long? 1 trimmed
    (verdict source type bad, .long values)
  | .float =>
    let (values, bad) := readLines float? 1 trimmed
    (verdict source type bad, .float values)
  | .double =>
    let (values, bad) := readLines double? 1 trimmed
    (verdict source type bad, .double values)
  | .string => (.ok (), .string lines)
  | .bytes =>
    let (values, bad) := readLines Text.ofHex? 1 trimmed
    (verdict source type bad, .bytes values)

/-- The values of a column file. -/
def read (type : ColumnType) (path : Text) (v : Volume) : Outcome × Column :=
  match v.read path with
  | .refused e => (.error (.columnOpening path e), .empty type)
  | .unreadable => (.error (.columnReading path 0), .empty type)
  | .bytes content => parse type path content.toText

end ForwardIndex.Column
