import ForwardIndex.Column.Build
import ForwardIndex.Text.Hex

/-!
# Build reports

A report is a JSON record of how columns were indexed and what came out. A printer, which is a
parameter, makes a text of it. The text is written to a file, or to the standard output where the
path is a single dash; that the standard output fails is left out.
-/
set_option autoImplicit false
namespace ForwardIndex

structure Report where
  config : BuildConfig
  columns : List Summary
  deriving DecidableEq

namespace Report

/-- A JSON value as far as a report needs it: texts, numbers, lists, and records of named values. -/
inductive Value where
  | text (t : Text)
  | number (n : Int)
  | list (items : List Value)
  | record (fields : List (Text × Value))

/-- The size of all files, as a 64-bit number. -/
def totalBytes (r : Report) : Nat :=
  (r.columns.map (·.fileSize)).foldl (· + ·) 0 % 0x10000000000000000

def column (s : Summary) : Value :=
  .record [("name", .text s.column), ("type", .text s.type.name), ("path", .text s.path),
    ("num_docs", .number s.docs.toInt), ("docs_per_chunk", .number s.docsPerChunk.toInt),
    ("num_chunks", .number s.chunks.toInt), ("entry_size", .number s.entrySize.toInt),
    ("file_size", .number s.fileSize)]

/-- The report as a JSON value. -/
def value (r : Report) : Value :=
  .record [("version", .number r.config.version.toInt),
    ("compression", .text r.config.compression.name),
    ("target_max_chunk_size", .number r.config.targetChunkSize.toInt),
    ("target_docs_per_chunk", .number r.config.targetDocs.toInt),
    ("columns", .list (r.columns.map column)), ("total_bytes", .number r.totalBytes)]

/-! ## A printer -/

/-- A byte of a JSON string. -/
def escapeByte (c : UInt8) : Text :=
  if c = 34 then [92, 34]
  else if c = 92 then [92, 92]
  else if c < 32 then [92, 117, 48, 48, Text.hexDigit (c.toNat / 16), Text.hexDigit (c.toNat % 16)]
  else [c]

def quoted (t : Text) : Text := [34] ++ t.flatMap escapeByte ++ [34]

mutual

/-- A value on one line, its fields in their order. -/
def Value.inline : Value → Text
  | .text t => quoted t
  | .number n => Text.ofInt n
  | .list items => [91] ++ Text.joinWith ", " (inlineAll items) ++ [93]
  | .record fields => [123] ++ Text.joinWith ", " (inlineFields fields) ++ [125]

def Value.inlineAll : List Value → List Text
  | [] => []
  | item :: rest => item.inline :: inlineAll rest

def Value.inlineFields : List (Text × Value) → List Text
  | [] => []
  | (name, value) :: rest => (quoted name ++ ": " ++ value.inline) :: inlineFields rest

end

/-! ## Writing -/

/-- The report as a printer shows it. -/
def render (r : Report) (print : Value → Text := Value.inline) : Text := print r.value

/-- The path that stands for the standard output. -/
def standardOutput : Text := "-"

/-- A failure to write a file, as a failure to write a report. -/
def failureOf (path : Text) : Failure → Failure
  | .writeOpening _ e => .reportOpening path e
  | _ => .reportWriting path

/-- Writes the report; the second part is what reaches the standard output. -/
def write (r : Report) (path : Text) (v : Volume) (print : Value → Text := Value.inline) :
    Outcome × Text × Volume :=
  let content := r.render print ++ "\n"
  if path = standardOutput then (.ok (), content, v)
  else
    match FileHandle.create path (Bytes.ofText content) v with
    | (.error e, v) => (.error (failureOf path e), [], v)
    | (.ok (), v) => (.ok (), [], v)

end Report
end ForwardIndex
