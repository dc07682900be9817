import ForwardIndex.Failure

/-!
# Column sources

Where the values of a column come from: the column's name, the type of its values and the path of a
text file. A source is written `<name>:<TYPE>:<path>`; the path may hold further colons. The names
of a list of sources are distinct.
-/
set_option autoImplicit false
namespace ForwardIndex

structure Column.Source where
  name : Text
  type : ColumnType
  path : Text
  deriving DecidableEq

namespace Column.Source

/-- Splits a text at its first colon. -/
def splitColon (t : Text) : Option (Text × Text) :=
  match t.dropWhile (· != 58) with
  | [] => none
  | _ :: rest => some (t.takeWhile (· != 58), rest)

/-- The source that a text tells of. -/
def parse (t : Text) : Except Failure Column.Source :=
  match splitColon t with
  | none => .error (.columnShape t)
  | some (name, rest) =>
    match splitColon rest with
    | none => .error (.columnShape t)
    | some (typeName, path) =>
      if name = [] ∨ 47 ∈ name then .error (.columnName t)
      else
        match ColumnType.ofName? typeName with
        | none => .error (.columnType name typeName)
        | some type => if path = [] then .error (.columnInput name) else .ok ⟨name, type, path⟩

/-- The sources up to the first text that is wrong or repeats a name; `found` come before them. -/
def parseFrom (found : List Column.Source) : List Text → Outcome × List Column.Source
  | [] => (.ok (), found)
  | t :: rest =>
    match parse t with
    | .error e => (.error e, found)
    | .ok source =>
      if found.any (·.name == source.name) then (.error (.duplicateColumn source.name), found)
      else parseFrom (found ++ [source]) rest

def parseAll (ts : List Text) : Outcome × List Column.Source := parseFrom [] ts

/-- The text of a source. -/
def render (c : Column.Source) : Text := c.name ++ ":" ++ c.type.name ++ ":" ++ c.path

end Column.Source
end ForwardIndex
