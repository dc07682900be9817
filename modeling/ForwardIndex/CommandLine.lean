import ForwardIndex.Text.Integer

/-!
# Command lines

The words after the program's name are a sequence of items: positional words, keys with a value in
the next word, keys without one, and assignments `--key=value`. A key starts with a dash and has two
bytes at least; a dash alone is a word like any other and may be a value. A key may repeat, and its
values are kept in order; a key without a value has the value `1`.
-/
set_option autoImplicit false
namespace ForwardIndex

namespace CommandLine

inductive Item where
  | positional (word : Text)
  | pair (key value : Text)
  | flag (key : Text)
  | assignment (key value : Text)
  deriving DecidableEq

/-- A word that can be a key. Every other word can be the value after a key. -/
def isKey (word : Text) : Bool := match word with
  | 45 :: _ :: _ => true
  | _ => false

/-- A word that starts with two dashes, split at its first equals sign. -/
def assignment? (word : Text) : Option (Text × Text) :=
  match word with
  | 45 :: 45 :: _ =>
    match word.dropWhile (· != 61) with
    | _ :: value => some (word.takeWhile (· != 61), value)
    | [] => none
  | _ => none

/-- The items of a sequence of words. -/
def parse : List Text → List Item
  | [] => []
  | [word] =>
    if isKey word then
      match assignment? word with
      | some (key, value) => [.assignment key value]
      | none => [.flag word]
    else [.positional word]
  | word :: next :: rest =>
    if isKey word then
      match assignment? word with
      | some (key, value) => .assignment key value :: parse (next :: rest)
      | none =>
        if isKey next then .flag word :: parse (next :: rest) else .pair word next :: parse rest
    else .positional word :: parse (next :: rest)

/-- The value that an item gives to a key. -/
def Item.valueOf? (key : Text) : Item → Option Text
  | .positional _ => none
  | .pair k value | .assignment k value => if k = key then some value else none
  | .flag k => if k = key then some "1" else none

end CommandLine

/-- The words of a command line, read as items. -/
structure CommandLine where
  items : List CommandLine.Item
  deriving DecidableEq

namespace CommandLine

/-- Reads the words after the program's name. -/
def ofWords (words : List Text) : CommandLine := ⟨parse words⟩

/-- All values of a key, in order. -/
def values (c : CommandLine) (key : Text) : List Text := c.items.filterMap (·.valueOf? key)

def has (c : CommandLine) (key : Text) : Bool := !(c.values key).isEmpty

/-- The last value of a key. -/
def value? (c : CommandLine) (key : Text) : Option Text := (c.values key).getLast?

def value (c : CommandLine) (key default : Text) : Text := (c.value? key).getD default

/-- The words that belong to no key. -/
def positional (c : CommandLine) : List Text := c.items.filterMap fun
  | .positional word => some word
  | _ => none

/-- The last value of a key as a 32-bit integer; the default if it is missing or is none. -/
def integer (c : CommandLine) (key : Text) (default : Int32) : Int32 :=
  match c.value? key with
  | none => default
  | some text => ((text.toInteger? 32).map Int32.ofInt).getD default

/-- A number of threads; without a positive one it is as many as there are processors. -/
def threads (c : CommandLine) (key : Text) (processors : Int32) : Int32 :=
  let n := c.integer key 0
  if 0 < n then n else if 0 < processors then processors else 1

/-- More is logged. -/
def isVerbose (c : CommandLine) : Bool := c.has "-v" || c.has "--verbose"

end CommandLine
end ForwardIndex
