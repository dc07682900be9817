import ForwardIndex.Volume.Basic

/-!
# Paths

A path text leads from the root, or from the working directory, name by name to an entry or to a
vacancy in an existing directory. Symbolic links on the way are followed, at most forty of them. A
slash at the end asks for a directory.
-/
set_option autoImplicit false
namespace ForwardIndex

structure Path where
  absolute : Bool
  names : List Text
  /-- The text ends in a slash. -/
  trailing : Bool
  deriving DecidableEq

namespace Path

def current : Text := "."

def parent : Text := ".."

/-- Puts a byte in front of a text that is already split at its slashes. -/
def consByte (c : UInt8) : List Text → List Text
  | [] => if c = 47 then [[], []] else [[c]]
  | name :: rest => if c = 47 then [] :: name :: rest else (c :: name) :: rest

def ofText (t : Text) : Path where
  absolute := t.head? == some 47
  names := (t.foldr consByte []).filter (· != [])
  trailing := t.getLast? == some 47

def start (p : Path) : Place := if p.absolute then Place.root else Place.working

end Path

/-- Where a path leads. -/
inductive Arrival where
  /-- Something stands there. -/
  | entry (place : Place)
  /-- The directory exists and has no entry of that name. -/
  | vacancy (directory : Place) (name : Text)
  deriving DecidableEq

/-- How far a walk comes before it meets a link to follow. -/
inductive Leg where
  | arrived (arrival : Arrival)
  | redirected (directory : Place) (target : Path) (rest : List Text)

namespace Volume

def maxNameLength : Nat := 255

def maxPathLength : Nat := 4096

def maxLinks : Nat := 40

/-- What a walk does at its last name. -/
inductive LastName where
  /-- A link there is the entry itself. -/
  | keep
  /-- A link there is followed. -/
  | follow
  /-- Nothing is looked up. -/
  | unseen
  deriving DecidableEq

/-- Walks down name by name. -/
def walkNames (v : Volume) (last : LastName) (here : Place) : List Text → Except SystemError Leg
  | [] => .ok (.arrived (.entry here))
  | name :: rest =>
    if !v.isDirectory here then .error .notDirectory
    else if name = Path.current then walkNames v last here rest
    else if name = Path.parent then walkNames v last here.tail rest
    else if rest = [] ∧ last = .unseen then .ok (.arrived (.vacancy here name))
    else if maxNameLength < name.length then .error .nameTooLong
    else
      match v.node? (name :: here) with
      | none => if rest = [] then .ok (.arrived (.vacancy here name)) else .error .notFound
      | some (.link target) =>
        if rest = [] ∧ last = .keep then .ok (.arrived (.entry (name :: here)))
        else .ok (.redirected here (Path.ofText target) rest)
      | some _ => walkNames v last (name :: here) rest

/-- How the end of a path is treated. -/
inductive Final where
  /-- A link there is the entry itself. -/
  | keep
  /-- A link there is followed. -/
  | follow
  /-- As `follow`, but a path that ends in a slash names no file, whatever stands there. -/
  | create
  deriving DecidableEq

/-- What a walk does at the last name of a path that may end in a slash. -/
def Final.lastName (final : Final) (trailing : Bool) : LastName :=
  match final with
  | keep => .keep
  | follow => .follow
  | create => if trailing then .unseen else .follow

/-- A path that must lead to a directory does so. -/
def checkDirectory (v : Volume) (required : Bool) : Arrival → Except SystemError Arrival
  | .entry p => if required && !v.isDirectory p then .error .notDirectory else .ok (.entry p)
  | .vacancy d name => .ok (.vacancy d name)

/-- Follows a path from a place with so many links left. -/
def walk (v : Volume) (final : Final) : Nat → Place → List Text → Bool → Except SystemError Arrival
  | links, here, names, trailing =>
    match v.walkNames (final.lastName trailing) here names with
    | .error e => .error e
    | .ok (.arrived a) =>
      if final.lastName trailing = .unseen then .error .isDirectory
      else if final == .keep then .ok a
      else v.checkDirectory trailing a
    | .ok (.redirected directory target rest) =>
      match links with
      | 0 => .error .tooManyLinks
      | links + 1 =>
        v.walk final links (if target.absolute then Place.root else directory)
          (target.names ++ rest) (if rest = [] then trailing || target.trailing else trailing)

/-- Where a path text leads; it ends at its first NUL byte. -/
def locate (v : Volume) (final : Final) (path : Text) : Except SystemError Arrival :=
  let text := path.untilNul
  if text = [] then .error .notFound
  else if maxPathLength ≤ text.length then .error .nameTooLong
  else
    let p := Path.ofText text
    v.walk final maxLinks p.start p.names p.trailing

/-- The entry that a path leads to, links followed. -/
def find (v : Volume) (path : Text) : Except SystemError Place :=
  match v.locate .follow path with
  | .error e => .error e
  | .ok (.entry p) => .ok p
  | .ok (.vacancy ..) => .error .notFound

end Volume
end ForwardIndex
