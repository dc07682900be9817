import ForwardIndex.Bytes
import ForwardIndex.Volume.SystemError

/-!
# Volumes

A volume is a tree of files, directories, symbolic links and two devices, with the table of open
descriptors. Every entry stands at a canonical place: the names on the way to it from the root,
innermost first, free of `.`, `..` and links. The working directory lies two levels below the root,
in a directory of its own; both have an empty name, so that no absolute path leads into them.

What the system may do to single calls is part of the state: `writeFaults` and `closeFaults` hold
for every place what will befall the next writes and closes there, in order. Where they are used up
every call succeeds as far as the tree allows. What files take from each other, such as the room on
a disk, is left out.
-/
set_option autoImplicit false
namespace ForwardIndex

/-- The names on the way from the root, innermost first. -/
abbrev Place := List Text

inductive Device where
  /-- Takes every byte and keeps none. -/
  | null
  /-- Has no room for any byte. -/
  | full
  deriving DecidableEq

inductive Node where
  | file (content : Bytes)
  | directory
  | link (target : Text)
  | device (kind : Device)
  deriving DecidableEq

/-- What befalls one write: only so many bytes are taken, or none with a reason. -/
inductive WriteFault where
  | short (count : Nat)
  | refused (reason : SystemError)
  deriving DecidableEq

structure Volume where
  nodes : List (Place × Node)
  /-- The place of every descriptor handed out so far; `none` once it is closed. -/
  descriptors : List (Option Place) := []
  writeFaults : Place → List WriteFault := fun _ => []
  closeFaults : Place → List (Option SystemError) := fun _ => []

namespace Place

def root : Place := []

/-- The directory that holds the working directory. -/
def outer : Place := [[]]

def working : Place := [] :: outer

end Place

namespace Volume

/-- A volume with an empty working directory and the two devices. -/
def initial : Volume where
  nodes := [(Place.root, .directory), (Place.outer, .directory), (Place.working, .directory),
    (["dev"], .directory), (["null", "dev"], .device .null), (["full", "dev"], .device .full)]

/-- What stands at a place. -/
def node? (v : Volume) (p : Place) : Option Node := v.nodes.lookup p

def isDirectory (v : Volume) (p : Place) : Bool := v.node? p == some .directory

/-- Puts a node at a place, over the one that stands there. -/
def putNode (p : Place) (n : Node) : List (Place × Node) → List (Place × Node)
  | [] => [(p, n)]
  | (q, m) :: rest => if q = p then (q, n) :: rest else (q, m) :: putNode p n rest

def put (v : Volume) (p : Place) (n : Node) : Volume := { v with nodes := putNode p n v.nodes }

/-- Takes away what stands at a place. -/
def erase (v : Volume) (p : Place) : Volume := { v with nodes := v.nodes.filter (·.1 != p) }

/-- Changes the content of the file at a place; nothing else changes. -/
def updateNode (p : Place) (f : Bytes → Bytes) : List (Place × Node) → List (Place × Node)
  | [] => []
  | (q, m) :: rest =>
    if q = p then
      match m with
      | .file content => (q, .file (f content)) :: rest
      | m => (q, m) :: rest
    else (q, m) :: updateNode p f rest

/-- Some entry lies directly in a directory. -/
def hasEntries (v : Volume) (p : Place) : Bool :=
  v.nodes.any fun (q, _) => match q with
    | [] => false
    | _ :: parent => parent == p

/-- The path text of a place below a directory, `none` if it lies elsewhere. -/
def relativePath? (top p : Place) : Option Text :=
  if p.length ≤ top.length ∨ ¬ top.isSuffixOf p then none
  else
    match (p.take (p.length - top.length)).reverse with
    | [] => none
    | name :: rest => some (rest.foldl (fun path name => path ++ [47] ++ name) name)

/-- All entries below a directory with their paths. -/
def entriesBelow (v : Volume) (top : Place) : List (Text × Node) :=
  v.nodes.filterMap fun (p, n) => (relativePath? top p).map (·, n)

end Volume
end ForwardIndex
