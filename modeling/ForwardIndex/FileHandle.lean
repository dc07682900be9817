import ForwardIndex.Failure
import ForwardIndex.Volume.Operations

/-!
# File handles

A file handle owns at most one descriptor and remembers the path it was last opened on. `writeAll`
writes all of its bytes at an offset, going on after short writes and interruptions. Handles can be
moved: the descriptor goes along and the source is left without one.
-/
set_option autoImplicit false
namespace ForwardIndex

structure FileHandle where
  path : Text := []
  descriptor : Option Nat := none
  deriving DecidableEq

namespace FileHandle

def isOpen (f : FileHandle) : Bool := f.descriptor.isSome

/-- Opens a path, creating or emptying the file. -/
def openAt (f : FileHandle) (path : Text) (v : Volume) : Outcome × FileHandle × Volume :=
  if f.isOpen then (.error (.alreadyOpen f.path), f, v)
  else
    match v.openWrite path with
    | .error e => (.error (.writeOpening path e), f, v)
    | .ok (d, v') => (.ok (), ⟨path, some d⟩, v')

/-- Writes what is left of the bytes after the first `done`. Every fault befalls one write; with no
fault ahead a write takes all. -/
def writeRest (path : Text) (d : Nat) (bytes : Bytes) (offset : Nat) :
    List WriteFault → Nat → Volume → Outcome × Volume
  | [], done, v =>
    if bytes.size ≤ done then (.ok (), v.facing d [])
    else
      match v.write none d (bytes.rest done) (offset + done) with
      | (.error e, v') =>
        (.error (.writeFailed bytes.size offset path e), v'.facing d [])
      | (.ok _, v') => (.ok (), v'.facing d [])
  | fault :: faults, done, v =>
    if bytes.size ≤ done then (.ok (), v.facing d (fault :: faults))
    else
      match v.write (some fault) d (bytes.rest done) (offset + done) with
      | (.error .interrupted, v') => writeRest path d bytes offset faults done v'
      | (.error e, v') =>
        (.error (.writeFailed bytes.size offset path e), v'.facing d faults)
      | (.ok 0, v') =>
        (.error (.writeStalled path (offset + done)), v'.facing d faults)
      | (.ok count, v') => writeRest path d bytes offset faults (done + count) v'

/-- Writes all bytes at an offset. -/
def writeAll (f : FileHandle) (bytes : Bytes) (offset : Nat) (v : Volume) : Outcome × Volume :=
  match f.descriptor with
  | none => (.error .writeOnClosed, v)
  | some d => writeRest f.path d bytes offset (v.faultsOf d) 0 v

/-- Gives the descriptor back. A handle without one has nothing to close. -/
def close (f : FileHandle) (v : Volume) : Outcome × FileHandle × Volume :=
  match f.descriptor with
  | none => (.ok (), f, v)
  | some d =>
    match v.close d with
    | (none, v') => (.ok (), { f with descriptor := none }, v')
    | (some e, v') => (.error (.closeFailed f.path e), { f with descriptor := none }, v')

/-- The end of a handle's life. -/
def drop (f : FileHandle) (v : Volume) : Volume := (f.close v).2.2

/-- Makes or empties the file of a path and fills it with bytes. -/
def create (path : Text) (content : Bytes) (v : Volume) : Outcome × Volume :=
  match openAt {} path v with
  | (.error e, _, v) => (.error e, v)
  | (.ok (), f, v) =>
    let (written, v) := f.writeAll content 0 v
    let (closed, _, v) := f.close v
    match written with
    | .error e => (.error e, v)
    | .ok () => (closed, v)

/-- What is left of a handle that was moved from. -/
def moved (_ : FileHandle) : FileHandle := {}

/-! ## Several handles -/

/-- A row of handles, each in its slot. -/
structure Slots where
  files : List FileHandle
  volume : Volume

namespace Slots

def get (s : Slots) (i : Nat) : FileHandle := (s.files[i]?).getD {}

def set (s : Slots) (i : Nat) (f : FileHandle) : Slots := { s with files := s.files.set i f }

def openAt (s : Slots) (i : Nat) (path : Text) : Outcome × Slots :=
  let (outcome, f, v) := (s.get i).openAt path s.volume
  (outcome, { s.set i f with volume := v })

def writeAll (s : Slots) (i : Nat) (bytes : Bytes) (offset : Nat) : Outcome × Slots :=
  let (outcome, v) := (s.get i).writeAll bytes offset s.volume
  (outcome, { s with volume := v })

def close (s : Slots) (i : Nat) : Outcome × Slots :=
  let (outcome, f, v) := (s.get i).close s.volume
  (outcome, { s.set i f with volume := v })

/-- Ends the handle in a slot and puts a new one there. -/
def drop (s : Slots) (i : Nat) : Slots :=
  { s.set i {} with volume := (s.get i).drop s.volume }

/-- Moves the handle of slot `source` into slot `target`, whose own handle ends. It makes no
difference whether the target is assigned or made anew. A handle moved into its own slot stays. -/
def move (s : Slots) (target source : Nat) : Slots :=
  if target = source then s
  else ((s.drop target).set target (s.get source)).set source (s.get source).moved

end Slots
end FileHandle
end ForwardIndex
