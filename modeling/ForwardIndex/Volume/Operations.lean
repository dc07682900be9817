import ForwardIndex.Volume.Path

/-!
# Operations on a volume

Opening, writing and closing files through descriptors, reading whole files, removing entries and
making directories. An operation that is refused leaves the tree as it was, except that a run of
`createDirectories` keeps the directories made before the refusal.
-/
set_option autoImplicit false
namespace ForwardIndex.Volume

/-! ## Descriptors -/

/-- Hands out the next descriptor. -/
def handOut (v : Volume) (p : Place) : Nat × Volume :=
  (v.descriptors.length, { v with descriptors := v.descriptors ++ [some p] })

/-- The place that a descriptor is open on. -/
def place? (v : Volume) (descriptor : Nat) : Option Place := (v.descriptors[descriptor]?).join

/-- What is to befall the writes through a descriptor. -/
def faultsOf (v : Volume) (descriptor : Nat) : List WriteFault :=
  match v.place? descriptor with
  | some p => v.writeFaults p
  | none => []

/-- Other faults are to befall the writes through a descriptor, and all writes to its place. -/
def facing (v : Volume) (descriptor : Nat) (faults : List WriteFault) : Volume :=
  -- a function that says the same is not built anew at every write
  if v.faultsOf descriptor = faults then v
  else
    match v.place? descriptor with
    | some p => { v with writeFaults := fun q => if q = p then faults else v.writeFaults q }
    | none => v

/-- Opens a path for writing: a file there becomes empty, a vacancy becomes an empty file. -/
def openWrite (v : Volume) (path : Text) : Except SystemError (Nat × Volume) :=
  match v.locate .create path with
  | .error e => .error e
  | .ok (.vacancy directory name) =>
    .ok ((v.put (name :: directory) (.file ByteArray.empty)).handOut (name :: directory))
  | .ok (.entry p) =>
    match v.node? p with
    | some .directory => .error .isDirectory
    | some (.file _) => .ok ((v.put p (.file ByteArray.empty)).handOut p)
    | _ => .ok (v.handOut p)

/-- Offsets end below this bound. -/
def offsetBound : Nat := 0x8000000000000000

/-- Bytes taken by what stands at a place. No bytes change nothing, wherever they are put. -/
def transfer (v : Volume) (p : Place) (bytes : Bytes) (offset : Nat) :
    Except SystemError Nat × Volume :=
  if bytes.size = 0 then (.ok 0, v)
  else match v.node? p with
  | some (.device .full) => (.error .noSpace, v)
  | some (.file _) =>
    (.ok bytes.size, { v with nodes := updateNode p (Bytes.writeAt · offset bytes) v.nodes })
  | _ => (.ok bytes.size, v)

/-- One write at an offset, under a fault or none; the result is how many bytes were taken. -/
def write (v : Volume) (fault : Option WriteFault) (descriptor : Nat) (bytes : Bytes)
    (offset : Nat) : Except SystemError Nat × Volume :=
  match v.descriptors[descriptor]? with
  | some (some p) =>
    if offsetBound ≤ offset + bytes.size then (.error .invalidArgument, v)
    else
      match fault with
      | none => v.transfer p bytes offset
      | some (.refused reason) => (.error reason, v)
      | some (.short count) => v.transfer p (bytes.first count) offset
  | _ => (.error .invalidArgument, v)

/-- Closes a descriptor; it is free afterwards even if the close is refused. -/
def close (v : Volume) (descriptor : Nat) : Option SystemError × Volume :=
  let freed := { v with descriptors := v.descriptors.set descriptor none }
  match v.place? descriptor with
  | none => (none, freed)
  | some p =>
    match v.closeFaults p with
    | [] => (none, freed)
    | fault :: rest =>
      (fault, { freed with closeFaults := fun q => if q = p then rest else v.closeFaults q })

/-! ## Whole files -/

/-- What reading a path gives. -/
inductive Contents where
  | refused (reason : SystemError)
  /-- It can be opened, but there is nothing in it to read as bytes. -/
  | unreadable
  | bytes (content : Bytes)

def read (v : Volume) (path : Text) : Contents :=
  match v.find path with
  | .error e => .refused e
  | .ok p =>
    match v.node? p with
    | some (.file content) => .bytes content
    | some .directory => .unreadable
    | _ => .bytes ByteArray.empty

/-! ## Removing -/

/-- The last name of a path is that of an entry: it is there and neither `.` nor `..`. -/
def refuseRemoval (p : Path) : Option SystemError :=
  match p.names.getLast? with
  | none => some .busy
  | some name =>
    if name = Path.current then some .invalidArgument
    else if name = Path.parent then some .notEmpty
    else none

/-- Takes away a file, a link or an empty directory. A path that leads nowhere is no error. -/
def remove (v : Volume) (path : Text) : Except SystemError Volume :=
  match v.locate .keep path with
  | .error .notFound | .ok (.vacancy ..) => .ok v
  | .error e => .error e
  | .ok (.entry p) =>
    let parsed := Path.ofText path.untilNul
    match refuseRemoval parsed with
    | some e => .error e
    | none =>
      if v.isDirectory p then
        if v.hasEntries p then .error .notEmpty else .ok (v.erase p)
      else if parsed.trailing then .error .notDirectory
      else .ok (v.erase p)

/-! ## Directories -/

/-- Makes one directory in an existing one. -/
def createDirectory (v : Volume) (path : Text) : Except SystemError Volume :=
  match v.locate .keep path with
  | .error e => .error e
  | .ok (.entry _) => .error .alreadyExists
  | .ok (.vacancy directory name) => .ok (v.put (name :: directory) .directory)

/-- What a path leads to, as far as making directories is concerned. -/
inductive Standing where
  | directory
  | other
  | missing
  | unknown (reason : SystemError)

/-- A path through something that is no directory leads to nothing, too. -/
def standing (v : Volume) (path : Text) : Standing :=
  match v.find path with
  | .ok p => if v.isDirectory p then .directory else .other
  | .error .notFound | .error .notDirectory => .missing
  | .error e => .unknown e

/-- The text of a path given by its names, innermost first. -/
def pathText (absolute : Bool) (names : List Text) : Text :=
  let body := [47].intercalate names.reverse
  if absolute then 47 :: body else body

/-- More missing directories than this are refused. -/
def maxMissing : Nat := 1000

/-- The directories that are missing on the way to a path, outermost first, in front of those found
before. The names are innermost first. -/
def missingDirectories (v : Volume) (absolute : Bool) :
    List Text → List Text → Except SystemError (List Text)
  | [], found => .ok found
  | name :: outer, found =>
    let dots := name = Path.current ∨ name = Path.parent
    let found' := if dots then found else pathText absolute (name :: outer) :: found
    if maxMissing < found'.length then .error .nameTooLong
    else if outer = [] then .ok found'
    else
      match v.standing (pathText absolute outer) with
      | .directory => .ok found'
      | .other => .error .notDirectory
      | .missing => missingDirectories v absolute outer found'
      | .unknown e => .error e

/-- Makes directories one after the other; one that is there already is no error. -/
def createEach (v : Volume) : List Text → Option SystemError × Volume
  | [] => (none, v)
  | path :: rest =>
    match v.createDirectory path with
    | .ok v' => createEach v' rest
    | .error .alreadyExists =>
      match v.standing path with
      | .directory => createEach v rest
      | _ => (some .alreadyExists, v)
    | .error e => (some e, v)

/-- Makes the directory of a path and all that are missing on the way to it. -/
def createDirectories (v : Volume) (path : Text) : Option SystemError × Volume :=
  if path = [] then (some .invalidArgument, v)
  else
    match v.standing path with
    | .directory => (none, v)
    | .other => (some .notDirectory, v)
    | .unknown e => (some e, v)
    | .missing =>
      let p := Path.ofText path
      match v.missingDirectories p.absolute p.names.reverse [] with
      | .error e => (some e, v)
      | .ok missing => v.createEach missing

end ForwardIndex.Volume
