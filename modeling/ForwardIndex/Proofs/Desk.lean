import ForwardIndex.Proofs.FileHandle

/-!
# Handles that come and go

Handles are made, opened, written through, closed, moved and destroyed in any order, whatever the
system refuses. A `Desk` holds them, with a log of the descriptors that the system hands out and
takes back; without the log its calls are those on slots. Every opening has a number of its own,
also where a system would use the number of a closed descriptor again: a descriptor that is given
back twice is seen to be, whatever its number stands for by then. An opening hands out one
descriptor, and a write keeps to the place that its descriptor is open on.
-/
set_option autoImplicit false
namespace ForwardIndex

namespace Volume

/-! ## What openings and writes change -/

/-- Nothing changes but what stands at a place and the faults that are left. -/
structure OnlyAt (p : Place) (v v' : Volume) : Prop where
  others : ∀ q, q ≠ p → v'.node? q = v.node? q
  descriptors : v'.descriptors = v.descriptors

theorem OnlyAt.refl (p : Place) (v : Volume) : OnlyAt p v v := ⟨fun _ _ => rfl, rfl⟩

theorem OnlyAt.trans {p : Place} {u v w : Volume} (h : OnlyAt p u v) (g : OnlyAt p v w) :
    OnlyAt p u w :=
  ⟨fun q hq => (g.others q hq).trans (h.others q hq), g.descriptors.trans h.descriptors⟩

/-- Which faults are left makes no difference. -/
theorem OnlyAt.facing {p : Place} {v v' : Volume} (h : OnlyAt p v v') (d : Nat)
    (faults : List WriteFault) : OnlyAt p v (v'.facing d faults) := by
  rw [facing_eq]
  exact ⟨h.others, h.descriptors⟩

theorem transfer_onlyAt (v : Volume) (p : Place) (bytes : Bytes) (offset : Nat) :
    OnlyAt p v (v.transfer p bytes offset).2 := by
  unfold transfer
  split
  · exact .refl p v
  · split
    · exact .refl p v
    · next node =>
      refine ⟨fun q hq => ?_, rfl⟩
      rw [node?, lookup_updateNode node, if_neg hq]
      rfl
    · exact .refl p v

theorem write_onlyAt {v : Volume} {d : Nat} {p : Place} (only : ∀ q, v.IsOpen d q → q = p)
    (fault : Option WriteFault) (bytes : Bytes) (offset : Nat) :
    OnlyAt p v (v.write fault d bytes offset).2 := by
  unfold write
  split
  · next q isOpen =>
    obtain rfl := only q isOpen
    split
    · exact .refl q v
    · split
      · exact v.transfer_onlyAt q bytes offset
      · exact .refl q v
      · exact v.transfer_onlyAt q _ offset
  · exact .refl p v

/-- A descriptor is open on one place at most. -/
theorem isOpen_only (v : Volume) (d : Nat) : ∃ p, ∀ q, v.IsOpen d q → q = p := by
  by_cases isOpen : ∃ p, v.IsOpen d p
  · obtain ⟨p, isOpen⟩ := isOpen
    refine ⟨p, fun q other => ?_⟩
    simpa using other.symm.trans isOpen
  · exact ⟨Place.root, fun q other => absurd ⟨q, other⟩ isOpen⟩

/-- Paths lead the same ways whatever descriptors are handed out. -/
theorem find_handOut (v : Volume) (p : Place) (path : Text) :
    (v.handOut p).2.find path = v.find path :=
  @find_outline v (v.handOut p).2 (fun _ => rfl) path

/-- An opening gives the next descriptor, of the place where the path leads from then on. -/
theorem openWrite_handsOut {v v' : Volume} {path : Text} {d : Nat}
    (opened : v.openWrite path = .ok (d, v')) :
    ∃ p, v'.find path = .ok p ∧ d = v.descriptors.length ∧
      v'.descriptors = v.descriptors ++ [some p] := by
  unfold openWrite at opened
  cases located : v.locate .create path with
  | error e => rw [located] at opened; cases opened
  | ok a =>
    rw [located] at opened
    cases a with
    | vacancy directory name =>
      cases opened
      have grows := grows_put (locate_vacancy located) ByteArray.empty
      have found : (v.put (name :: directory) (.file ByteArray.empty)).find path =
          .ok (name :: directory) := by
        rw [find, locate_grows grows located]
        simp [grown]
      exact ⟨name :: directory, (find_handOut _ _ path).trans found, rfl, rfl⟩
    | entry p =>
      have found : v.find path = .ok p := by
        rw [find, locate_grows (Grows.refl v) located]
        rfl
      simp only at opened
      split at opened
      · cases opened
      · next old node =>
        cases opened
        have emptied : (v.put p (.file ByteArray.empty)).node? p =
            some (.file ByteArray.empty) := by simp
        have touches : Touches p v (v.put p (.file ByteArray.empty)) :=
          touches_of_nodes node emptied fun q hq => by simp [hq]
        exact ⟨p, (find_handOut _ p path).trans ((touches.find_eq path).trans found), rfl, rfl⟩
      · cases opened
        exact ⟨p, (find_handOut v p path).trans found, rfl, rfl⟩

@[simp] theorem descriptors_close (v : Volume) (d : Nat) :
    (v.close d).2.descriptors = v.descriptors.set d none := by
  unfold close
  split
  · rfl
  · split <;> rfl

end Volume

namespace FileHandle

theorem writeRest_onlyAt (path : Text) {d : Nat} (bytes : Bytes) (offset : Nat) {p : Place}
    (faults : List WriteFault) (done : Nat) {v : Volume} (only : ∀ q, v.IsOpen d q → q = p) :
    Volume.OnlyAt p v (writeRest path d bytes offset faults done v).2 := by
  induction faults generalizing done v with
  | nil =>
    rw [writeRest]
    have step := Volume.write_onlyAt only none (bytes.rest done) (offset + done)
    split
    · exact (Volume.OnlyAt.refl p v).facing d []
    · split <;> next wrote => rw [wrote] at step; exact step.facing d []
  | cons fault faults ih =>
    rw [writeRest]
    have step := Volume.write_onlyAt only (some fault) (bytes.rest done) (offset + done)
    split
    · exact (Volume.OnlyAt.refl p v).facing d _
    · have onward {v' : Volume} (step : Volume.OnlyAt p v v') (done : Nat) :
          Volume.OnlyAt p v (writeRest path d bytes offset faults done v').2 :=
        step.trans (ih done (by simpa only [Volume.IsOpen, step.descriptors] using only))
      split <;> next wrote =>
        rw [wrote] at step
        first
          | exact onward step _
          | exact step.facing d faults

/-- A write of all bytes changes only what the handle's descriptor is open on. -/
theorem writeAll_onlyAt {f : FileHandle} {p : Place} {v : Volume}
    (only : ∀ d, f.descriptor = some d → ∀ q, v.IsOpen d q → q = p) (bytes : Bytes)
    (offset : Nat) : Volume.OnlyAt p v (f.writeAll bytes offset v).2 := by
  unfold writeAll
  cases hd : f.descriptor with
  | none => exact .refl p v
  | some d => exact writeRest_onlyAt f.path bytes offset (v.faultsOf d) 0 (only d hd)

theorem descriptors_writeAll (f : FileHandle) (bytes : Bytes) (offset : Nat) (v : Volume) :
    (f.writeAll bytes offset v).2.descriptors = v.descriptors := by
  obtain ⟨p, only⟩ : ∃ p, ∀ d, f.descriptor = some d → ∀ q, v.IsOpen d q → q = p := by
    cases f.descriptor with
    | none => exact ⟨Place.root, nofun⟩
    | some d =>
      obtain ⟨p, only⟩ := v.isOpen_only d
      exact ⟨p, by rintro _ ⟨⟩; exact only⟩
  exact (writeAll_onlyAt only bytes offset).descriptors

/-! ## The log -/

/-- What becomes of descriptors. -/
inductive Event where
  /-- One was handed out, of what stands at a place. -/
  | opened (d : Nat) (place : Option Place)
  | closed (d : Nat)
  deriving DecidableEq

/-- The event hands out a descriptor. -/
def Event.opens (d : Nat) : Event → Bool
  | .opened e _ => e == d
  | .closed _ => false

/-- How often a descriptor was handed out. -/
def openings (d : Nat) (log : List Event) : Nat := log.countP (Event.opens d)

/-- How often a descriptor was given back. -/
def closings (d : Nat) (log : List Event) : Nat := log.count (.closed d)

/-- A volume, with a log of what became of descriptors. -/
structure Journal where
  volume : Volume
  log : List Event := []

namespace Journal

/-- The system may refuse to open a path for any reason; else the volume has the say. -/
def openWrite (j : Journal) (path : Text) (refused : Option SystemError) :
    Except SystemError (Nat × Journal) :=
  match refused with
  | some e => .error e
  | none =>
    match j.volume.openWrite path with
    | .error e => .error e
    | .ok (d, v) => .ok (d, ⟨v, j.log ++ [.opened d (v.find path).toOption]⟩)

def close (j : Journal) (d : Nat) : Option SystemError × Journal :=
  let (fault, v) := j.volume.close d
  (fault, ⟨v, j.log ++ [.closed d]⟩)

end Journal

section Journaled

variable (f : FileHandle) (j : Journal)

/-- Opening a path as `openAt` does, with a log. -/
def openIn (path : Text) (refused : Option SystemError) : Outcome × FileHandle × Journal :=
  if f.isOpen then (.error (.alreadyOpen f.path), f, j)
  else
    match j.openWrite path refused with
    | .error e => (.error (.writeOpening path e), f, j)
    | .ok (d, j') => (.ok (), ⟨path, some d⟩, j')

def writeIn (bytes : Bytes) (offset : Nat) : Outcome × Journal :=
  let (outcome, v) := f.writeAll bytes offset j.volume
  (outcome, { j with volume := v })

/-- Closing as `close` does, with a log. -/
def closeIn : Outcome × FileHandle × Journal :=
  match f.descriptor with
  | none => (.ok (), f, j)
  | some d =>
    match j.close d with
    | (none, j') => (.ok (), { f with descriptor := none }, j')
    | (some e, j') => (.error (.closeFailed f.path e), { f with descriptor := none }, j')

/-- Gives the descriptor back, if there is one, and reports nothing. -/
def release : Journal :=
  match f.descriptor with
  | none => j
  | some d => (j.close d).2

end Journaled

/-! ## Handles that come and go -/

structure Desk where
  /-- The handles in the order they were made; `none` once one is destroyed. -/
  handles : List (Option FileHandle) := []
  journal : Journal

inductive Call where
  | make
  | openAt (i : Nat) (path : Text) (refused : Option SystemError)
  | writeAll (i : Nat) (bytes : Bytes) (offset : Nat)
  | close (i : Nat)
  /-- Makes a handle from another one, which is moved. -/
  | construct (source : Nat)
  /-- Moves a handle into another one. -/
  | assign (target source : Nat)
  | destroy (i : Nat)

namespace Desk

/-- The handle of a number, as long as it lives. -/
def handle? (t : Desk) (i : Nat) : Option FileHandle := t.handles[i]?.join

/-- A call on a handle that was never made, or is destroyed, cannot be written down; it does
nothing here. -/
def step (t : Desk) : Call → Outcome × Desk
  | .make => (.ok (), { t with handles := t.handles ++ [some {}] })
  | .openAt i path refused =>
    match t.handle? i with
    | none => (.ok (), t)
    | some f =>
      let (outcome, f', j) := f.openIn t.journal path refused
      (outcome, ⟨t.handles.set i (some f'), j⟩)
  | .writeAll i bytes offset =>
    match t.handle? i with
    | none => (.ok (), t)
    | some f =>
      let (outcome, j) := f.writeIn t.journal bytes offset
      (outcome, { t with journal := j })
  | .close i =>
    match t.handle? i with
    | none => (.ok (), t)
    | some f =>
      let (outcome, f', j) := f.closeIn t.journal
      (outcome, ⟨t.handles.set i (some f'), j⟩)
  | .construct source =>
    match t.handle? source with
    | none => (.ok (), t)
    | some f => (.ok (), { t with handles := t.handles.set source (some f.moved) ++ [some f] })
  | .assign target source =>
    match t.handle? target, t.handle? source with
    | some f, some g =>
      if target = source then (.ok (), t)
      else
        (.ok (), ⟨(t.handles.set target (some g)).set source (some g.moved), f.release t.journal⟩)
    | _, _ => (.ok (), t)
  | .destroy i =>
    match t.handle? i with
    | none => (.ok (), t)
    | some f => (.ok (), ⟨t.handles.set i none, f.release t.journal⟩)

def run (t : Desk) (calls : List Call) : Desk := calls.foldl (fun t call => (t.step call).2) t

/-- The descriptor that each handle owns. -/
def held (t : Desk) : List (Option Nat) := t.handles.map (·.bind descriptor)

end Desk

/-! ### Without a log -/

section Unlogged

variable (f : FileHandle) (j : Journal)

theorem openIn_openAt (path : Text) :
    f.openAt path j.volume = ((f.openIn j path none).1, (f.openIn j path none).2.1,
      (f.openIn j path none).2.2.volume) := by
  unfold openAt openIn Journal.openWrite
  split
  · rfl
  · cases j.volume.openWrite path <;> rfl

theorem closeIn_close :
    f.close j.volume = ((f.closeIn j).1, (f.closeIn j).2.1, (f.closeIn j).2.2.volume) := by
  unfold close closeIn Journal.close
  cases f.descriptor with
  | none => rfl
  | some d =>
    dsimp only
    rcases j.volume.close d with ⟨fault | fault, v⟩ <;> rfl

/-- A close leaves the handle without a descriptor, whatever it reports, and gives back what the end
of its life does. -/
theorem closeIn_released :
    (f.closeIn j).2 = ({ f with descriptor := none }, f.release j) := by
  obtain ⟨path, descriptor⟩ := f
  unfold closeIn release
  cases descriptor with
  | none => rfl
  | some d =>
    dsimp only
    rcases j.close d with ⟨fault | fault, j'⟩ <;> rfl

theorem release_drop : f.drop j.volume = (f.release j).volume := by
  rw [drop, closeIn_close, closeIn_released]

end Unlogged

/-- A row of handles that has a new one in the place of each that was destroyed. -/
def Desk.slots (t : Desk) : Slots := ⟨t.handles.map (·.getD {}), t.journal.volume⟩

/-- A call on the slots of a row. -/
def Call.onSlots (s : Slots) : Call → Outcome × Slots
  | .make => (.ok (), { s with files := s.files ++ [{}] })
  | .openAt i path _ => s.openAt i path
  | .writeAll i bytes offset => s.writeAll i bytes offset
  | .close i => s.close i
  | .construct source =>
    (.ok (), ({ s with files := s.files ++ [{}] } : Slots).move s.files.length source)
  | .assign target source => (.ok (), s.move target source)
  | .destroy i => (.ok (), s.drop i)

/-- The handles of a call live. -/
def Call.Lives (t : Desk) : Call → Prop
  | .make => True
  | .openAt i _ _ | .writeAll i _ _ | .close i | .construct i | .destroy i => (t.handle? i).isSome
  | .assign target source => (t.handle? target).isSome ∧ (t.handle? source).isSome

theorem Desk.handle?_eq {t : Desk} {i : Nat} {f : FileHandle} :
    t.handle? i = some f ↔ t.handles[i]? = some (some f) := by
  unfold handle?
  cases t.handles[i]? <;> simp

theorem Desk.get_slots {t : Desk} {i : Nat} {f : FileHandle} (h : t.handle? i = some f) :
    t.slots.get i = f := by
  simp [Slots.get, slots, handle?_eq.1 h]

theorem Desk.set_slots (t : Desk) (i : Nat) (f : FileHandle) (j : Journal) :
    (⟨t.handles.set i (some f), j⟩ : Desk).slots = { t.slots.set i f with volume := j.volume } := by
  simp [Slots.set, slots, List.map_set]

/-- Calls on handles that live go as they do on slots, if the system refuses nothing of its own. -/
theorem Desk.step_slots {t : Desk} {call : Call} (lives : call.Lives t)
    (willing : ∀ i path refused, call = .openAt i path refused → refused = none) :
    call.onSlots t.slots = ((t.step call).1, (t.step call).2.slots) := by
  have alive {i : Nat} (h : (t.handle? i).isSome) : ∃ f, t.handle? i = some f :=
    Option.isSome_iff_exists.1 h
  cases call with
  | make => simp [Call.onSlots, step, slots]
  | openAt i path refused =>
    obtain rfl := willing i path refused rfl
    obtain ⟨f, hf⟩ := alive lives
    simp only [Call.onSlots, Slots.openAt, step, hf, get_slots hf, set_slots]
    rw [show t.slots.volume = t.journal.volume from rfl, openIn_openAt]
  | writeAll i bytes offset =>
    obtain ⟨f, hf⟩ := alive lives
    simp only [Call.onSlots, Slots.writeAll, step, hf, get_slots hf, writeIn]
    rfl
  | close i =>
    obtain ⟨f, hf⟩ := alive lives
    simp only [Call.onSlots, Slots.close, step, hf, get_slots hf, set_slots]
    rw [show t.slots.volume = t.journal.volume from rfl, closeIn_close]
  | construct source =>
    obtain ⟨f, hf⟩ := alive lives
    obtain ⟨below, -⟩ := List.getElem?_eq_some_iff.1 (handle?_eq.1 hf)
    have other : t.slots.files.length ≠ source := by
      rw [slots, List.length_map]
      omega
    have got : (t.handles.map (·.getD {}) ++ [({} : FileHandle)])[source]? = some f := by
      rw [List.getElem?_append_left (by simpa using below)]
      simp [handle?_eq.1 hf]
    simp only [Call.onSlots, Slots.move, if_neg other, step, hf]
    simp [Slots.drop, Slots.get, Slots.set, slots, got, drop, close, List.map_set, below]
  | assign target source =>
    obtain ⟨f, hf⟩ := alive lives.1
    obtain ⟨g, hg⟩ := alive lives.2
    simp only [Call.onSlots, Slots.move, step, hf, hg]
    split
    · rfl
    · simp only [Slots.drop, get_slots hf, get_slots hg]
      rw [show t.slots.volume = t.journal.volume from rfl, release_drop]
      simp [Slots.set, slots, List.map_set]
  | destroy i =>
    obtain ⟨f, hf⟩ := alive lives
    simp only [Call.onSlots, Slots.drop, step, hf, get_slots hf]
    rw [show t.slots.volume = t.journal.volume from rfl, release_drop]
    simp [Slots.set, slots, List.map_set]

end FileHandle
end ForwardIndex
