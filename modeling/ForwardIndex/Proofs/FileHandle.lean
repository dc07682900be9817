import ForwardIndex.FileHandle
import ForwardIndex.Proofs.Volume

/-!
# Writing through a handle

A handle on a file holds its content as long as nobody else touches it. A write of all bytes that
succeeds leaves the file patched, in however many pieces the system took the bytes; short writes and
interruptions alone never make it fail.
-/
set_option autoImplicit false
namespace ForwardIndex

/-- A fault that a write goes on after. -/
def WriteFault.IsHarmless : WriteFault → Prop
  | .short count => 0 < count
  | .refused reason => reason = .interrupted

/-- What is still to befall writes is harmless. -/
def Volume.WritesGoOn (v : Volume) : Prop := ∀ p, ∀ fault ∈ v.writeFaults p, fault.IsHarmless

/-- The next close of a file is not refused, whichever file it is. -/
def Volume.Closes (v : Volume) : Prop := ∀ p, (v.closeFaults p).headD none = none

namespace Volume

/-! ## Faults ahead -/

section Faults

variable {v : Volume} {d : Nat} {p : Place}

theorem IsOpen.place?_eq (h : v.IsOpen d p) : v.place? d = some p := by
  rw [place?, show v.descriptors[d]? = some (some p) from h]
  rfl

theorem IsOpen.faultsOf_eq (h : v.IsOpen d p) : v.faultsOf d = v.writeFaults p := by
  rw [faultsOf, h.place?_eq]

/-- Nothing else is changed by what is to befall the writes. -/
theorem facing_eq (v : Volume) (d : Nat) (faults : List WriteFault) :
    v.facing d faults = { v with writeFaults := (v.facing d faults).writeFaults } := by
  unfold facing
  split
  · rfl
  · split <;> rfl

theorem IsOpen.facing_isOpen (h : v.IsOpen d p) (e : Nat) (faults : List WriteFault) :
    (v.facing e faults).IsOpen d p := by
  rw [facing_eq]
  exact h

/-- Only the writes to the place of the descriptor meet other faults. -/
theorem IsOpen.facing_writeFaults (h : v.IsOpen d p) (faults : List WriteFault) (q : Place) :
    (v.facing d faults).writeFaults q = if q = p then faults else v.writeFaults q := by
  simp only [facing, h.place?_eq, h.faultsOf_eq]
  by_cases same : v.writeFaults p = faults
  · rw [if_pos same]
    split
    · next here => rw [here, same]
    · rfl
  · rw [if_neg same]

theorem IsOpen.facing_here (h : v.IsOpen d p) (faults : List WriteFault) :
    (v.facing d faults).writeFaults p = faults := by
  rw [h.facing_writeFaults, if_pos rfl]

/-- A descriptor that is closed has its place's faults taken from the front. -/
theorem IsOpen.close_eq (h : v.IsOpen d p) :
    v.close d = ((v.closeFaults p).headD none,
      { v with
        descriptors := v.descriptors.set d none
        closeFaults := fun q => if q = p then (v.closeFaults p).tail else v.closeFaults q }) := by
  rw [close, h.place?_eq]
  dsimp only
  cases faults : v.closeFaults p with
  | nil =>
    have same : v.closeFaults = fun q => if q = p then [] else v.closeFaults q := by
      funext q
      split
      · next here => rw [here, faults]
      · rfl
    exact Prod.ext rfl (congrArg (Volume.mk v.nodes _ v.writeFaults) same)
  | cons fault rest => rfl

/-- Of the faults that the writes to a place would meet, some at the end are left; elsewhere all
are. -/
structure Leaves (p : Place) (faults : List WriteFault) (v v' : Volume) : Prop where
  here : v'.writeFaults p <:+ faults
  elsewhere : ∀ q, q ≠ p → v'.writeFaults q = v.writeFaults q

theorem Leaves.of_eq {u v' : Volume} {faults : List WriteFault} (h : Leaves p faults v v')
    (same : v.writeFaults = u.writeFaults) : Leaves p faults u v' :=
  ⟨h.here, fun q other => same ▸ h.elsewhere q other⟩

theorem Leaves.suffix {v' : Volume} (h : Leaves p (v.writeFaults p) v v') (q : Place) :
    v'.writeFaults q <:+ v.writeFaults q := by
  by_cases here : q = p
  · exact here ▸ h.here
  · exact h.elsewhere q here ▸ List.suffix_rfl

theorem IsOpen.facing_leaves (h : v.IsOpen d p) {left faults : List WriteFault}
    (suffix : left <:+ faults) : Leaves p faults v (v.facing d left) where
  here := (h.facing_here left).symm ▸ suffix
  elsewhere q other := by rw [h.facing_writeFaults, if_neg other]

end Faults

/-- The outcome of writing through a descriptor: the file's content is new, its descriptor stays
open, and nothing else changes but the faults that are left. -/
structure Wrote (d : Nat) (p : Place) (content : Bytes) (v v' : Volume) : Prop where
  node : v'.node? p = some (.file content)
  others : ∀ q, q ≠ p → v'.node? q = v.node? q
  isOpen : v'.IsOpen d p
  closeFaults : v'.closeFaults = v.closeFaults

theorem Wrote.refl {d : Nat} {p : Place} {a : Bytes} {v : Volume}
    (node : v.node? p = some (.file a)) (isOpen : v.IsOpen d p) : Wrote d p a v v :=
  ⟨node, fun _ _ => rfl, isOpen, rfl⟩

/-- Which faults are left makes no difference. -/
theorem Wrote.facing {d : Nat} {p : Place} {a : Bytes} {u v : Volume} (h : Wrote d p a u v)
    (faults : List WriteFault) : Wrote d p a u (v.facing d faults) := by
  rw [facing_eq]
  exact ⟨h.node, h.others, h.isOpen, h.closeFaults⟩

theorem Wrote.trans {d : Nat} {p : Place} {a b : Bytes} {u v w : Volume} (h : Wrote d p a u v)
    (g : Wrote d p b v w) : Wrote d p b u w :=
  ⟨g.node, fun q hq => (g.others q hq).trans (h.others q hq), g.isOpen,
    g.closeFaults.trans h.closeFaults⟩

section Write

variable {v : Volume} {d : Nat} {p : Place} {content : Bytes}

theorem transfer_file (node : v.node? p = some (.file content)) (isOpen : v.IsOpen d p)
    (bytes : Bytes) (offset : Nat) :
    ∃ v', v.transfer p bytes offset = (.ok bytes.size, v') ∧
      Wrote d p (content.patch offset bytes) v v' ∧ v'.writeFaults = v.writeFaults := by
  unfold transfer
  by_cases none : bytes.size = 0
  · rw [if_pos none, none]
    exact ⟨v, rfl, ⟨by simp [Bytes.patch, none, node], fun _ _ => rfl, isOpen, rfl⟩, rfl⟩
  · rw [if_neg none, node]
    refine ⟨_, rfl, ⟨?_, fun q hq => ?_, isOpen, rfl⟩, rfl⟩
    · rw [node?, lookup_updateNode node, if_pos rfl, Bytes.patch, if_neg none]
    · rw [node?, lookup_updateNode node, if_neg hq]
      rfl

/-- A write through an open descriptor is refused and changes nothing, or takes bytes from the
front: all of them, unless it is cut short. -/
theorem write_cases (node : v.node? p = some (.file content)) (isOpen : v.IsOpen d p)
    (fault : Option WriteFault) (bytes : Bytes) (offset : Nat) :
    (∃ e, v.write fault d bytes offset = (.error e, v) ∧
      (offset + bytes.size < offsetBound → fault = some (.refused e))) ∨
    ∃ count v', v.write fault d bytes offset = (.ok count, v') ∧ count ≤ bytes.size ∧
      (count = bytes.size ∨ fault = some (.short count)) ∧
      Wrote d p (content.patch offset (bytes.first count)) v v' ∧
      v'.writeFaults = v.writeFaults := by
  unfold write
  rw [show v.descriptors[d]? = some (some p) from isOpen]
  dsimp only
  by_cases room : offsetBound ≤ offset + bytes.size
  · rw [if_pos room]
    exact .inl ⟨_, rfl, fun h => absurd room (by omega)⟩
  rw [if_neg room]
  match fault with
  | none =>
    obtain ⟨w, hw, wrote, faults⟩ := transfer_file node isOpen bytes offset
    exact .inr ⟨bytes.size, w, hw, Nat.le_refl _, .inl rfl, by simpa using wrote, faults⟩
  | some (.refused reason) => exact .inl ⟨reason, rfl, fun _ => rfl⟩
  | some (.short n) =>
    obtain ⟨w, hw, wrote, faults⟩ := transfer_file node isOpen (bytes.first n) offset
    refine .inr ⟨_, w, hw, by simp, ?_, ?_, faults⟩
    · rw [Bytes.size_first]
      by_cases h : bytes.size ≤ n
      · exact .inl (Nat.min_eq_right h)
      · exact .inr (by rw [Nat.min_eq_left (by omega)])
    · have same : bytes.first (bytes.first n).size = bytes.first n := Bytes.ext (by simp)
      rwa [same]

end Write

end Volume

namespace FileHandle

/-- What a call that writes bytes under faults comes to: a front of the bytes is written, all of
them on success, and harmless faults do not stand in the way of success. -/
structure WritesFront (d : Nat) (p : Place) (content : Bytes) (offset : Nat) (bytes : Bytes)
    (faults : List WriteFault) (v : Volume) (r : Outcome × Volume) (n : Nat) : Prop where
  le : n ≤ bytes.size
  wrote : Volume.Wrote d p (content.patch offset (bytes.first n)) v r.2
  complete : r.1 = .ok () → n = bytes.size
  left : Volume.Leaves p faults v r.2
  succeeds : (∀ fault ∈ faults, fault.IsHarmless) → offset + bytes.size < Volume.offsetBound →
    r.1 = .ok ()

theorem WritesFront.weaken {d : Nat} {p : Place} {content : Bytes} {offset : Nat} {bytes : Bytes}
    {fault : WriteFault} {faults : List WriteFault} {u v : Volume} {a : Bytes}
    {r : Outcome × Volume} {n : Nat} (step : Volume.Wrote d p a u v)
    (same : v.writeFaults = u.writeFaults) (h : WritesFront d p content offset bytes faults v r n) :
    WritesFront d p content offset bytes (fault :: faults) u r n where
  le := h.le
  wrote := step.trans h.wrote
  complete := h.complete
  left := ⟨h.left.here.trans (List.suffix_cons _ _), (h.left.of_eq same).elsewhere⟩
  succeeds harmless := h.succeeds fun f hf => harmless f (List.mem_cons_of_mem _ hf)

/-- The first `done` bytes are taken; each case takes more of them, loses a fault, or ends. -/
theorem writeRest_spec (path : Text) {d : Nat} {bytes : Bytes} {offset : Nat} {p : Place}
    {content : Bytes} (faults : List WriteFault) {done : Nat} {v : Volume}
    (node : v.node? p = some (.file (content.patch offset (bytes.first done))))
    (isOpen : v.IsOpen d p) (within : done ≤ bytes.size) :
    ∃ n, WritesFront d p content offset bytes faults v
      (writeRest path d bytes offset faults done v) n := by
  have remaining {done : Nat} (within : done ≤ bytes.size) :
      offset + done + (bytes.rest done).size = offset + bytes.size := by
    rw [Bytes.size_rest]
    omega
  induction faults generalizing done v with
  | nil =>
    rw [writeRest]
    split
    · next all =>
      exact ⟨done, within, (Volume.Wrote.refl node isOpen).facing _, fun _ => by omega,
        isOpen.facing_leaves List.suffix_rfl, fun _ _ => rfl⟩
    obtain ⟨e, hw, refused⟩ | ⟨count, w, hw, le, full, wrote, same⟩ :=
      Volume.write_cases node isOpen none (bytes.rest done) (offset + done)
    · simp only [hw]
      refine ⟨done, within, (Volume.Wrote.refl node isOpen).facing _, fun h => ?_,
        isOpen.facing_leaves List.suffix_rfl, fun _ room => ?_⟩
      · cases h
      · cases refused (by rw [remaining within]; exact room)
    · obtain rfl : count = (bytes.rest done).size := by simpa using full
      have all : done + (bytes.rest done).size = bytes.size := by
        have := remaining within
        omega
      rw [Bytes.patch_first_patch_rest _ _ _ _ _ (by omega), all] at wrote
      simp only [hw]
      exact ⟨bytes.size, Nat.le_refl _, wrote.facing _,
        fun _ => rfl, (wrote.isOpen.facing_leaves List.suffix_rfl).of_eq same, fun _ _ => rfl⟩
  | cons fault faults ih =>
    rw [writeRest]
    split
    · next all =>
      exact ⟨done, within, (Volume.Wrote.refl node isOpen).facing _, fun _ => by omega,
        isOpen.facing_leaves List.suffix_rfl, fun _ _ => rfl⟩
    obtain ⟨e, hw, refused⟩ | ⟨count, w, hw, le, full, wrote, same⟩ :=
      Volume.write_cases node isOpen (some fault) (bytes.rest done) (offset + done)
    · simp only [hw]
      cases e with
      | interrupted =>
        obtain ⟨n, h⟩ := ih node isOpen within
        exact ⟨n, h.weaken (.refl node isOpen) rfl⟩
      | _ =>
        refine ⟨done, within, (Volume.Wrote.refl node isOpen).facing _, fun h => ?_,
          isOpen.facing_leaves (List.suffix_cons _ _), fun harmless room => ?_⟩
        · cases h
        · have harmless := harmless fault List.mem_cons_self
          rw [Option.some.inj (refused (by rw [remaining within]; exact room))] at harmless
          cases harmless
    · have fits := remaining within
      rw [Bytes.patch_first_patch_rest _ _ _ _ _ (by omega)] at wrote
      simp only [hw]
      cases count with
      | zero =>
        refine ⟨done, within, wrote.facing _,
          fun h => ?_, (wrote.isOpen.facing_leaves (List.suffix_cons _ _)).of_eq same,
          fun harmless _ => ?_⟩
        · cases h
        · obtain none | short := full
          · omega
          · have harmless := harmless fault List.mem_cons_self
            rw [Option.some.inj short] at harmless
            exact absurd harmless (Nat.lt_irrefl 0)
      | succ count =>
        obtain ⟨n, h⟩ := ih wrote.node wrote.isOpen (by omega)
        exact ⟨n, h.weaken wrote same⟩

/-- A handle is open on the file of a place, which has a content. -/
def Holds (f : FileHandle) (v : Volume) (p : Place) (content : Bytes) : Prop :=
  ∃ d, f.descriptor = some d ∧ v.IsOpen d p ∧ v.node? p = some (.file content)

/-- What is left of a volume after writes to one file. -/
structure Follows (p : Place) (v v' : Volume) : Prop where
  others : ∀ q, q ≠ p → v'.node? q = v.node? q
  closeFaults : v'.closeFaults = v.closeFaults
  writeFaults : ∀ q, v'.writeFaults q <:+ v.writeFaults q

theorem Follows.refl (p : Place) (v : Volume) : Follows p v v :=
  ⟨fun _ _ => rfl, rfl, fun _ => List.suffix_rfl⟩

theorem Follows.trans {p : Place} {u v w : Volume} (h : Follows p u v) (g : Follows p v w) :
    Follows p u w :=
  ⟨fun q hq => (g.others q hq).trans (h.others q hq), g.closeFaults.trans h.closeFaults,
    fun q => (g.writeFaults q).trans (h.writeFaults q)⟩

theorem Follows.writesGoOn {p : Place} {v v' : Volume} (h : Follows p v v') (g : v.WritesGoOn) :
    v'.WritesGoOn :=
  fun q fault hf => g q fault ((h.writeFaults q).mem hf)

theorem Follows.closes {p : Place} {v v' : Volume} (h : Follows p v v') (g : v.Closes) :
    v'.Closes := by
  rw [Volume.Closes, h.closeFaults]
  exact g

theorem writeAll_eq {f : FileHandle} {v : Volume} {d : Nat} {p : Place}
    (hd : f.descriptor = some d) (isOpen : v.IsOpen d p) (bytes : Bytes) (offset : Nat) :
    f.writeAll bytes offset v = writeRest f.path d bytes offset (v.writeFaults p) 0 v := by
  simp only [writeAll, hd, isOpen.faultsOf_eq]

/-- Whatever befalls a write, a front of the bytes is in the file afterwards. -/
theorem Holds.writeAll {f : FileHandle} {v : Volume} {p : Place} {content : Bytes}
    (h : f.Holds v p content) (bytes : Bytes) (offset : Nat) :
    ∃ n, n ≤ bytes.size ∧
      f.Holds (f.writeAll bytes offset v).2 p (content.patch offset (bytes.first n)) ∧
      Follows p v (f.writeAll bytes offset v).2 ∧
      ((f.writeAll bytes offset v).1 = .ok () → n = bytes.size) ∧
      (v.WritesGoOn → offset + bytes.size < Volume.offsetBound →
        (f.writeAll bytes offset v).1 = .ok ()) := by
  obtain ⟨d, hd, isOpen, node⟩ := h
  have start : v.node? p = some (.file (content.patch offset (bytes.first 0))) := by
    rw [node, Bytes.patch, if_pos (by simp)]
  obtain ⟨n, h⟩ := writeRest_spec f.path (v.faultsOf d) start isOpen (Nat.zero_le _)
  rw [isOpen.faultsOf_eq] at h
  rw [writeAll_eq hd isOpen]
  exact ⟨n, h.le, ⟨d, hd, h.wrote.isOpen, h.wrote.node⟩,
    ⟨h.wrote.others, h.wrote.closeFaults, h.left.suffix⟩, h.complete, fun calm => h.succeeds (calm p)⟩

/-- A write that succeeds has put all bytes in place. -/
theorem Holds.writeAll_ok {f : FileHandle} {v v' : Volume} {p : Place} {content bytes : Bytes}
    {offset : Nat} (h : f.Holds v p content) (ok : f.writeAll bytes offset v = (.ok (), v')) :
    f.Holds v' p (content.patch offset bytes) ∧ Follows p v v' := by
  obtain ⟨n, _, holds, follows, complete, _⟩ := h.writeAll bytes offset
  rw [ok] at holds follows complete
  rw [complete rfl, Bytes.first_size] at holds
  exact ⟨holds, follows⟩

/-- Where only harmless faults are ahead, a write below the greatest offset succeeds. -/
theorem Holds.writeAll_succeeds {f : FileHandle} {v : Volume} {p : Place} {content : Bytes}
    (h : f.Holds v p content) (calm : v.WritesGoOn) {bytes : Bytes} {offset : Nat}
    (room : offset + bytes.size < Volume.offsetBound) :
    ∃ v', f.writeAll bytes offset v = (.ok (), v') ∧ f.Holds v' p (content.patch offset bytes) ∧
      Follows p v v' := by
  obtain ⟨_, _, _, _, _, succeeds⟩ := h.writeAll bytes offset
  have ok : f.writeAll bytes offset v = (.ok (), (f.writeAll bytes offset v).2) :=
    Prod.ext (succeeds calm room) rfl
  exact ⟨_, ok, h.writeAll_ok ok⟩

/-- Opening a path that leads to a file or nowhere gives a handle on the path's file, emptied. -/
theorem openAt_ok {f f' : FileHandle} {v v' : Volume} {path : Text} (file : v.LeadsToFile path)
    (h : f.openAt path v = (.ok (), f', v')) :
    ∃ p, v'.find path = .ok p ∧ f'.Holds v' p ByteArray.empty ∧ Follows p v v' := by
  unfold openAt at h
  split at h
  · cases h
  cases ho : v.openWrite path with
  | error e => rw [ho] at h; cases h
  | ok r =>
    rw [ho] at h
    obtain ⟨d, w⟩ := r
    cases h
    obtain ⟨p, found, node, isOpen, others, faults, closeFaults⟩ := Volume.openWrite_spec file ho
    exact ⟨p, found, ⟨d, rfl, isOpen, node⟩, ⟨others, closeFaults, fun _ => faults ▸ List.suffix_rfl⟩⟩

/-- Closing a handle leaves every node. -/
theorem close_node? (f : FileHandle) (v : Volume) (q : Place) :
    (f.close v).2.2.node? q = v.node? q := by
  unfold close
  cases f.descriptor with
  | none => rfl
  | some d =>
    have same : (v.close d).2.nodes = v.nodes := by
      unfold Volume.close
      split
      · rfl
      · split <;> rfl
    dsimp only
    split <;> next closed => exact congrArg (·.lookup q) (closed ▸ same)

theorem Holds.close_ok {f : FileHandle} {v : Volume} {p : Place} {content : Bytes}
    (h : f.Holds v p content) (closes : v.Closes) : (f.close v).1 = .ok () := by
  obtain ⟨d, hd, isOpen, _⟩ := h
  simp only [close, hd, isOpen.close_eq, closes p]

/-! ## Failures -/

theorem openAt_refused {f f' : FileHandle} {path : Text} {v v' : Volume} {e : Failure}
    (h : f.openAt path v = (.error e, f', v')) : f' = f ∧ v' = v := by
  unfold openAt at h
  split at h
  · cases h
    exact ⟨rfl, rfl⟩
  · cases ho : v.openWrite path with
    | error reason =>
      rw [ho] at h
      cases h
      exact ⟨rfl, rfl⟩
    | ok r => rw [ho] at h; cases h

theorem openAt_isOpen {f f' : FileHandle} {path : Text} {v v' : Volume}
    (h : f.openAt path v = (.ok (), f', v')) : f'.isOpen := by
  unfold openAt at h
  split at h
  · cases h
  · cases ho : v.openWrite path with
    | error reason => rw [ho] at h; cases h
    | ok r => rw [ho] at h; cases h; rfl

/-- A handle that is closed has no descriptor, whatever the system reports. -/
theorem close_isOpen (f : FileHandle) (v : Volume) : (f.close v).2.1.isOpen = false := by
  unfold close
  split
  · next none => simp [isOpen, none]
  · split <;> rfl

/-- A write through a descriptor that fails is the system's failure. -/
theorem writeRest_error {path : Text} {d : Nat} {bytes : Bytes} {offset : Nat}
    {faults : List WriteFault} {done : Nat} {v v' : Volume} {e : Failure}
    (h : writeRest path d bytes offset faults done v = (.error e, v')) : e.kind = .io := by
  induction faults generalizing done v with
  | nil =>
    rw [writeRest] at h
    grind [Failure.kind]
  | cons fault faults ih =>
    rw [writeRest] at h
    grind [Failure.kind]

/-- A write of all bytes that fails is the system's failure, unless the handle has no descriptor. -/
theorem writeAll_error {f : FileHandle} {bytes : Bytes} {offset : Nat} {v v' : Volume}
    {e : Failure} (h : f.writeAll bytes offset v = (.error e, v')) :
    e.kind = .io ∨ e = .writeOnClosed ∧ v' = v := by
  unfold writeAll at h
  split at h
  · cases h
    exact .inr ⟨rfl, rfl⟩
  · exact .inl (writeRest_error h)

theorem writeAll_error_of_isOpen {f : FileHandle} (isOpen : f.isOpen) {bytes : Bytes}
    {offset : Nat} {v v' : Volume} {e : Failure}
    (h : f.writeAll bytes offset v = (.error e, v')) : e.kind = .io := by
  obtain ⟨d, hd⟩ := Option.isSome_iff_exists.1 isOpen
  unfold writeAll at h
  rw [hd] at h
  exact writeRest_error h

/-- A close that fails is the system's failure. -/
theorem close_error {f : FileHandle} {v : Volume} {e : Failure} (h : (f.close v).1 = .error e) :
    e.kind = .io := by
  unfold close at h
  split at h
  · cases h
  · split at h
    · cases h
    · cases h
      rfl

end FileHandle
end ForwardIndex
