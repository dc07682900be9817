import ForwardIndex.Proofs.FileHandle
import ForwardIndex.Proofs.Journey

/-!
# Operations at one place

An operation on a path is done on two volumes that agree where the path leads. It is answered alike
on both, leaves the same at the place of the path, and leaves every other place as it is. With the
same volume twice this says what an operation leaves alone. The descriptors that are handed out have
no say.
-/
set_option autoImplicit false
namespace ForwardIndex

namespace Volume

/-- What stands at a place, and what will befall the next writes and closes there. -/
structure Site where
  node : Option Node
  writeFaults : List WriteFault
  closeFaults : List (Option SystemError)

def site (v : Volume) (p : Place) : Site := ⟨v.node? p, v.writeFaults p, v.closeFaults p⟩

/-- A change at one place. -/
def Alters (p : Place) (change : Site → Site) (v w : Volume) : Prop :=
  ∀ q, w.site q = if q = p then change (v.site q) else v.site q

section Alters

variable (v : Volume) (p : Place)

theorem alters_of_node {w : Volume} {node : Option Node}
    (nodes : ∀ q, w.node? q = if q = p then node else v.node? q)
    (writeFaults : w.writeFaults = v.writeFaults) (closeFaults : w.closeFaults = v.closeFaults) :
    Alters p ({ · with node }) v w := by
  intro q
  rw [site, nodes, writeFaults, closeFaults]
  split <;> rfl

theorem put_alters (n : Node) : Alters p ({ · with node := some n }) v (v.put p n) :=
  alters_of_node v p (node?_put v p · n) rfl rfl

theorem erase_alters : Alters p ({ · with node := none }) v (v.erase p) :=
  alters_of_node v p (node?_erase v p) rfl rfl

variable {v p} {d : Nat}

theorem IsOpen.facing_alters (h : v.IsOpen d p) (faults : List WriteFault) :
    Alters p ({ · with writeFaults := faults }) v (v.facing d faults) := by
  intro q
  rw [site, h.facing_writeFaults, facing_eq]
  split <;> rfl

theorem IsOpen.close_alters (h : v.IsOpen d p) :
    Alters p (fun site => { site with closeFaults := site.closeFaults.tail }) v (v.close d).2 := by
  intro q
  rw [h.close_eq]
  by_cases here : q = p
  · subst here
    simp only [site, if_true]
    rfl
  · simp only [site, if_neg here]
    rfl

end Alters

/-- A path without links to follow leads to a place, by places at which two volumes agree. -/
structure Meets (path : Text) (p : Place) (v v' : Volume) : Prop where
  goal : Path.goal path = p
  plain : v.Plain
  plain' : v'.Plain
  way : ∀ q ∈ Path.journey path, q ≠ p → v'.node? q = v.node? q
  entries : ∀ name, v'.node? (name :: p) = v.node? (name :: p)

/-- Two volumes are the same at a place, which is no link, and elsewhere as two others. -/
structure Beside (p : Place) (v₀ v₀' v v' : Volume) : Prop where
  here : v'.site p = v.site p
  noLink : ∀ target, v.node? p ≠ some (.link target)
  left : ∀ q, q ≠ p → v.site q = v₀.site q
  right : ∀ q, q ≠ p → v'.site q = v₀'.site q

/-- A transfer changes nodes at most. -/
theorem transfer_eq (v : Volume) (p : Place) (bytes : Bytes) (offset : Nat) :
    ∃ nodes, (v.transfer p bytes offset).2 = { v with nodes } := by
  unfold transfer
  split
  · exact ⟨v.nodes, rfl⟩
  · split <;> exact ⟨_, rfl⟩

theorem IsOpen.transfer {v : Volume} {d : Nat} {q : Place} (h : v.IsOpen d q) (p : Place)
    (bytes : Bytes) (offset : Nat) : (v.transfer p bytes offset).2.IsOpen d q := by
  obtain ⟨nodes, kept⟩ := v.transfer_eq p bytes offset
  rw [kept]
  exact h

section Beside

variable {p : Place} {path : Text} {v₀ v₀' v v' w w' : Volume}

theorem Beside.node (h : Beside p v₀ v₀' v v') : v'.node? p = v.node? p :=
  congrArg Site.node h.here

theorem Beside.left_node (h : Beside p v₀ v₀' v v') {q : Place} (away : q ≠ p) :
    v.node? q = v₀.node? q :=
  congrArg Site.node (h.left q away)

/-- Descriptors have no say. -/
theorem Beside.of_sites (h : Beside p v₀ v₀' v v') (same : w.site = v.site)
    (same' : w'.site = v'.site) : Beside p v₀ v₀' w w' where
  here := by rw [same, same', h.here]
  noLink target node := h.noLink target ((congrArg (·.node) (congrFun same p)).symm.trans node)
  left q away := same ▸ h.left q away
  right q away := same' ▸ h.right q away

/-- The place is changed alike in both. -/
theorem Beside.alter (h : Beside p v₀ v₀' v v') {change : Site → Site} (left : Alters p change v w)
    (right : Alters p change v' w')
    (noLink : ∀ target, (change (v.site p)).node ≠ some (.link target)) :
    Beside p v₀ v₀' w w' where
  here := by rw [left, right, if_pos rfl, if_pos rfl, h.here]
  noLink target node := by
    have here := left p
    rw [if_pos rfl] at here
    exact noLink target (here ▸ node)
  left q away := by rw [left, if_neg away, h.left q away]
  right q away := by rw [right, if_neg away, h.right q away]

theorem Beside.put (h : Beside p v₀ v₀' v v') (content : Bytes) :
    Beside p v₀ v₀' (v.put p (.file content)) (v'.put p (.file content)) :=
  h.alter (v.put_alters p _) (v'.put_alters p _) nofun

theorem Beside.erase (h : Beside p v₀ v₀' v v') : Beside p v₀ v₀' (v.erase p) (v'.erase p) :=
  h.alter (v.erase_alters p) (v'.erase_alters p) nofun

theorem Beside.facing (h : Beside p v₀ v₀' v v') {d d' : Nat} (isOpen : v.IsOpen d p)
    (isOpen' : v'.IsOpen d' p) (faults : List WriteFault) :
    Beside p v₀ v₀' (v.facing d faults) (v'.facing d' faults) :=
  h.alter (isOpen.facing_alters faults) (isOpen'.facing_alters faults) h.noLink

theorem Beside.plain (h : Beside p v₀ v₀' v v') (plain : v₀.Plain) : v.Plain := by
  intro q target
  by_cases own : q = p
  · exact own ▸ h.noLink target
  · rw [h.left_node own]
    exact plain q target

theorem Beside.symm (h : Beside p v₀ v₀' v v') : Beside p v₀' v₀ v' v where
  here := h.here.symm
  noLink := by
    rw [h.node]
    exact h.noLink
  left := h.right
  right := h.left

theorem Beside.way (h : Beside p v₀ v₀' v v') (m : Meets path p v₀ v₀') :
    ∀ q ∈ Path.journey path, v'.node? q = v.node? q := by
  intro q hq
  by_cases own : q = p
  · exact own ▸ h.node
  · rw [h.left_node own, h.symm.left_node own, m.way q hq own]

theorem Beside.locate_eq (h : Beside p v₀ v₀' v v') (m : Meets path p v₀ v₀') (final : Final) :
    v'.locate final path = v.locate final path :=
  locate_congr (h.plain m.plain) (h.symm.plain m.plain') final (h.way m)

/-- Where the path leads to, if it leads anywhere. -/
theorem Beside.place_eq (h : Beside p v₀ v₀' v v') (m : Meets path p v₀ v₀') {final : Final}
    {a : Arrival} (located : v.locate final path = .ok a) : a.place = p :=
  (locate_goal (h.plain m.plain) located).trans m.goal

/-- Opening the path is refused in both alike, or gives a descriptor of the place in each. -/
theorem Beside.openWrite (h : Beside p v₀ v₀' v v') (m : Meets path p v₀ v₀') :
    (∃ e, v.openWrite path = .error e ∧ v'.openWrite path = .error e) ∨
      ∃ d w d' w', v.openWrite path = .ok (d, w) ∧ v'.openWrite path = .ok (d', w') ∧
        w.IsOpen d p ∧ w'.IsOpen d' p ∧ Beside p v₀ v₀' w w' := by
  have opened (u : Volume) : (u.handOut p).2.IsOpen (u.handOut p).1 p := by simp [handOut, IsOpen]
  have handOut {u u' : Volume} (h : Beside p v₀ v₀' u u') :
      Beside p v₀ v₀' (u.handOut p).2 (u'.handOut p).2 :=
    h.of_sites rfl rfl
  unfold Volume.openWrite
  rw [h.locate_eq m]
  cases located : v.locate .create path with
  | error e => exact .inl ⟨e, rfl, rfl⟩
  | ok a =>
    have place := h.place_eq m located
    cases a with
    | vacancy directory name =>
      obtain rfl : name :: directory = p := place
      exact .inr ⟨_, _, _, _, rfl, rfl, opened _, opened _, handOut (h.put _)⟩
    | entry q =>
      obtain rfl : q = p := place
      simp only [h.node]
      split
      · exact .inl ⟨_, rfl, rfl⟩
      · exact .inr ⟨_, _, _, _, rfl, rfl, opened _, opened _, handOut (h.put _)⟩
      · exact .inr ⟨_, _, _, _, rfl, rfl, opened _, opened _, handOut h⟩

/-- What stands at the place takes bytes alike in both. -/
theorem Beside.transfer (h : Beside p v₀ v₀' v v') (bytes : Bytes) (offset : Nat) :
    (v'.transfer p bytes offset).1 = (v.transfer p bytes offset).1 ∧
      Beside p v₀ v₀' (v.transfer p bytes offset).2 (v'.transfer p bytes offset).2 := by
  unfold Volume.transfer
  split
  · exact ⟨rfl, h⟩
  rw [h.node]
  split
  · exact ⟨rfl, h⟩
  · next content node =>
    have written {u : Volume} (node : u.node? p = some (.file content)) :=
      alters_of_node (w := { u with nodes := updateNode p (Bytes.writeAt · offset bytes) u.nodes })
        u p (lookup_updateNode node) rfl rfl
    exact ⟨rfl, h.alter (written node) (written (h.node.trans node)) nofun⟩
  · exact ⟨rfl, h⟩

/-- One write through a descriptor of the place goes alike in both, whatever befalls it. -/
theorem Beside.write (h : Beside p v₀ v₀' v v') {d d' : Nat} (isOpen : v.IsOpen d p)
    (isOpen' : v'.IsOpen d' p) (fault : Option WriteFault) (bytes : Bytes) (offset : Nat) :
    (v'.write fault d' bytes offset).1 = (v.write fault d bytes offset).1 ∧
      Beside p v₀ v₀' (v.write fault d bytes offset).2 (v'.write fault d' bytes offset).2 ∧
      (v.write fault d bytes offset).2.IsOpen d p ∧
      (v'.write fault d' bytes offset).2.IsOpen d' p := by
  have transferred (bytes : Bytes) :=
    And.intro (h.transfer bytes offset).1 <| And.intro (h.transfer bytes offset).2 <|
      And.intro (isOpen.transfer p bytes offset) (isOpen'.transfer p bytes offset)
  unfold Volume.write
  rw [show v.descriptors[d]? = some (some p) from isOpen,
    show v'.descriptors[d']? = some (some p) from isOpen']
  dsimp only
  split
  · exact ⟨rfl, h, isOpen, isOpen'⟩
  · cases fault with
    | none => exact transferred bytes
    | some fault =>
      cases fault with
      | refused reason => exact ⟨rfl, h, isOpen, isOpen'⟩
      | short count => exact transferred (bytes.first count)

/-- A removal of the place is refused in both alike, or done in both. -/
theorem Beside.remove (h : Beside p v₀ v₀' v v') (m : Meets path p v₀ v₀') :
    (∃ e, v.remove path = .error e ∧ v'.remove path = .error e) ∨
      ∃ w w', v.remove path = .ok w ∧ v'.remove path = .ok w' ∧ Beside p v₀ v₀' w w' := by
  have entries (name : Text) : v'.node? (name :: p) = v.node? (name :: p) := by
    have below : name :: p ≠ p := List.cons_ne_self name p
    rw [h.left_node below, h.symm.left_node below, m.entries]
  unfold Volume.remove
  rw [h.locate_eq m]
  split
  · exact .inr ⟨v, v', rfl, rfl, h⟩
  · exact .inr ⟨v, v', rfl, rfl, h⟩
  · exact .inl ⟨_, rfl, rfl⟩
  · next q located =>
    obtain rfl : q = p := h.place_eq m located
    have directory : v'.isDirectory q = v.isDirectory q := isDirectory_congr h.node
    dsimp only
    split
    · exact .inl ⟨_, rfl, rfl⟩
    rw [directory, hasEntries_congr entries]
    split
    · split
      · exact .inl ⟨_, rfl, rfl⟩
      · exact .inr ⟨_, _, rfl, rfl, h.erase⟩
    · split
      · exact .inl ⟨_, rfl, rfl⟩
      · exact .inr ⟨_, _, rfl, rfl, h.erase⟩

end Beside
end Volume

open Volume (Beside Meets)

/-! ## Handles -/

namespace FileHandle

/-- A handle of a path is open on a place. -/
def OpenOn (f : FileHandle) (p : Place) (v : Volume) : Prop :=
  ∃ d, f.descriptor = some d ∧ v.IsOpen d p

section Beside

variable {p : Place} {path : Text} {f f' : FileHandle} {v₀ v₀' v v' : Volume}

/-- What is left of the bytes is written alike; by induction on the faults ahead. -/
theorem writeRest_beside (path : Text) (bytes : Bytes) (offset : Nat) {d d' : Nat}
    (faults : List WriteFault) (done : Nat) (h : Beside p v₀ v₀' v v') (isOpen : v.IsOpen d p)
    (isOpen' : v'.IsOpen d' p) :
    (writeRest path d' bytes offset faults done v').1 =
        (writeRest path d bytes offset faults done v).1 ∧
      Beside p v₀ v₀' (writeRest path d bytes offset faults done v).2
        (writeRest path d' bytes offset faults done v').2 ∧
      (writeRest path d bytes offset faults done v).2.IsOpen d p ∧
      (writeRest path d' bytes offset faults done v').2.IsOpen d' p := by
  induction faults generalizing done v v' with
  | nil =>
    rw [writeRest, writeRest]
    obtain ⟨same, beside, kept, kept'⟩ :=
      h.write isOpen isOpen' none (bytes.rest done) (offset + done)
    split
    · exact ⟨rfl, h.facing isOpen isOpen' [], isOpen.facing_isOpen .., isOpen'.facing_isOpen ..⟩
    rcases left : v.write none d (bytes.rest done) (offset + done) with ⟨taken, w⟩
    rcases right : v'.write none d' (bytes.rest done) (offset + done) with ⟨taken', w'⟩
    rw [left] at kept
    rw [right] at kept'
    rw [left, right] at same beside
    obtain rfl : taken' = taken := same
    cases taken' <;>
      exact ⟨rfl, beside.facing kept kept' [], kept.facing_isOpen .., kept'.facing_isOpen ..⟩
  | cons fault faults ih =>
    rw [writeRest, writeRest]
    obtain ⟨same, beside, kept, kept'⟩ :=
      h.write isOpen isOpen' (some fault) (bytes.rest done) (offset + done)
    split
    · exact ⟨rfl, h.facing isOpen isOpen' _, isOpen.facing_isOpen .., isOpen'.facing_isOpen ..⟩
    rcases left : v.write (some fault) d (bytes.rest done) (offset + done) with ⟨taken, w⟩
    rcases right : v'.write (some fault) d' (bytes.rest done) (offset + done) with ⟨taken', w'⟩
    rw [left] at kept
    rw [right] at kept'
    rw [left, right] at same beside
    obtain rfl : taken' = taken := same
    cases taken' with
    | error e =>
      cases e with
      | interrupted => exact ih done beside kept kept'
      | _ =>
        exact ⟨rfl, beside.facing kept kept' faults, kept.facing_isOpen .., kept'.facing_isOpen ..⟩
    | ok count =>
      cases count with
      | zero =>
        exact ⟨rfl, beside.facing kept kept' faults, kept.facing_isOpen .., kept'.facing_isOpen ..⟩
      | succ count => exact ih _ beside kept kept'

/-- Two handles that are open on the place write alike. -/
theorem writeAll_beside (h : Beside p v₀ v₀' v v') (isOpen : f.OpenOn p v) (isOpen' : f'.OpenOn p v')
    (path : f'.path = f.path) (bytes : Bytes) (offset : Nat) :
    (f'.writeAll bytes offset v').1 = (f.writeAll bytes offset v).1 ∧
      Beside p v₀ v₀' (f.writeAll bytes offset v).2 (f'.writeAll bytes offset v').2 ∧
      f.OpenOn p (f.writeAll bytes offset v).2 ∧ f'.OpenOn p (f'.writeAll bytes offset v').2 := by
  obtain ⟨d, hd, isOpen⟩ := isOpen
  obtain ⟨d', hd', isOpen'⟩ := isOpen'
  have faults : v'.writeFaults p = v.writeFaults p := congrArg Volume.Site.writeFaults h.here
  rw [writeAll_eq hd isOpen, writeAll_eq hd' isOpen', path, faults]
  obtain ⟨same, beside, kept, kept'⟩ :=
    writeRest_beside f.path bytes offset (v.writeFaults p) 0 h isOpen isOpen'
  exact ⟨same, beside, ⟨d, hd, kept⟩, d', hd', kept'⟩

/-- They close alike. -/
theorem close_beside (h : Beside p v₀ v₀' v v') (isOpen : f.OpenOn p v) (isOpen' : f'.OpenOn p v')
    (path : f'.path = f.path) :
    (f'.close v').1 = (f.close v).1 ∧ Beside p v₀ v₀' (f.close v).2.2 (f'.close v').2.2 := by
  obtain ⟨d, hd, isOpen⟩ := isOpen
  obtain ⟨d', hd', isOpen'⟩ := isOpen'
  have faults : v'.closeFaults p = v.closeFaults p := congrArg Volume.Site.closeFaults h.here
  have beside : Beside p v₀ v₀' (v.close d).2 (v'.close d').2 :=
    h.alter isOpen.close_alters isOpen'.close_alters h.noLink
  rw [isOpen.close_eq, isOpen'.close_eq, faults] at beside
  simp only [close, hd, hd', isOpen.close_eq, isOpen'.close_eq, faults, path]
  cases (v.closeFaults p).headD none with
  | none => exact ⟨rfl, beside⟩
  | some e => exact ⟨rfl, beside⟩

/-- A file is made alike in both. -/
theorem create_beside (h : Beside p v₀ v₀' v v') (m : Meets path p v₀ v₀') (content : Bytes) :
    (create path content v').1 = (create path content v).1 ∧
      Beside p v₀ v₀' (create path content v).2 (create path content v').2 := by
  unfold create openAt
  rw [show isOpen {} = false from rfl]
  obtain ⟨e, refused, refused'⟩ | ⟨d, u, d', u', opened, opened', isOpen, isOpen', beside⟩ :=
    h.openWrite m
  · rw [refused, refused']
    exact ⟨rfl, h⟩
  · rw [opened, opened']
    have holds : OpenOn ⟨path, some d⟩ p u := ⟨d, rfl, isOpen⟩
    have holds' : OpenOn ⟨path, some d'⟩ p u' := ⟨d', rfl, isOpen'⟩
    obtain ⟨same, wrote, kept, kept'⟩ := writeAll_beside beside holds holds' rfl content 0
    obtain ⟨closed, after⟩ := close_beside wrote kept kept' rfl
    simp only [Bool.false_eq_true, if_false, same, closed]
    split
    · exact ⟨rfl, after⟩
    · exact ⟨rfl, after⟩

end Beside
end FileHandle
end ForwardIndex
