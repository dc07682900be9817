import ForwardIndex.Proofs.Bytes
import ForwardIndex.Volume.Operations
import Mathlib.Tactic.SplitIfs

/-!
# Trees under change

What stands at a place after a change of the tree, and where paths lead then. A path is led by
directories and links only, so a change of the content of a file redirects none; a new file is found
by the path that made it.
-/
set_option autoImplicit false
namespace ForwardIndex

/-- A node as far as paths are concerned: the content of a file leads nowhere. -/
def Node.outline : Node → Node
  | .file _ => .file ByteArray.empty
  | n => n

namespace Volume

/-! ## Nodes -/

theorem lookup_cons_eq (p q : Place) (n : Node) (nodes : List (Place × Node)) :
    ((p, n) :: nodes).lookup q = if q = p then some n else nodes.lookup q := by
  rw [List.lookup_cons]
  by_cases h : q = p
  · simp [h]
  · simp [h, beq_false_of_ne h]

theorem lookup_putNode (p q : Place) (n : Node) (nodes : List (Place × Node)) :
    (putNode p n nodes).lookup q = if q = p then some n else nodes.lookup q := by
  induction nodes with
  | nil => exact lookup_cons_eq p q n []
  | cons entry rest ih =>
    obtain ⟨r, m⟩ := entry
    simp only [putNode]
    by_cases h : r = p
    · subst h
      rw [if_pos rfl, lookup_cons_eq, lookup_cons_eq]
      split <;> rfl
    · rw [if_neg h, lookup_cons_eq, lookup_cons_eq, ih]
      by_cases hq : q = r
      · rw [if_pos hq, if_pos hq, if_neg (hq ▸ h)]
      · rw [if_neg hq, if_neg hq]

@[simp] theorem node?_put (v : Volume) (p q : Place) (n : Node) :
    (v.put p n).node? q = if q = p then some n else v.node? q :=
  lookup_putNode p q n v.nodes

theorem lookup_updateNode {p : Place} {f : Bytes → Bytes} {nodes : List (Place × Node)}
    {content : Bytes} (h : nodes.lookup p = some (.file content)) (q : Place) :
    (updateNode p f nodes).lookup q =
      if q = p then some (.file (f content)) else nodes.lookup q := by
  induction nodes with
  | nil => simp at h
  | cons entry rest ih =>
    obtain ⟨r, m⟩ := entry
    rw [lookup_cons_eq] at h
    simp only [updateNode]
    by_cases hr : r = p
    · rw [if_pos hr.symm] at h
      obtain rfl : m = .file content := Option.some.inj h
      rw [if_pos hr, lookup_cons_eq, lookup_cons_eq, hr]
      split <;> rfl
    · rw [if_neg (Ne.symm hr)] at h
      rw [if_neg hr, lookup_cons_eq, lookup_cons_eq, ih h]
      by_cases hq : q = r
      · rw [if_pos hq, if_pos hq, if_neg (hq ▸ hr)]
      · rw [if_neg hq, if_neg hq]

/-- Nothing changes but the content of the file at a place. -/
structure Touches (p : Place) (v v' : Volume) : Prop where
  outline : ∀ q, (v'.node? q).map Node.outline = (v.node? q).map Node.outline
  others : ∀ q, q ≠ p → v'.node? q = v.node? q

theorem touches_of_nodes {p : Place} {v v' : Volume} {old new : Bytes}
    (before : v.node? p = some (.file old)) (after : v'.node? p = some (.file new))
    (others : ∀ q, q ≠ p → v'.node? q = v.node? q) : Touches p v v' := by
  refine ⟨fun q => ?_, others⟩
  by_cases h : q = p
  · subst h
    rw [before, after]
    rfl
  · rw [others q h]

/-! ## Paths -/

section Outline

variable {v v' : Volume}
  (same : ∀ q, (v'.node? q).map Node.outline = (v.node? q).map Node.outline)
include same

theorem isDirectory_outline (q : Place) : v'.isDirectory q = v.isDirectory q := by
  have h := same q
  unfold isDirectory
  cases hv : v.node? q <;> cases hv' : v'.node? q <;> rw [hv, hv'] at h
  · simp at h
  · simp at h
  · next n n' => cases n <;> cases n' <;> simp_all [Node.outline]

theorem walkNames_outline (last : LastName) (here : Place) (names : List Text) :
    v'.walkNames last here names = v.walkNames last here names := by
  induction names generalizing here with
  | nil => rfl
  | cons name rest ih =>
    have h := same (name :: here)
    simp only [walkNames, isDirectory_outline same, ih]
    cases hv : v.node? (name :: here) <;> cases hv' : v'.node? (name :: here) <;> rw [hv, hv'] at h
    · simp at h
    · simp at h
    · next n n' => cases n <;> cases n' <;> simp_all [Node.outline]

theorem walk_outline (final : Final) (links : Nat) (here : Place) (names : List Text)
    (trailing : Bool) :
    v'.walk final links here names trailing = v.walk final links here names trailing := by
  have directory (required : Bool) (a : Arrival) :
      v'.checkDirectory required a = v.checkDirectory required a := by
    cases a <;> simp only [checkDirectory, isDirectory_outline same]
  induction links generalizing here names trailing with
  | zero =>
    rw [walk, walk, walkNames_outline same]
    simp only [directory]
  | succ links ih =>
    rw [walk, walk, walkNames_outline same]
    simp only [directory, ih]

theorem find_outline (path : Text) : v'.find path = v.find path := by
  simp only [find, locate, walk_outline same]

end Outline

theorem Touches.find_eq {p : Place} {v v' : Volume} (h : Touches p v v') (path : Text) :
    v'.find path = v.find path :=
  find_outline h.outline path

/-- A path that led to a file leads to it still when only its content has changed. -/
theorem read_changed {p : Place} {v v' : Volume} {path : Text} {old new : Bytes}
    (found : v.find path = .ok p) (before : v.node? p = some (.file old))
    (after : v'.node? p = some (.file new)) (others : ∀ q, q ≠ p → v'.node? q = v.node? q) :
    v'.read path = .bytes new := by
  rw [read, (touches_of_nodes before after others).find_eq, found]
  simp only [after]

/-- Everything stays where it stands, and what is new are files. -/
structure Grows (v v' : Volume) : Prop where
  kept : ∀ q n, v.node? q = some n → v'.node? q = some n
  added : ∀ q, v.node? q = none → v'.node? q = none ∨ ∃ content, v'.node? q = some (.file content)

theorem Grows.refl (v : Volume) : Grows v v := ⟨fun _ _ h => h, fun _ h => .inl h⟩

/-- Where an arrival is after the tree has grown: a vacancy may have been filled. -/
def grown (v : Volume) : Arrival → Arrival
  | .entry p => .entry p
  | .vacancy directory name =>
    if v.node? (name :: directory) = none then .vacancy directory name
    else .entry (name :: directory)

/-- A leg after the tree has grown; links lead where they led. -/
def grownLeg (v : Volume) : Leg → Leg
  | .arrived arrival => .arrived (v.grown arrival)
  | .redirected directory target rest => .redirected directory target rest

section Grows

variable {v v' : Volume} (g : Grows v v')
include g

theorem Grows.isDirectory {q : Place} (h : v.isDirectory q) : v'.isDirectory q := by
  have old : v.node? q = some .directory := by simpa [Volume.isDirectory] using h
  simp [Volume.isDirectory, g.kept q _ old]

/-- A walk that sees its last name, or is led away before, goes on as it went. -/
theorem walkNames_grows {last : LastName} (hk : last ≠ .keep) {here : Place} {names : List Text}
    {leg : Leg} (h : v.walkNames last here names = .ok leg)
    (hu : last = .unseen → ∀ arrival, leg ≠ .arrived arrival) :
    v'.walkNames .follow here names = .ok (v'.grownLeg leg) := by
  induction names generalizing here with
  | nil =>
    cases h
    rfl
  | cons name rest ih =>
    rw [walkNames] at h ⊢
    by_cases dir : v.isDirectory here
    case neg => simp [dir] at h
    rw [g.isDirectory dir]
    simp only [dir, Bool.not_true, Bool.false_eq_true, if_false] at h ⊢
    by_cases hc : name = Path.current
    · rw [if_pos hc] at h ⊢
      exact ih h
    rw [if_neg hc] at h ⊢
    by_cases hp : name = Path.parent
    · rw [if_pos hp] at h ⊢
      exact ih h
    rw [if_neg hp] at h ⊢
    have seen : ¬ (rest = [] ∧ last = .unseen) := by
      rintro ⟨rfl, rfl⟩
      simp only [and_self, if_true, Except.ok.injEq] at h
      exact hu rfl _ h.symm
    rw [if_neg seen] at h
    simp only [reduceCtorEq, and_false, if_false]
    by_cases long : maxNameLength < name.length
    case pos => simp [long] at h
    rw [if_neg long] at h ⊢
    cases hn : v.node? (name :: here) with
    | none =>
      simp only [hn] at h
      split at h
      · next ends =>
        cases h
        obtain vacant | ⟨content, file⟩ := g.added _ hn
        · simp [vacant, ends, grownLeg, grown]
        · simp [file, ends, walkNames, grownLeg, grown]
      · cases h
    | some node =>
      rw [g.kept _ _ hn]
      cases node with
      | link target =>
        simp only [hn, hk, and_false, if_false, Except.ok.injEq] at h ⊢
        subst h
        rfl
      | file content => simp only [hn] at h ⊢; exact ih h
      | directory => simp only [hn] at h ⊢; exact ih h
      | device kind => simp only [hn] at h ⊢; exact ih h

omit g in
/-- A walk that may create a file arrives by a path without a slash at its end, or is led on. -/
theorem walk_create_cases {links : Nat} {here : Place} {names : List Text} {trailing : Bool}
    {a : Arrival} (h : v.walk .create links here names trailing = .ok a) :
    (trailing = false ∧ v.walkNames .follow here names = .ok (.arrived a)) ∨
    ∃ left directory target rest, links = left + 1 ∧
      v.walkNames (Final.create.lastName trailing) here names =
        .ok (.redirected directory target rest) ∧
      v.walk .create left (if target.absolute then Place.root else directory)
        (target.names ++ rest) (if rest = [] then trailing || target.trailing else trailing) =
          .ok a := by
  rw [walk] at h
  cases hw : v.walkNames (Final.create.lastName trailing) here names with
  | error e => rw [hw] at h; cases h
  | ok leg =>
    rw [hw] at h
    cases leg with
    | arrived b =>
      cases trailing with
      | true => cases h
      | false =>
        have same : b = a := by cases b <;> exact Except.ok.inj h
        exact .inl ⟨rfl, same ▸ hw⟩
    | redirected directory target rest =>
      cases links with
      | zero => cases h
      | succ left => exact .inr ⟨left, directory, target, rest, rfl, rfl, h⟩

/-- A path that a file may be created at leads, after the tree has grown, to where it would have
been created. -/
theorem walk_grows {links : Nat} {here : Place} {names : List Text} {trailing : Bool} {a : Arrival}
    (h : v.walk .create links here names trailing = .ok a) :
    v'.walk .follow links here names trailing = .ok (v'.grown a) := by
  have follows (final : Bool) : Final.follow.lastName final = .follow := rfl
  have arrives (b : Arrival) : v'.checkDirectory false b = .ok b := by cases b <;> rfl
  induction links generalizing here names trailing with
  | zero =>
    obtain ⟨rfl, hw⟩ | ⟨_, _, _, _, hl, _⟩ := walk_create_cases h
    · rw [walk, follows, walkNames_grows g (by decide) hw (by simp)]
      exact arrives _
    · cases hl
  | succ links ih =>
    obtain ⟨rfl, hw⟩ | ⟨_, _, _, _, hl, hw, hr⟩ := walk_create_cases h
    · rw [walk, follows, walkNames_grows g (by decide) hw (by simp)]
      exact arrives _
    · cases hl
      rw [walk, follows, walkNames_grows g (by cases trailing <;> decide) hw (by simp)]
      exact ih hr

theorem locate_grows {path : Text} {a : Arrival} (h : v.locate .create path = .ok a) :
    v'.locate .follow path = .ok (v'.grown a) := by
  unfold locate at h ⊢
  dsimp only at h ⊢
  split at h
  · cases h
  split at h
  · cases h
  · next named short =>
    rw [if_neg named, if_neg short]
    exact walk_grows g h

end Grows

/-- Where a walk finds a vacancy, nothing stands. -/
theorem walkNames_vacancy {v : Volume} {here directory : Place} {names : List Text} {name : Text}
    (h : v.walkNames .follow here names = .ok (.arrived (.vacancy directory name))) :
    v.node? (name :: directory) = none := by
  induction names generalizing here with
  | nil => simp [walkNames] at h
  | cons first rest ih =>
    simp only [walkNames, reduceCtorEq, and_false, if_false] at h
    cases hn : v.node? (first :: here) with
    | none =>
      rw [hn] at h
      split_ifs at h
      · exact ih h
      · exact ih h
      · cases h
        exact hn
    | some node =>
      rw [hn] at h
      split_ifs at h
      · exact ih h
      · exact ih h
      all_goals
        cases node with
        | link target => cases h
        | file content => exact ih h
        | directory => exact ih h
        | device kind => exact ih h

theorem walk_vacancy {v : Volume} {links : Nat} {here directory : Place} {names : List Text}
    {trailing : Bool} {name : Text}
    (h : v.walk .create links here names trailing = .ok (.vacancy directory name)) :
    v.node? (name :: directory) = none := by
  induction links generalizing here names trailing with
  | zero =>
    obtain ⟨_, hw⟩ | ⟨_, _, _, _, hl, _⟩ := walk_create_cases h
    · exact walkNames_vacancy hw
    · cases hl
  | succ links ih =>
    obtain ⟨_, hw⟩ | ⟨_, _, _, _, hl, _, hr⟩ := walk_create_cases h
    · exact walkNames_vacancy hw
    · cases hl
      exact ih hr

theorem locate_vacancy {v : Volume} {path : Text} {directory : Place} {name : Text}
    (h : v.locate .create path = .ok (.vacancy directory name)) :
    v.node? (name :: directory) = none := by
  simp only [locate] at h
  split_ifs at h
  exact walk_vacancy h

/-! ## Opening -/

/-- What stands where a path leads, if anything does, is a file. -/
def LeadsToFile (v : Volume) (path : Text) : Prop :=
  ∀ p, v.find path = .ok p → ∃ content, v.node? p = some (.file content)

/-- A descriptor is open on a place. -/
def IsOpen (v : Volume) (d : Nat) (p : Place) : Prop := v.descriptors[d]? = some (some p)

theorem grows_put {v : Volume} {p : Place} (h : v.node? p = none) (content : Bytes) :
    Grows v (v.put p (.file content)) := by
  refine ⟨fun q n hq => ?_, fun q hq => ?_⟩
  · have ne : q ≠ p := by
      rintro rfl
      simp [h] at hq
    simpa [ne] using hq
  · by_cases e : q = p
    · exact .inr ⟨content, by simp [e]⟩
    · exact .inl (by simpa [e] using hq)

/-- Opening a path for writing gives a descriptor of the empty file that the path now leads to. -/
theorem openWrite_spec {v v' : Volume} {path : Text} {d : Nat} (file : v.LeadsToFile path)
    (h : v.openWrite path = .ok (d, v')) :
    ∃ p, v'.find path = .ok p ∧ v'.node? p = some (.file ByteArray.empty) ∧ v'.IsOpen d p ∧
      (∀ q, q ≠ p → v'.node? q = v.node? q) ∧ v'.writeFaults = v.writeFaults ∧
      v'.closeFaults = v.closeFaults := by
  have opened (p : Place) :
      (((v.put p (.file ByteArray.empty)).handOut p).2).IsOpen
        ((v.put p (.file ByteArray.empty)).handOut p).1 p := by
    simp [handOut, IsOpen]
  have nodes (p q : Place) : ((v.put p (.file ByteArray.empty)).handOut p).2.node? q =
      if q = p then some (.file ByteArray.empty) else v.node? q := node?_put v p q _
  unfold openWrite at h
  cases hl : v.locate .create path with
  | error e => rw [hl] at h; cases h
  | ok a =>
    rw [hl] at h
    cases a with
    | vacancy directory name =>
      have e := Except.ok.inj h
      obtain rfl : _ = d := congrArg Prod.fst e
      obtain rfl : _ = v' := congrArg Prod.snd e
      have g := grows_put (locate_vacancy hl) ByteArray.empty
      refine ⟨name :: directory, ?_, by simp [nodes], opened _, ?_, rfl, rfl⟩
      · rw [find_outline fun q => congrArg _ ((nodes _ q).trans (node?_put v _ q _).symm), find,
          locate_grows g hl]
        simp [grown]
      · intro q hq
        simp [nodes, hq]
    | entry p =>
      have found : v.find path = .ok p := by
        rw [find, locate_grows (Grows.refl v) hl]
        rfl
      obtain ⟨content, hn⟩ := file p found
      simp only [hn] at h
      have e := Except.ok.inj h
      obtain rfl : _ = d := congrArg Prod.fst e
      obtain rfl : _ = v' := congrArg Prod.snd e
      have others (q : Place) (hq : q ≠ p) :
          ((v.put p (.file ByteArray.empty)).handOut p).2.node? q = v.node? q := by
        simp [nodes, hq]
      have emptied := (nodes p p).trans (if_pos rfl)
      exact ⟨p, ((touches_of_nodes hn emptied others).find_eq path).trans found, emptied, opened p,
        others, rfl, rfl⟩

end Volume
end ForwardIndex
