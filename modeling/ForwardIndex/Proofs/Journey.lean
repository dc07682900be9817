import ForwardIndex.Proofs.RejectedBuild

/-!
# Paths without links

In a tree without symbolic links the text of a path says which places it leads through and where it
ends, whatever stands there. What is done by a path depends on what stands at these places alone,
and changes nothing but its goal.
-/
set_option autoImplicit false
namespace ForwardIndex

namespace Place

/-- The places that names lead through from a place, their goal last. -/
@[grind] def journey (here : Place) : List Text → List Place
  | [] => [here]
  | name :: rest =>
    here ::
      if name = Path.current then journey here rest
      else if name = Path.parent then journey here.tail rest
      else journey (name :: here) rest

/-- Where names lead from a place. -/
@[grind] def goal (here : Place) : List Text → Place
  | [] => here
  | name :: rest =>
    if name = Path.current then goal here rest
    else if name = Path.parent then goal here.tail rest
    else goal (name :: here) rest

@[grind .] theorem mem_journey_start (here : Place) (names : List Text) :
    here ∈ journey here names := by
  cases names <;> simp [journey]

@[grind .] theorem goal_mem_journey (here : Place) (names : List Text) :
    goal here names ∈ journey here names := by
  fun_induction journey here names <;> grind

/-- A name below a directory is one place more. -/
theorem journey_concat {name : Text} (plain : name ≠ Path.current) (down : name ≠ Path.parent)
    (here : Place) (names : List Text) :
    journey here (names ++ [name]) = journey here names ++ [name :: goal here names] := by
  fun_induction journey here names <;> grind

theorem goal_concat {name : Text} (plain : name ≠ Path.current) (down : name ≠ Path.parent)
    (here : Place) (names : List Text) :
    goal here (names ++ [name]) = name :: goal here names := by
  fun_induction goal here names <;> grind

end Place

namespace Path

/-- The places that a path text leads through. -/
def journey (path : Text) : List Place :=
  Place.journey (ofText path.untilNul).start (ofText path.untilNul).names

/-- Where a path text leads. -/
def goal (path : Text) : Place :=
  Place.goal (ofText path.untilNul).start (ofText path.untilNul).names

theorem goal_mem (path : Text) : goal path ∈ journey path := Place.goal_mem_journey _ _

end Path

/-- The place of an arrival. -/
def Arrival.place : Arrival → Place
  | .entry p => p
  | .vacancy directory name => name :: directory

namespace Volume

/-- There is no symbolic link. -/
def Plain (v : Volume) : Prop := ∀ p target, v.node? p ≠ some (.link target)

theorem plain_of_nodes {v : Volume} (none : ∀ target, .link target ∉ v.nodes.map Prod.snd) :
    v.Plain := by
  intro p target stands
  unfold node? at stands
  refine none target ?_
  generalize v.nodes = nodes at stands
  induction nodes with
  | nil => cases stands
  | cons entry rest ih =>
    obtain ⟨q, n⟩ := entry
    rw [lookup_cons_eq] at stands
    split at stands
    · cases stands
      exact List.mem_cons_self
    · exact List.mem_cons_of_mem _ (ih stands)

section Walk

variable {v v' : Volume}

theorem isDirectory_congr {p : Place} (same : v'.node? p = v.node? p) :
    v'.isDirectory p = v.isDirectory p := by
  rw [isDirectory, isDirectory, same]

theorem walkNames_congr (last : LastName) {here : Place} {names : List Text}
    (same : ∀ p ∈ Place.journey here names, v'.node? p = v.node? p) :
    v'.walkNames last here names = v.walkNames last here names := by
  induction names generalizing here with
  | nil => rfl
  | cons name rest ih =>
    have directory := isDirectory_congr (same here (Place.mem_journey_start _ _))
    simp only [walkNames, directory]
    grind

/-- Without links a walk is never led away, and it ends where its names lead. -/
theorem walkNames_plain (plain : v.Plain) {last : LastName} {here : Place} {names : List Text}
    {leg : Leg} (h : v.walkNames last here names = .ok leg) :
    ∃ a, leg = .arrived a ∧ a.place = Place.goal here names := by
  induction names generalizing here with
  | nil =>
    cases h
    exact ⟨_, rfl, rfl⟩
  | cons name rest ih =>
    have onward : v.walkNames last (name :: here) rest = .ok leg →
        ∃ a, leg = .arrived a ∧ a.place = Place.goal (name :: here) rest := ih
    rw [walkNames] at h
    cases stands : v.node? (name :: here) with
    | none =>
      simp only [stands] at h
      grind [Arrival.place]
    | some node =>
      cases node with
      | link target => exact absurd stands (plain (name :: here) target)
      | file content =>
        simp only [stands] at h
        grind [Arrival.place]
      | directory =>
        simp only [stands] at h
        grind [Arrival.place]
      | device kind =>
        simp only [stands] at h
        grind [Arrival.place]

theorem checkDirectory_congr {required : Bool} {a : Arrival}
    (same : v'.node? a.place = v.node? a.place) :
    v'.checkDirectory required a = v.checkDirectory required a := by
  cases a with
  | entry p =>
    have directory : v'.isDirectory p = v.isDirectory p := isDirectory_congr same
    rw [checkDirectory, checkDirectory, directory]
  | vacancy directory name => rfl

theorem checkDirectory_ok {required : Bool} {a b : Arrival}
    (h : v.checkDirectory required a = .ok b) : a = b := by
  cases a <;> simp only [checkDirectory] at h <;> grind

/-- Without links a walk comes to its end in one leg. -/
theorem walk_plain (plain : v.Plain) (final : Final) (links : Nat) (here : Place)
    (names : List Text) (trailing : Bool) :
    v.walk final links here names trailing =
      match v.walkNames (final.lastName trailing) here names with
      | .ok (.arrived a) =>
        if final.lastName trailing = .unseen then .error .isDirectory
        else if final == .keep then .ok a
        else v.checkDirectory trailing a
      | .ok (.redirected ..) => .error .tooManyLinks
      | .error e => .error e := by
  unfold walk
  cases h : v.walkNames (final.lastName trailing) here names with
  | error e => rfl
  | ok leg =>
    obtain ⟨a, rfl, -⟩ := walkNames_plain plain h
    rfl

theorem walk_congr (plain : v.Plain) (plain' : v'.Plain) (final : Final) (links : Nat)
    {here : Place} {names : List Text} (trailing : Bool)
    (same : ∀ p ∈ Place.journey here names, v'.node? p = v.node? p) :
    v'.walk final links here names trailing = v.walk final links here names trailing := by
  rw [walk_plain plain, walk_plain plain', walkNames_congr _ same]
  cases h : v.walkNames (final.lastName trailing) here names with
  | error e => rfl
  | ok leg =>
    obtain ⟨a, rfl, place⟩ := walkNames_plain plain h
    have same := same _ (place ▸ Place.goal_mem_journey here names)
    simp only [checkDirectory_congr same]

theorem walk_goal (plain : v.Plain) {final : Final} {links : Nat} {here : Place}
    {names : List Text} {trailing : Bool} {a : Arrival}
    (h : v.walk final links here names trailing = .ok a) : a.place = Place.goal here names := by
  rw [walk_plain plain] at h
  cases walked : v.walkNames (final.lastName trailing) here names with
  | error e =>
    rw [walked] at h
    cases h
  | ok leg =>
    obtain ⟨b, rfl, place⟩ := walkNames_plain plain walked
    simp only [walked] at h
    split_ifs at h
    · cases h
      exact place
    · rw [← checkDirectory_ok h]
      exact place

theorem locate_congr (plain : v.Plain) (plain' : v'.Plain) (final : Final) {path : Text}
    (same : ∀ p ∈ Path.journey path, v'.node? p = v.node? p) :
    v'.locate final path = v.locate final path := by
  simp only [locate, walk_congr plain plain' final maxLinks _ same]

theorem locate_goal (plain : v.Plain) {final : Final} {path : Text} {a : Arrival}
    (h : v.locate final path = .ok a) : a.place = Path.goal path := by
  simp only [locate] at h
  split_ifs at h
  exact walk_goal plain h

theorem find_congr (plain : v.Plain) (plain' : v'.Plain) {path : Text}
    (same : ∀ p ∈ Path.journey path, v'.node? p = v.node? p) : v'.find path = v.find path := by
  rw [find, find, locate_congr plain plain' .follow same]

theorem find_goal (plain : v.Plain) {path : Text} {p : Place} (h : v.find path = .ok p) :
    p = Path.goal path := by
  unfold find at h
  cases located : v.locate .follow path with
  | error e =>
    rw [located] at h
    cases h
  | ok a =>
    have place := locate_goal plain located
    cases a <;> simp only [located] at h <;> cases h
    exact place

theorem read_congr (plain : v.Plain) (plain' : v'.Plain) {path : Text}
    (same : ∀ p ∈ Path.journey path, v'.node? p = v.node? p) : v'.read path = v.read path := by
  rw [read, read, find_congr plain plain' same]
  cases found : v.find path with
  | error e => rfl
  | ok p =>
    have goal := find_goal plain found
    simp only [same p (goal ▸ Path.goal_mem path)]

/-- An entry lies in a directory. -/
theorem hasEntries_iff {p : Place} : v.hasEntries p ↔ ∃ name, v.node? (name :: p) ≠ none := by
  unfold hasEntries node?
  induction v.nodes with
  | nil => simp
  | cons entry rest ih =>
    obtain ⟨q, n⟩ := entry
    simp only [List.any_cons, Bool.or_eq_true, ih, lookup_cons_eq]
    constructor
    · rintro (first | ⟨name, some⟩)
      · cases q with
        | nil => cases first
        | cons name parent =>
          obtain rfl : parent = p := by simpa using first
          exact ⟨name, by simp⟩
      · refine ⟨name, ?_⟩
        split <;> simp_all
    · rintro ⟨name, some⟩
      split at some
      · next same =>
        left
        simp [← same]
      · exact .inr ⟨name, some⟩

theorem hasEntries_congr {p : Place} (same : ∀ name, v'.node? (name :: p) = v.node? (name :: p)) :
    v'.hasEntries p = v.hasEntries p := by
  rw [Bool.eq_iff_iff, hasEntries_iff, hasEntries_iff]
  simp only [same]

/-- Where a walk by a name at its end arrives at an entry, something stands. -/
theorem walkNames_entry {last : LastName} {here p : Place} {names : List Text} {name : Text}
    (plain : name ≠ Path.current) (down : name ≠ Path.parent)
    (h : v.walkNames last here (names ++ [name]) = .ok (.arrived (.entry p))) :
    v.node? p ≠ none := by
  induction names generalizing here with
  | nil =>
    intro nothing
    rw [List.nil_append, walkNames] at h
    cases stands : v.node? (name :: here) with
    | none =>
      simp only [stands] at h
      grind
    | some node =>
      have arrives : v.walkNames last (name :: here) [] = .ok (.arrived (.entry (name :: here))) :=
        rfl
      cases node <;> simp only [stands] at h <;> grind
  | cons first rest ih =>
    rw [List.cons_append, walkNames] at h
    have more : rest ++ [name] ≠ [] := by simp
    cases stands : v.node? (first :: here) with
    | none =>
      simp only [stands] at h
      grind
    | some node => cases node <;> simp only [stands] at h <;> grind

end Walk

/-! ## Making directories -/

/-- A directory that is made is no link. -/
theorem createDirectory_plain {v v' : Volume} {path : Text} (plain : v.Plain)
    (made : v.createDirectory path = .ok v') : v'.Plain := by
  unfold createDirectory at made
  split at made
  · cases made
  · cases made
  · cases made
    intro p target
    rw [node?_put]
    split
    · exact nofun
    · exact plain p target

theorem createEach_plain {v : Volume} (plain : v.Plain) (paths : List Text) :
    (v.createEach paths).2.Plain := by
  induction paths generalizing v with
  | nil => exact plain
  | cons path rest ih =>
    rw [createEach]
    split
    · next made => exact ih (createDirectory_plain plain made)
    · split
      · exact ih plain
      · exact plain
    · exact plain

theorem createDirectories_plain {v : Volume} (plain : v.Plain) (path : Text) :
    (v.createDirectories path).2.Plain := by
  unfold createDirectories
  split
  · exact plain
  split
  · exact plain
  · exact plain
  · exact plain
  · dsimp only
    split
    · exact plain
    · exact createEach_plain plain _

end Volume
end ForwardIndex
