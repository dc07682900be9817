import ForwardIndex.Proofs.Journey

/-!
# Making a file and removing it again

A file is made where a path leads with its links followed, and it is removed where the path leads
with a link at its end kept. For a path that leads to no link these are the same place, so what was
made by a path is removed by it, and nothing is left there.
-/
set_option autoImplicit false
namespace ForwardIndex

namespace Volume

variable {v v' : Volume}

/-! ## Keeping a link at the end -/

/-- All that a walk can come to at a name: it goes on, it ends there, or a link leads it away. -/
inductive Turn (v : Volume) (last : LastName) (here : Place) (name : Text) (rest : List Text) :
    Leg → Prop
  | onward {leg : Leg} {next : Place} (walked : v.walkNames last next rest = .ok leg) :
      Turn v last here name rest leg
  | vacant (ends : rest = []) (plain : name ≠ Path.current) (down : name ≠ Path.parent) :
      Turn v last here name rest (.arrived (.vacancy here name))
  | kept {target : Text} (link : v.node? (name :: here) = some (.link target)) (ends : rest = [])
      (keep : last = .keep) : Turn v last here name rest (.arrived (.entry (name :: here)))
  | away {target : Text} (link : v.node? (name :: here) = some (.link target))
      (more : rest = [] → last = .follow) :
      Turn v last here name rest (.redirected here (Path.ofText target) rest)

/-- By the branches of `walkNames`, in their order. -/
theorem walkNames_turn {last : LastName} {here : Place} {name : Text} {rest : List Text} {leg : Leg}
    (h : v.walkNames last here (name :: rest) = .ok leg) : Turn v last here name rest leg := by
  rw [walkNames] at h
  by_cases dot : name = Path.current ∨ name = Path.parent
  · have : ∃ next, v.walkNames last next rest = .ok leg := by grind
    obtain ⟨next, walked⟩ := this
    exact .onward walked
  obtain ⟨plain, down⟩ := not_or.1 dot
  rw [if_neg plain, if_neg down] at h
  cases stands : v.node? (name :: here) with
  | none =>
    simp only [stands] at h
    split_ifs at h with _ unseen _ ends
    · cases h
      exact .vacant unseen.1 plain down
    · cases h
      exact .vacant ends plain down
  | some node =>
    cases node with
    | link target =>
      simp only [stands] at h
      split_ifs at h with _ unseen _ kept
      · cases h
        exact .vacant unseen.1 plain down
      · cases h
        exact .kept stands kept.1 kept.2
      · cases h
        refine .away stands fun ends => ?_
        cases last with
        | follow => rfl
        | keep => exact absurd ⟨ends, rfl⟩ kept
        | unseen => exact absurd ⟨ends, rfl⟩ unseen
    | _ =>
      simp only [stands] at h
      split_ifs at h with _ unseen _
      · cases h
        exact .vacant unseen.1 plain down
      · exact .onward h

/-- The names that are left in front of a link end as all names do, and there are some, unless links
at the end are followed. -/
theorem walkNames_redirected {last : LastName} {here directory : Place} {names rest : List Text}
    {target : Path} (h : v.walkNames last here names = .ok (.redirected directory target rest)) :
    rest <:+ names ∧ (rest = [] → last = .follow) := by
  induction names generalizing here with
  | nil => cases h
  | cons name others ih =>
    cases walkNames_turn h with
    | onward walked => exact (ih walked).imp_left fun ends => ends.trans (List.suffix_cons _ _)
    | away link more => exact ⟨List.suffix_cons _ _, more⟩

theorem walkNames_more {last : LastName} (unfollowed : last ≠ .follow) {here directory : Place}
    {names rest : List Text} {target : Path}
    (h : v.walkNames last here names = .ok (.redirected directory target rest)) : rest ≠ [] :=
  mt (walkNames_redirected h).2 unfollowed

/-- A vacancy has the last of the names, which is no dot name. -/
theorem walkNames_vacancy_name {last : LastName} {here directory : Place} {names : List Text}
    {name : Text} (h : v.walkNames last here names = .ok (.arrived (.vacancy directory name))) :
    names.getLast? = some name ∧ name ≠ Path.current ∧ name ≠ Path.parent := by
  induction names generalizing here with
  | nil => cases h
  | cons first rest ih =>
    cases walkNames_turn h with
    | onward walked =>
      obtain ⟨ends, plain⟩ := ih walked
      exact ⟨by rw [List.getLast?_cons, ends]; rfl, plain⟩
    | vacant ends plain down =>
      subst ends
      exact ⟨rfl, plain, down⟩

/-- The legs of a walk that keeps a link at its end, with so many links left. -/
inductive Trail (v : Volume) (a : Arrival) : Nat → Place → List Text → Prop
  | arrives {links : Nat} {here : Place} {names : List Text}
      (walked : v.walkNames .keep here names = .ok (.arrived a)) : Trail v a links here names
  | leads {links : Nat} {here directory : Place} {names rest : List Text} {target : Path}
      (walked : v.walkNames .keep here names = .ok (.redirected directory target rest))
      (onward : Trail v a links (if target.absolute then Place.root else directory)
        (target.names ++ rest)) : Trail v a (links + 1) here names

/-- A slash at the end has no say. -/
theorem walk_keep_iff {links : Nat} {here : Place} {names : List Text} {trailing : Bool}
    {a : Arrival} :
    v.walk .keep links here names trailing = .ok a ↔ Trail v a links here names := by
  have keeps : Final.keep.lastName trailing = .keep := rfl
  constructor
  · intro h
    induction links generalizing here names with
    | zero =>
      rw [walk, keeps] at h
      cases walked : v.walkNames .keep here names with
      | error e => rw [walked] at h; cases h
      | ok leg =>
        rw [walked] at h
        cases leg with
        | arrived b => cases h; exact .arrives walked
        | redirected directory target rest => cases h
    | succ links ih =>
      rw [walk, keeps] at h
      cases walked : v.walkNames .keep here names with
      | error e => rw [walked] at h; cases h
      | ok leg =>
        rw [walked] at h
        cases leg with
        | arrived b => cases h; exact .arrives walked
        | redirected directory target rest =>
          have more := walkNames_more (by decide) walked
          simp only [if_neg more] at h
          exact .leads walked (ih h)
  · intro trail
    induction trail with
    | arrives walked =>
      rw [walk, keeps, walked]
      rfl
    | leads walked _ ih =>
      have more := walkNames_more (by decide) walked
      rw [walk, keeps, walked]
      simpa only [if_neg more] using ih

/-- The last leg of a trail goes by names that end as those of the path do. -/
theorem Trail.last {links : Nat} {here : Place} {names : List Text} {a : Arrival}
    (trail : Trail v a links here names) : ∃ here' names', names'.getLast? = names.getLast? ∧
      v.walkNames .keep here' names' = .ok (.arrived a) := by
  induction trail with
  | arrives walked => exact ⟨_, _, rfl, walked⟩
  | leads walked _ ih =>
    obtain ⟨here', names', ends, arrives⟩ := ih
    have more := walkNames_more (by decide) walked
    obtain ⟨before, rfl⟩ := (walkNames_redirected walked).1
    refine ⟨here', names', ends.trans ?_, arrives⟩
    rw [List.getLast?_append_of_ne_nil _ more, List.getLast?_append_of_ne_nil _ more]

/-- A path leads to an entry by its last name: something stands there, unless it is a dot name. -/
theorem locate_keep_entry {path : Text} {p : Place} (h : v.locate .keep path = .ok (.entry p))
    (named : refuseRemoval (Path.ofText path.untilNul) = none) : v.node? p ≠ none := by
  simp only [locate] at h
  split_ifs at h
  obtain ⟨here, names, ends, arrives⟩ := (walk_keep_iff.1 h).last
  unfold refuseRemoval at named
  cases last : (Path.ofText path.untilNul).names.getLast? with
  | none => rw [last] at named; cases named
  | some name =>
    simp only [last] at named
    split_ifs at named with plain down
    obtain ⟨before, rfl⟩ := List.getLast?_eq_some_iff.1 (ends.trans last)
    exact walkNames_entry plain down arrives

/-- The name of a vacancy is that of an entry. -/
theorem locate_keep_vacancy {path name : Text} {directory : Place}
    (h : v.locate .keep path = .ok (.vacancy directory name)) :
    refuseRemoval (Path.ofText path.untilNul) = none := by
  simp only [locate] at h
  split_ifs at h
  obtain ⟨here, names, ends, arrives⟩ := (walk_keep_iff.1 h).last
  obtain ⟨last, plain, down⟩ := walkNames_vacancy_name arrives
  simp only [refuseRemoval, ends.symm.trans last, if_neg plain, if_neg down]

/-! ## Trees that grow -/

/-- What a walk meets on its way it meets in a tree that has grown, too. -/
theorem walkNames_keep_grows (g : Grows v v') {here : Place} {names : List Text} {leg : Leg}
    (h : v.walkNames .keep here names = .ok leg) :
    v'.walkNames .keep here names = .ok (v'.grownLeg leg) := by
  induction names generalizing here with
  | nil =>
    cases h
    rfl
  | cons name rest ih =>
    have kept := g.kept (name :: here)
    have added := g.added (name :: here)
    have directory : v.isDirectory here → v'.isDirectory here := g.isDirectory
    rw [walkNames] at h ⊢
    cases hn : v.node? (name :: here) with
    | none =>
      simp only [hn] at h
      obtain vacant | ⟨content, file⟩ := added hn
      · simp only [vacant]
        grind [grown, grownLeg]
      · simp only [file]
        grind [grown, grownLeg, walkNames]
    | some node =>
      simp only [kept _ hn]
      cases node <;> grind [grown, grownLeg]

theorem Trail.grows (g : Grows v v') {links : Nat} {here : Place} {names : List Text} {a : Arrival}
    (trail : Trail v a links here names) : Trail v' (v'.grown a) links here names := by
  induction trail with
  | arrives walked => exact .arrives (walkNames_keep_grows g walked)
  | leads walked _ ih => exact .leads (walkNames_keep_grows g walked) ih

theorem locate_keep_grows (g : Grows v v') {path : Text} {a : Arrival}
    (h : v.locate .keep path = .ok a) : v'.locate .keep path = .ok (v'.grown a) := by
  unfold locate at h ⊢
  dsimp only at h ⊢
  split_ifs at h ⊢
  exact walk_keep_iff.2 ((walk_keep_iff.1 h).grows g)

theorem grows_erase {p : Place} {content : Bytes} (file : v.node? p = some (.file content)) :
    Grows (v.erase p) v := by
  refine ⟨fun q n stands => ?_, fun q gone => ?_⟩
  · rw [node?_erase] at stands
    split_ifs at stands
    exact stands
  · rw [node?_erase] at gone
    split_ifs at gone with here
    · exact .inr ⟨content, here ▸ file⟩
    · exact .inl gone

/-- Where a file was removed by a path, the path leads to no entry. -/
theorem locate_erase {path : Text} {p : Place} {content : Bytes} (h : v.Removable path p)
    (file : v.node? p = some (.file content)) (q : Place) :
    (v.erase p).locate .keep path ≠ .ok (.entry q) := by
  intro located
  have g := grows_erase file
  -- With the file put back the path leads to the same entry: the one that is gone.
  have same : q = p := by
    have before := (locate_keep_grows g located).symm.trans h.entry
    cases before
    rfl
  refine locate_keep_entry located h.named ?_
  rw [same, node?_erase, if_pos rfl]

/-! ## Following a link at the end -/

/-- A walk that follows links arrives where one that keeps a link at its end arrives, unless that is
a link. -/
theorem walkNames_follow_keep {here : Place} {names : List Text} {leg : Leg}
    (h : v.walkNames .follow here names = .ok leg) :
    v.walkNames .keep here names = .ok leg ∨
      ∃ p target, v.walkNames .keep here names = .ok (.arrived (.entry p)) ∧
        v.node? p = some (.link target) := by
  induction names generalizing here with
  | nil => exact .inl h
  | cons name rest ih =>
    rw [walkNames] at h ⊢
    cases stands : v.node? (name :: here) with
    | none =>
      simp only [stands] at h
      grind
    | some node => cases node <;> simp only [stands] at h <;> grind

/-- Nothing is created by a path that ends in a slash. -/
theorem walk_create_trailing {links : Nat} {here : Place} {names : List Text} {trailing : Bool}
    {a : Arrival} (h : v.walk .create links here names trailing = .ok a) : trailing = false := by
  induction links generalizing here names trailing with
  | zero =>
    obtain ⟨plain, _⟩ | ⟨_, _, _, _, none, _⟩ := walk_create_cases h
    · exact plain
    · cases none
  | succ links ih =>
    obtain ⟨plain, _⟩ | ⟨_, _, target, rest, left, walked, onward⟩ := walk_create_cases h
    · exact plain
    cases left
    have plain := ih onward
    cases trailing with
    | false => rfl
    | true =>
      -- The last name is not looked up, so it is not the link that leads away.
      have more := walkNames_more (by decide) walked
      rw [if_neg more] at plain
      cases plain

theorem walk_create_keep {links : Nat} {here : Place} {names : List Text} {a : Arrival}
    (h : v.walk .create links here names false = .ok a) :
    Trail v a links here names ∨
      ∃ p target, Trail v (.entry p) links here names ∧ v.node? p = some (.link target) := by
  have arrives {links : Nat} {here : Place} {names : List Text}
      (walked : v.walkNames .follow here names = .ok (.arrived a)) :
      Trail v a links here names ∨
        ∃ p target, Trail v (.entry p) links here names ∧ v.node? p = some (.link target) := by
    obtain kept | ⟨p, target, kept, link⟩ := walkNames_follow_keep walked
    · exact .inl (.arrives kept)
    · exact .inr ⟨p, target, .arrives kept, link⟩
  induction links generalizing here names with
  | zero =>
    obtain ⟨_, walked⟩ | ⟨_, _, _, _, none, _⟩ := walk_create_cases h
    · exact arrives walked
    · cases none
  | succ links ih =>
    obtain ⟨_, walked⟩ | ⟨_, _, target, rest, left, walked, onward⟩ := walk_create_cases h
    · exact arrives walked
    cases left
    obtain kept | ⟨p, target, kept, link⟩ := walkNames_follow_keep walked
    · have more := walkNames_more (by decide) kept
      rw [if_neg more] at onward
      exact (ih onward).imp (.leads kept) fun ⟨p, target, trail, link⟩ =>
        ⟨p, target, .leads kept trail, link⟩
    · exact .inr ⟨p, target, .arrives kept, link⟩

theorem locate_create_keep {path : Text} {a : Arrival} (h : v.locate .create path = .ok a) :
    (Path.ofText path.untilNul).trailing = false ∧ (v.locate .keep path = .ok a ∨
      ∃ p target, v.locate .keep path = .ok (.entry p) ∧ v.node? p = some (.link target)) := by
  unfold locate at h ⊢
  dsimp only at h ⊢
  split_ifs at h ⊢
  have plain := walk_create_trailing h
  rw [plain] at h
  refine ⟨plain, ?_⟩
  simp only [walk_keep_iff]
  exact walk_create_keep h

/-! ## Files that can be replaced -/

/-- A path leads to a file, which can be removed by it. -/
structure OwnsFile (v : Volume) (path : Text) (p : Place) : Prop extends v.Removable path p where
  file : ∃ content, v.node? p = some (.file content)

/-- What stands at a path, if anything does, is a file that can be removed by the path. -/
def Replaceable (v : Volume) (path : Text) : Prop :=
  ∀ p, v.locate .keep path = .ok (.entry p) → v.OwnsFile path p

/-- There is a file at a place, and at every other place what was there before. -/
structure Fills (p : Place) (v v' : Volume) : Prop where
  file : ∃ content, v'.node? p = some (.file content)
  others : ∀ q, q ≠ p → v'.node? q = v.node? q

theorem isDirectory_file {p : Place} {content : Bytes} (file : v.node? p = some (.file content)) :
    v.isDirectory p = false := by
  simp [isDirectory, file]

/-- A file at a path that asks for no directory can be replaced. -/
theorem replaceable_of_file {path : Text} {p : Place} {content : Bytes}
    (located : v.locate .keep path = .ok (.entry p)) (file : v.node? p = some (.file content))
    (named : refuseRemoval (Path.ofText path.untilNul) = none)
    (plain : (Path.ofText path.untilNul).trailing = false) : v.Replaceable path := by
  intro q entry
  cases located.symm.trans entry
  refine ⟨⟨located, by simp [file], named, ?_⟩, content, file⟩
  rwa [isDirectory_file file, if_neg (by decide)]

theorem locate_outline (same : ∀ q, (v'.node? q).map Node.outline = (v.node? q).map Node.outline)
    (final : Final) (path : Text) : v'.locate final path = v.locate final path := by
  simp only [locate, walk_outline same]

/-- A path leads to a file that it owns whatever is written to it. -/
theorem OwnsFile.fills {path : Text} {p : Place} (h : v.OwnsFile path p) (g : Fills p v v') :
    v'.OwnsFile path p := by
  obtain ⟨old, before⟩ := h.file
  obtain ⟨new, after⟩ := g.file
  have kind := h.kind
  rw [isDirectory_file before] at kind
  refine ⟨⟨?_, by simp [after], h.named, ?_⟩, g.file⟩
  · rw [locate_outline (touches_of_nodes before after g.others).outline]
    exact h.entry
  · rw [isDirectory_file after]
    exact kind

/-- The file of a path was made or written, where the path led before or where nothing stood, and
nothing else has changed. -/
structure Made (path : Text) (p : Place) (v v' : Volume) : Prop where
  owned : v'.OwnsFile path p
  fills : Fills p v v'
  before : v.locate .keep path = .ok (.entry p) ∨
    v.node? p = none ∧ ∀ q, v.locate .keep path ≠ .ok (.entry q)

theorem Made.refl {path : Text} {p : Place} (r : v.Replaceable path)
    (located : v.locate .keep path = .ok (.entry p)) : Made path p v v :=
  ⟨r p located, ⟨(r p located).file, fun _ _ => rfl⟩, .inl located⟩

/-- What is written to the file later makes no difference. -/
theorem Made.fill {path : Text} {p : Place} {u : Volume} (h : Made path p v u)
    (g : Fills p v v') : Made path p v v' := by
  have later : Fills p u v' :=
    ⟨g.file, fun q hq => (g.others q hq).trans (h.fills.others q hq).symm⟩
  exact ⟨h.owned.fills later, g, h.before⟩

/-- Opening a replaceable path for writing makes its file. -/
theorem Replaceable.openWrite {path : Text} {d : Nat} (r : v.Replaceable path)
    (opened : v.openWrite path = .ok (d, v')) : ∃ p, Made path p v v' ∧ v'.IsOpen d p := by
  have fills (p : Place) : Fills p v ((v.put p (.file ByteArray.empty)).handOut p).2 := by
    refine ⟨⟨ByteArray.empty, (node?_put v p p _).trans (if_pos rfl)⟩, fun q other => ?_⟩
    exact (node?_put v p q _).trans (if_neg other)
  have isOpen (p : Place) : (((v.put p (.file ByteArray.empty)).handOut p).2).IsOpen
      ((v.put p (.file ByteArray.empty)).handOut p).1 p := by
    simp [handOut, IsOpen]
  unfold Volume.openWrite at opened
  cases located : v.locate .create path with
  | error e => rw [located] at opened; cases opened
  | ok a =>
    rw [located] at opened
    obtain ⟨plain, kept | ⟨p, target, kept, link⟩⟩ := locate_create_keep located
    case inr =>
      obtain ⟨content, file⟩ := (r p kept).file
      cases file.symm.trans link
    cases a with
    | vacancy directory name =>
      have nothing := locate_vacancy located
      have e := Except.ok.inj opened
      obtain rfl : _ = d := congrArg Prod.fst e
      obtain rfl : _ = v' := congrArg Prod.snd e
      have filled := fills (name :: directory)
      obtain ⟨content, file⟩ := filled.file
      have g : Grows v ((v.put (name :: directory) (.file ByteArray.empty)).handOut
          (name :: directory)).2 :=
        have put := grows_put nothing ByteArray.empty
        ⟨put.kept, put.added⟩
      refine ⟨name :: directory,
        ⟨⟨⟨?_, by simp [file], locate_keep_vacancy kept, ?_⟩, filled.file⟩, filled,
          .inr ⟨nothing, fun q entry => by cases kept.symm.trans entry⟩⟩, isOpen _⟩
      · rw [locate_keep_grows g kept, grown, if_neg (by simp [file])]
      · rw [isDirectory_file file]
        exact plain
    | entry p =>
      have there := Made.refl r kept
      obtain ⟨content, file⟩ := there.owned.file
      simp only [file] at opened
      have e := Except.ok.inj opened
      obtain rfl : _ = d := congrArg Prod.fst e
      obtain rfl : _ = v' := congrArg Prod.snd e
      exact ⟨p, there.fill (fills p), isOpen p⟩

/-! ## What a removal leaves -/

/-- Nothing stands at a path, what stood there is gone, and all else is as it was. -/
structure Cleared (path : Text) (v v' : Volume) : Prop where
  absent : ∀ p, v'.locate .keep path ≠ .ok (.entry p)
  gone : ∀ p, v.locate .keep path = .ok (.entry p) → v'.node? p = none
  others : ∀ p, v.locate .keep path ≠ .ok (.entry p) → v'.node? p = v.node? p

theorem locate_congr_nodes (same : ∀ q, v'.node? q = v.node? q) (final : Final) (path : Text) :
    v'.locate final path = v.locate final path :=
  locate_outline (fun q => congrArg _ (same q)) final path

/-- A path that leads to nothing needs no removal. -/
theorem Cleared.of_absent {path : Text} (none : ∀ p, v.locate .keep path ≠ .ok (.entry p))
    (same : ∀ q, v'.node? q = v.node? q) : Cleared path v v' where
  absent p := by
    rw [locate_congr_nodes same]
    exact none p
  gone p entry := absurd entry (none p)
  others p _ := same p

/-- Removing the file that was made clears the path. -/
theorem Made.cleared {path : Text} {p : Place} {u : Volume} (h : Made path p v u) :
    Cleared path v (u.erase p) := by
  obtain ⟨owned, filled, before⟩ := h
  obtain ⟨content, file⟩ := owned.file
  have left (q : Place) : (u.erase p).node? q = if q = p then none else v.node? q := by
    rw [node?_erase]
    split
    · rfl
    · next other => exact filled.others q other
  refine ⟨locate_erase owned.toRemovable file, fun q entry => ?_, fun q elsewhere => ?_⟩
  · obtain here | ⟨-, nowhere⟩ := before
    · cases here.symm.trans entry
      rw [left, if_pos rfl]
    · exact absurd entry (nowhere q)
  · rw [left]
    split
    · next here =>
      subst here
      obtain entry | ⟨nothing, -⟩ := before
      · exact absurd entry elsewhere
      · exact nothing.symm
    · rfl

end Volume
end ForwardIndex
