import ForwardIndex.Layout

/-!
# Documents chunk by chunk

The documents of a column cut into windows of one length, the last one perhaps shorter. Writers fill
one window after the other; readers find a document by the quotient and the remainder of its number.
-/
set_option autoImplicit false
namespace ForwardIndex.Layout

variable {α : Type} {docs : Nat}

/-- The documents of a chunk. -/
def group (docs : Nat) (values : List α) (i : Nat) : List α := (values.drop (i * docs)).take docs

/-- The documents of every chunk, in order. -/
def groups (docs : Nat) (values : List α) : List (List α) :=
  (List.range ((values.length + docs - 1) / docs)).map (group docs values)

@[simp] theorem length_groups (values : List α) :
    (groups docs values).length = (values.length + docs - 1) / docs := by
  simp [groups]

theorem length_group (values : List α) (i : Nat) :
    (group docs values i).length = min docs (values.length - i * docs) := by
  rw [group, List.length_take, List.length_drop]

theorem eq_group_of_getElem? {values g : List α} {i : Nat} (h : (groups docs values)[i]? = some g) :
    g = group docs values i := by
  obtain ⟨within, rfl⟩ := List.getElem?_eq_some_iff.1 h
  simp [groups]

theorem groups_nil (positive : 0 < docs) : groups docs ([] : List α) = [] := by
  have none : (0 + docs - 1) / docs = 0 := Nat.div_eq_of_lt (by omega)
  rw [groups, List.length_nil, none]
  rfl

/-- A full window comes before those of the documents after it. -/
theorem groups_append (positive : 0 < docs) {g : List α} (full : g.length = docs)
    (values : List α) : groups docs (g ++ values) = g :: groups docs values := by
  have count :
      (values.length + docs + docs - 1) / docs = (values.length + docs - 1) / docs + 1 := by
    rw [show values.length + docs + docs - 1 = values.length + docs - 1 + docs by omega,
      Nat.add_div_right _ positive]
  have first : group docs (g ++ values) 0 = g := by
    rw [group, Nat.zero_mul, List.drop_zero, List.take_left' full]
  have later (i : Nat) : group docs (g ++ values) (i + 1) = group docs values i := by
    rw [group, group, Nat.succ_mul, Nat.add_comm, ← List.drop_drop, List.drop_left' full]
  rw [groups, List.length_append, full, Nat.add_comm docs, count, List.range_succ_eq_map,
    List.map_cons, first, List.map_map, groups]
  exact congrArg _ (List.map_congr_left fun i _ => later i)

theorem length_flatten_full {full : List (List α)} (lengths : ∀ g ∈ full, g.length = docs) :
    full.flatten.length = full.length * docs := by
  induction full with
  | nil => rw [List.flatten_nil, List.length_nil, List.length_nil, Nat.zero_mul]
  | cons g full ih =>
    rw [List.flatten_cons, List.length_append, lengths g List.mem_cons_self,
      ih fun g hg => lengths g (List.mem_cons_of_mem _ hg), List.length_cons, Nat.succ_mul,
      Nat.add_comm]

theorem groups_flatten_append (positive : 0 < docs) {full : List (List α)}
    (len : ∀ g ∈ full, g.length = docs) (values : List α) :
    groups docs (full.flatten ++ values) = full ++ groups docs values := by
  induction full with
  | nil => rfl
  | cons g full ih =>
    rw [List.flatten_cons, List.append_assoc, groups_append positive (len g List.mem_cons_self),
      ih fun g hg => len g (List.mem_cons_of_mem _ hg), List.cons_append]

/-- Documents that do not fill more than a window are one, if there are any. -/
theorem groups_of_short {values : List α} (some : values ≠ []) (short : values.length ≤ docs) :
    groups docs values = [values] := by
  have least := List.length_pos_iff.2 some
  have one : (values.length + docs - 1) / docs = 1 := by
    rw [show values.length + docs - 1 = values.length - 1 + docs by omega,
      Nat.add_div_right _ (by omega), Nat.div_eq_of_lt (by omega)]
  rw [groups, one, show List.range 1 = [0] from rfl, List.map_singleton, group, Nat.zero_mul,
    List.drop_zero, List.take_of_length_le short]

theorem length_le_of_mem_groups {values g : List α} (h : g ∈ groups docs values) :
    g.length ≤ docs := by
  obtain ⟨i, -, rfl⟩ := List.mem_map.1 h
  exact List.length_take_le _ _

theorem mem_of_mem_groups {values g : List α} (h : g ∈ groups docs values) {v : α} (hv : v ∈ g) :
    v ∈ values := by
  obtain ⟨i, -, rfl⟩ := List.mem_map.1 h
  exact List.mem_of_mem_drop (List.mem_of_mem_take hv)

/-- Nothing is lost between the windows; by induction on how many documents there are. -/
theorem flatten_groups (positive : 0 < docs) (values : List α) :
    (groups docs values).flatten = values := by
  induction h : values.length using Nat.strongRecOn generalizing values with
  | ind n ih =>
    by_cases none : values = []
    · rw [none, groups_nil positive]
      rfl
    by_cases short : values.length ≤ docs
    · rw [groups_of_short none short, List.flatten_singleton]
    have front : (values.take docs).length = docs := by
      rw [List.length_take]
      omega
    have rest : (values.drop docs).length < n := by
      rw [List.length_drop]
      omega
    rw [← congrArg (groups docs) (List.take_append_drop docs values),
      groups_append positive front, List.flatten_cons, ih _ rest _ rfl, List.take_append_drop]

/-- A document is in the window of its quotient, at its remainder. -/
theorem groups_getElem? (positive : 0 < docs) {values : List α} {i : Nat} {v : α}
    (h : values[i]? = some v) :
    ∃ g, (groups docs values)[i / docs]? = some g ∧ g[i % docs]? = some v := by
  obtain ⟨within, _⟩ := List.getElem?_eq_some_iff.1 h
  have quotient : i / docs < (values.length + docs - 1) / docs := by
    rw [← Nat.succ_le_iff, Nat.succ_eq_add_one, ← Nat.add_div_right i positive]
    exact Nat.div_le_div_right (by omega)
  refine ⟨group docs values (i / docs), ?_, ?_⟩
  · rw [groups, List.getElem?_map, List.getElem?_range quotient]
    rfl
  · rw [group, List.getElem?_take_of_lt (Nat.mod_lt _ positive), List.getElem?_drop,
      Nat.div_add_mod', h]

/-! ## What is made of the windows -/

section Chunked

variable {β : Type} {chunk : List α → β}

/-- A function of the documents of every chunk, in order. -/
def chunked (docs : Nat) (chunk : List α → β) (values : List α) : List β :=
  (groups docs values).map chunk

@[simp] theorem length_chunked (values : List α) :
    (chunked docs chunk values).length = (values.length + docs - 1) / docs := by
  simp [chunked]

theorem lt_length_chunked {n : Nat} (positive : 0 < docs) {values : List α}
    (many : (n + 1) * docs ≤ values.length) : n < (chunked docs chunk values).length := by
  rw [length_chunked, Nat.lt_iff_add_one_le, Nat.le_div_iff_mul_le positive]
  omega

theorem chunked_nil (positive : 0 < docs) : chunked docs chunk [] = [] := by
  rw [chunked, groups_nil positive, List.map_nil]

theorem chunked_append (positive : 0 < docs) {full : List (List α)}
    (lengths : ∀ g ∈ full, g.length = docs) (rest : List α) :
    chunked docs chunk (full.flatten ++ rest) = full.map chunk ++ chunked docs chunk rest := by
  rw [chunked, groups_flatten_append positive lengths, List.map_append]
  rfl

theorem chunked_cons (positive : 0 < docs) {g : List α} (length : g.length = docs)
    (rest : List α) : chunked docs chunk (g ++ rest) = chunk g :: chunked docs chunk rest := by
  rw [chunked, groups_append positive length, List.map_cons]
  rfl

theorem chunked_of_short {values : List α} (some : values ≠ []) (short : values.length ≤ docs) :
    chunked docs chunk values = [chunk values] := by
  rw [chunked, groups_of_short some short, List.map_singleton]

/-- What is made of the window of every number is made of the windows in order. -/
theorem zipIdx_chunked {γ : Type} (f : List α → γ) (values : List α) :
    ((chunked docs chunk values).zipIdx.map fun x => f (group docs values x.2)) =
      (groups docs values).map f := by
  calc ((chunked docs chunk values).zipIdx.map fun x => f (group docs values x.2))
      = ((chunked docs chunk values).zipIdx.map Prod.snd).map fun i => f (group docs values i) := by
        rw [List.map_map]
        rfl
    _ = (groups docs values).map f := by
        rw [List.zipIdx_map_snd, length_chunked, ← List.range_eq_range', groups, List.map_map]
        rfl

end Chunked

end ForwardIndex.Layout
