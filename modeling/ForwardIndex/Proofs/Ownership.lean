import ForwardIndex.Proofs.Desk
import Mathlib.Logic.Relation

/-!
# One owner for every descriptor

At every moment each open descriptor has exactly one owner among the handles on a desk, through any
chain of moves. `Custody.Moves` says all that a call can do about descriptors, `Accounted` is what
every move keeps, and a run is a sequence of moves. What was closed or moved from has nothing left
and can be opened again. The same holds of handles in slots, where a new handle takes the place of
one that is destroyed.
-/
set_option autoImplicit false
namespace ForwardIndex.FileHandle

open Relation (ReflTransGen)

/-! ## Who owns which descriptor -/

/-- Which descriptor each handle owns, what became of descriptors, and what the open ones are of. -/
structure Custody where
  held : List (Option Nat)
  log : List Event
  table : List (Option Place)

namespace Custody

/-- All that can happen to descriptors: a handle without one appears, takes a new one, gives its own
back, or passes it on to another one that has none. -/
inductive Moves : Custody → Custody → Prop
  | appear (held : List (Option Nat)) (log : List Event) (table : List (Option Place)) :
      Moves ⟨held, log, table⟩ ⟨held ++ [none], log, table⟩
  | take {held : List (Option Nat)} (log : List Event) (table : List (Option Place)) {i : Nat}
      (idle : held[i]? = some none) (p : Place) :
      Moves ⟨held, log, table⟩ ⟨held.set i (some table.length),
        log ++ [.opened table.length (some p)], table ++ [some p]⟩
  | give {held : List (Option Nat)} (log : List Event) (table : List (Option Place)) {i d : Nat}
      (own : held[i]? = some (some d)) :
      Moves ⟨held, log, table⟩ ⟨held.set i none, log ++ [.closed d], table.set d none⟩
  | pass {held : List (Option Nat)} (log : List Event) (table : List (Option Place)) {i k d : Nat}
      (own : held[i]? = some (some d)) (idle : held[k]? = some none) :
      Moves ⟨held, log, table⟩ ⟨(held.set k (some d)).set i none, log, table⟩

/-- Of the descriptors since the first, each was handed out once, and it is owned as often as it was
not given back; there are no others. What is owned is open where it was opened, and what was given
back is not open. -/
structure Accounted (first : Nat) (c : Custody) : Prop where
  more : first ≤ c.table.length
  opened : ∀ d, openings d c.log = if first ≤ d ∧ d < c.table.length then 1 else 0
  balance : ∀ d, c.held.count (some d) + closings d c.log = openings d c.log
  ordered : ∀ before, before <+: c.log → ∀ d, closings d before ≤ openings d before
  places : ∀ d, some d ∈ c.held → ∃ p, c.table[d]? = some (some p) ∧ .opened d (some p) ∈ c.log
  free : ∀ d, 0 < closings d c.log → c.table[d]? = some none

/-- A handle's descriptor is replaced in the count. -/
theorem count_set {held : List (Option Nat)} {i : Nat} {old : Option Nat}
    (h : held[i]? = some old) (new : Option Nat) (d : Nat) :
    (held.set i new).count (some d) + (if old = some d then 1 else 0) =
      held.count (some d) + if new = some d then 1 else 0 := by
  obtain ⟨below, rfl⟩ := List.getElem?_eq_some_iff.1 h
  have among : held[i] = some d → 1 ≤ held.count (some d) := fun same =>
    List.one_le_count_iff.2 (same ▸ List.getElem_mem below)
  rw [List.count_set below]
  by_cases same : held[i] = some d
  · have := among same
    simp only [same, beq_self_eq_true, if_true, beq_iff_eq]
    omega
  · simp [same]

theorem count_take {held : List (Option Nat)} {i : Nat} (idle : held[i]? = some none) (d e : Nat) :
    (held.set i (some d)).count (some e) = held.count (some e) + if d = e then 1 else 0 := by
  simpa using count_set idle (some d) e

theorem count_give {held : List (Option Nat)} {i d : Nat} (own : held[i]? = some (some d))
    (e : Nat) :
    (held.set i none).count (some e) + (if d = e then 1 else 0) = held.count (some e) := by
  simpa using count_set own none e

@[simp] theorem openings_append (d : Nat) (log more : List Event) :
    openings d (log ++ more) = openings d log + openings d more :=
  List.countP_append

@[simp] theorem closings_append (d : Nat) (log more : List Event) :
    closings d (log ++ more) = closings d log + closings d more :=
  List.count_append

@[simp] theorem openings_opened (d e : Nat) (place : Option Place) :
    openings d [.opened e place] = if e = d then 1 else 0 := by
  simp [openings, Event.opens, List.countP_cons]

@[simp] theorem openings_closed (d e : Nat) : openings d [.closed e] = 0 := rfl

@[simp] theorem closings_opened (d e : Nat) (place : Option Place) :
    closings d [.opened e place] = 0 := by
  simp [closings]

@[simp] theorem closings_closed (d e : Nat) : closings d [.closed e] = if e = d then 1 else 0 := by
  simp [closings, List.count_cons]

theorem Accounted.start (table : List (Option Place)) : Accounted table.length ⟨[], [], table⟩ where
  more := Nat.le_refl _
  opened d := by
    rw [if_neg (by dsimp only; omega)]
    rfl
  balance _ := rfl
  ordered before short d := by
    obtain rfl := List.prefix_nil.1 short
    exact Nat.le_refl _
  places _ among := nomatch among
  free _ given := absurd given (Nat.lt_irrefl 0)

/-- A log in order stays so if it is in order as a whole with the next event. -/
theorem ordered_concat {log : List Event} {event : Event}
    (ordered : ∀ before, before <+: log → ∀ d, closings d before ≤ openings d before)
    (whole : ∀ d, closings d (log ++ [event]) ≤ openings d (log ++ [event])) :
    ∀ before, before <+: log ++ [event] → ∀ d, closings d before ≤ openings d before := by
  intro before short
  obtain rfl | earlier := List.prefix_concat_iff.1 short
  · exact whole
  · exact ordered before earlier

section Accounted

variable {first : Nat} {held : List (Option Nat)} {log : List Event} {table : List (Option Place)}

theorem Accounted.take (h : Accounted first ⟨held, log, table⟩) {i : Nat}
    (idle : held[i]? = some none) (p : Place) :
    Accounted first ⟨held.set i (some table.length),
      log ++ [.opened table.length (some p)], table ++ [some p]⟩ := by
  obtain ⟨more, opened, balance, ordered, places, free⟩ := h
  dsimp only at more opened balance ordered places free
  have balanced (d : Nat) : (held.set i (some table.length)).count (some d) +
      closings d (log ++ [.opened table.length (some p)]) =
      openings d (log ++ [.opened table.length (some p)]) := by
    have := balance d
    simp only [count_take idle, closings_append, closings_opened, openings_append, openings_opened]
    omega
  refine ⟨?_, fun d => ?_, balanced, ordered_concat ordered fun d => ?_, fun d among => ?_,
    fun d given => ?_⟩
  · simp only [List.length_append]
    omega
  · simp only [openings_append, openings_opened, opened, List.length_append, List.length_cons,
      List.length_nil]
    split_ifs <;> omega
  · have := balanced d
    omega
  · obtain among | new := List.mem_or_eq_of_mem_set among
    · obtain ⟨q, stands, logged⟩ := places d among
      obtain ⟨below, -⟩ := List.getElem?_eq_some_iff.1 stands
      exact ⟨q, by rw [List.getElem?_append_left below]; exact stands,
        List.mem_append_left _ logged⟩
    · obtain rfl := Option.some.inj new
      exact ⟨p, by simp, by simp⟩
  · have back := free d (by simpa using given)
    obtain ⟨below, -⟩ := List.getElem?_eq_some_iff.1 back
    rw [List.getElem?_append_left below, back]

theorem Accounted.give (h : Accounted first ⟨held, log, table⟩) {i d : Nat}
    (own : held[i]? = some (some d)) :
    Accounted first ⟨held.set i none, log ++ [.closed d], table.set d none⟩ := by
  obtain ⟨more, opened, balance, ordered, places, free⟩ := h
  dsimp only at more opened balance ordered places free
  have balanced (e : Nat) : (held.set i none).count (some e) +
      closings e (log ++ [.closed d]) = openings e (log ++ [.closed d]) := by
    have := count_give own e
    have := balance e
    simp only [closings_append, closings_closed, openings_append, openings_closed]
    omega
  refine ⟨by simpa using more, fun e => by simpa using opened e, balanced,
    ordered_concat ordered fun e => ?_, fun e among => ?_, fun e given => ?_⟩
  · have := balanced e
    omega
  · have other : d ≠ e := by
      rintro rfl
      -- it would have had a second owner before
      have left : 1 ≤ (held.set i none).count (some d) := List.one_le_count_iff.2 among
      have before := count_give own d
      have account := balance d
      rw [if_pos rfl] at before
      rw [opened d] at account
      split at account <;> omega
    obtain among | new := List.mem_or_eq_of_mem_set among
    · obtain ⟨p, stands, logged⟩ := places e among
      exact ⟨p, by rw [List.getElem?_set_ne other]; exact stands, List.mem_append_left _ logged⟩
    · cases new
  · obtain ⟨p, stands, -⟩ := places d (List.mem_iff_getElem?.2 ⟨i, own⟩)
    obtain ⟨below, -⟩ := List.getElem?_eq_some_iff.1 stands
    by_cases same : d = e
    · subst same
      rw [List.getElem?_set_self below]
    · rw [List.getElem?_set_ne same]
      exact free e (by simpa [same] using given)

theorem Accounted.pass (h : Accounted first ⟨held, log, table⟩) {i k d : Nat}
    (own : held[i]? = some (some d)) (idle : held[k]? = some none) :
    Accounted first ⟨(held.set k (some d)).set i none, log, table⟩ := by
  obtain ⟨more, opened, balance, ordered, places, free⟩ := h
  have apart : k ≠ i := by
    rintro rfl
    rw [own] at idle
    cases idle
  have taken : (held.set k (some d))[i]? = some (some d) := by
    rw [List.getElem?_set_ne apart, own]
  have counted (e : Nat) :
      ((held.set k (some d)).set i none).count (some e) = held.count (some e) := by
    have := count_take idle d e
    have := count_give taken e
    omega
  refine ⟨more, opened, fun e => ?_, ordered, fun e among => ?_, free⟩
  · rw [counted]
    exact balance e
  · refine places e (List.one_le_count_iff.1 ?_)
    rw [← counted]
    exact List.one_le_count_iff.2 among

end Accounted

/-- Each move keeps the account. -/
theorem Accounted.moves {first : Nat} {c c' : Custody} (h : Accounted first c)
    (move : Moves c c') : Accounted first c' := by
  cases move with
  | appear held log table =>
    refine ⟨h.more, h.opened, fun d => ?_, h.ordered, fun d among => ?_, h.free⟩
    · simpa using h.balance d
    · exact h.places d (by simpa using among)
  | take log table idle p => exact h.take idle p
  | give log table own => exact h.give own
  | pass log table own idle => exact h.pass own idle

theorem Accounted.run {first : Nat} {c c' : Custody} (h : Accounted first c)
    (moves : ReflTransGen Moves c c') : Accounted first c' := by
  induction moves with
  | refl => exact h
  | tail _ move ih => exact ih.moves move

theorem Accounted.first_le {first : Nat} {c : Custody} (h : Accounted first c) {d : Nat}
    (among : some d ∈ c.held) : first ≤ d := by
  by_contra early
  have handedOut := h.opened d
  rw [if_neg fun range => early range.1] at handedOut
  have balance := h.balance d
  have := List.one_le_count_iff.2 among
  omega

/-- What was handed out and is open was not given back, so it is owned. -/
theorem Accounted.owned {first : Nat} {c : Custody} (h : Accounted first c) {d : Nat} {p : Place}
    (later : first ≤ d) (isOpen : c.table[d]? = some (some p)) : c.held.count (some d) = 1 := by
  obtain ⟨below, -⟩ := List.getElem?_eq_some_iff.1 isOpen
  have handedOut : openings d c.log = 1 := (h.opened d).trans (if_pos ⟨later, below⟩)
  have notBack : closings d c.log = 0 := by
    by_contra back
    cases (h.free d (Nat.pos_of_ne_zero back)).symm.trans isOpen
  have balance := h.balance d
  omega

end Custody

/-! ## What calls do about descriptors -/

/-- An opening fails and changes nothing, or a handle without a descriptor gets the next one. -/
theorem openIn_cases (f : FileHandle) (j : Journal) (path : Text) (refused : Option SystemError) :
    (∃ e, f.openIn j path refused = (.error e, f, j)) ∨
    ∃ p v, f.descriptor = none ∧
      f.openIn j path refused = (.ok (), ⟨path, some j.volume.descriptors.length⟩,
        ⟨v, j.log ++ [.opened j.volume.descriptors.length (some p)]⟩) ∧
      v.descriptors = j.volume.descriptors ++ [some p] := by
  unfold openIn
  split
  · exact .inl ⟨_, rfl⟩
  · next idle =>
    have idle : f.descriptor = none := by simpa [isOpen] using idle
    cases refused with
    | some e => exact .inl ⟨_, rfl⟩
    | none =>
      unfold Journal.openWrite
      cases opened : j.volume.openWrite path with
      | error e => exact .inl ⟨_, rfl⟩
      | ok r =>
        obtain ⟨p, found, number, table⟩ := Volume.openWrite_handsOut opened
        obtain ⟨d, v⟩ := r
        obtain rfl : d = j.volume.descriptors.length := number
        exact .inr ⟨p, v, idle, by simp [show v.find path = .ok p from found, Except.toOption],
          table⟩

namespace Desk

def custody (t : Desk) : Custody := ⟨t.held, t.journal.log, t.journal.volume.descriptors⟩

theorem custody_set (t : Desk) (i : Nat) (o : Option FileHandle) (j : Journal) :
    custody ⟨t.handles.set i o, j⟩ =
      ⟨t.held.set i (o.bind descriptor), j.log, j.volume.descriptors⟩ := by
  simp [custody, held, List.map_set]

theorem getElem?_held {t : Desk} {i : Nat} {f : FileHandle} (h : t.handle? i = some f) :
    t.held[i]? = some f.descriptor := by
  simp [held, handle?_eq.1 h]

/-- To replace a handle by one with the same descriptor, or none by none, changes no owner. -/
theorem set_held {held : List (Option Nat)} {i : Nat} {o : Option Nat} (h : held[i]? = some o) :
    held.set i o = held := by
  obtain ⟨below, rfl⟩ := List.getElem?_eq_some_iff.1 h
  exact List.set_getElem_self below

/-- A handle gives back what it has. -/
theorem release_moves {held : List (Option Nat)} {i : Nat} {f : FileHandle}
    (own : held[i]? = some f.descriptor) (j : Journal) :
    ReflTransGen Custody.Moves ⟨held, j.log, j.volume.descriptors⟩
      ⟨held.set i none, (f.release j).log, (f.release j).volume.descriptors⟩ := by
  unfold release
  cases hd : f.descriptor with
  | none =>
    rw [hd] at own
    rw [set_held own]
  | some d =>
    rw [hd] at own
    have given := Custody.Moves.give j.log j.volume.descriptors own
    rw [← Volume.descriptors_close] at given
    exact .single given

/-- A handle passes on what it has to one that has nothing. -/
theorem pass_moves {held : List (Option Nat)} {i k : Nat} {o : Option Nat}
    (own : held[i]? = some o) (idle : held[k]? = some none) (log : List Event)
    (table : List (Option Place)) :
    ReflTransGen Custody.Moves ⟨held, log, table⟩ ⟨(held.set k o).set i none, log, table⟩ := by
  cases o with
  | none => rw [set_held idle, set_held own]
  | some d => exact .single (.pass log table own idle)

/-- A handle is made without a descriptor and gets that of another one. -/
theorem construct_moves {t : Desk} {source : Nat} {f : FileHandle}
    (hf : t.handle? source = some f) :
    ReflTransGen Custody.Moves t.custody
      (custody ⟨t.handles.set source (some f.moved) ++ [some f], t.journal⟩) := by
  have own := getElem?_held hf
  obtain ⟨below, -⟩ := List.getElem?_eq_some_iff.1 own
  have own' : (t.held ++ [none])[source]? = some f.descriptor := by
    rw [List.getElem?_append_left below, own]
  have idle : (t.held ++ [none])[t.held.length]? = some none := by simp
  have made : custody ⟨t.handles.set source (some f.moved) ++ [some f], t.journal⟩ =
      ⟨((t.held ++ [none]).set t.held.length f.descriptor).set source none, t.journal.log,
        t.journal.volume.descriptors⟩ := by
    rw [List.set_append_right _ _ (Nat.le_refl _), Nat.sub_self, List.set_append_left _ _ below]
    simp [custody, held, List.map_set, moved]
  rw [made]
  exact .head (.appear _ _ _) (pass_moves own' idle _ _)

/-- A handle gives back what it has and gets what the other one has. -/
theorem assign_moves {t : Desk} {target source : Nat} {f g : FileHandle}
    (hf : t.handle? target = some f) (hg : t.handle? source = some g) (other : target ≠ source) :
    ReflTransGen Custody.Moves t.custody
      (custody ⟨(t.handles.set target (some g)).set source (some g.moved),
        f.release t.journal⟩) := by
  have own := getElem?_held hf
  obtain ⟨below, -⟩ := List.getElem?_eq_some_iff.1 own
  have own' : (t.held.set target none)[source]? = some g.descriptor := by
    rw [List.getElem?_set_ne other, getElem?_held hg]
  have idle : (t.held.set target none)[target]? = some none := by simp [below]
  have passed := pass_moves own' idle (f.release t.journal).log
    (f.release t.journal).volume.descriptors
  rw [List.set_set] at passed
  have assigned (j : Journal) :
      custody ⟨(t.handles.set target (some g)).set source (some g.moved), j⟩ =
        ⟨(t.held.set target g.descriptor).set source none, j.log, j.volume.descriptors⟩ := by
    simp [custody, held, List.map_set, moved]
  rw [assigned]
  exact (release_moves own t.journal).trans passed

/-- A call comes to moves of descriptors; by cases on the call, which does nothing where there is
no handle. -/
theorem step_moves (t : Desk) (call : Call) :
    ReflTransGen Custody.Moves t.custody (t.step call).2.custody := by
  cases call with
  | make =>
    have grown : (t.step .make).2.held = t.held ++ [none] := by simp [step, held]
    rw [custody, custody, grown]
    exact .single (.appear _ _ _)
  | openAt i path refused =>
    rw [step]
    cases hf : t.handle? i with
    | none => exact .refl
    | some f =>
      have own := getElem?_held hf
      dsimp only
      rw [custody_set]
      obtain ⟨e, failed⟩ | ⟨p, v, idle, opened, table⟩ := f.openIn_cases t.journal path refused
      · rw [failed, Option.bind_some, set_held own]
        exact .refl
      · rw [opened, Option.bind_some]
        dsimp only
        rw [table]
        exact .single (.take _ _ (own.trans (congrArg some idle)) p)
  | writeAll i bytes offset =>
    rw [step]
    cases hf : t.handle? i with
    | none => exact .refl
    | some f =>
      simp only [custody, held, writeIn, descriptors_writeAll]
      exact .refl
  | close i =>
    rw [step]
    cases hf : t.handle? i with
    | none => exact .refl
    | some f =>
      rcases closed : f.closeIn t.journal with ⟨outcome, f', j⟩
      have released := f.closeIn_released t.journal
      rw [closed] at released
      cases released
      dsimp only
      rw [closed, custody_set]
      exact release_moves (getElem?_held hf) t.journal
  | construct source =>
    rw [step]
    cases hf : t.handle? source with
    | none => exact .refl
    | some f => exact construct_moves hf
  | assign target source =>
    rw [step]
    cases hf : t.handle? target with
    | none => exact .refl
    | some f =>
      cases hg : t.handle? source with
      | none => exact .refl
      | some g =>
        dsimp only
        split
        · exact .refl
        · next other => exact assign_moves hf hg other
  | destroy i =>
    rw [step]
    cases hf : t.handle? i with
    | none => exact .refl
    | some f =>
      dsimp only
      rw [custody_set]
      exact release_moves (getElem?_held hf) t.journal

/-- The moves of a whole run; by induction on the calls. -/
theorem run_moves (t : Desk) (calls : List Call) :
    ReflTransGen Custody.Moves t.custody (t.run calls).custody := by
  induction calls generalizing t with
  | nil => exact .refl
  | cons call calls ih => exact (t.step_moves call).trans (ih _)

/-- No handle yet, and nothing in the log. -/
def start (v : Volume) : Desk := { journal := ⟨v, []⟩ }

theorem accounted (v : Volume) (calls : List Call) :
    Custody.Accounted v.descriptors.length ((start v).run calls).custody :=
  (Custody.Accounted.start v.descriptors).run ((start v).run_moves calls)

/-! ### Owners -/

/-- A handle owns a descriptor. -/
def Owns (t : Desk) (i d : Nat) : Prop := ∃ f, t.handle? i = some f ∧ f.descriptor = some d

/-- A handle lives and owns no descriptor. -/
def Bare (t : Desk) (i : Nat) : Prop := ∃ f, t.handle? i = some f ∧ f.descriptor = none

theorem owns_iff {t : Desk} {i d : Nat} : t.Owns i d ↔ t.held[i]? = some (some d) := by
  unfold Owns held
  rw [List.getElem?_map]
  constructor
  · rintro ⟨f, hf, hd⟩
    simp [handle?_eq.1 hf, hd]
  · intro own
    cases found : t.handles[i]? with
    | none => simp [found] at own
    | some o =>
      cases o with
      | none => simp [found] at own
      | some f => exact ⟨f, handle?_eq.2 found, by simpa [found] using own⟩

theorem existsUnique_owner {t : Desk} {d : Nat} (one : t.held.count (some d) = 1) :
    ∃! i, t.Owns i d := by
  obtain ⟨i, own⟩ := List.mem_iff_getElem?.1 (List.one_le_count_iff.1 one.ge)
  refine ⟨i, owns_iff.2 own, fun k other => ?_⟩
  by_contra apart
  -- without the owner the descriptor would still be owned
  have left := Custody.count_give own d
  rw [if_pos rfl] at left
  have among : some d ∈ t.held.set i none :=
    List.mem_iff_getElem?.2 ⟨k, by rw [List.getElem?_set_ne (Ne.symm apart), owns_iff.1 other]⟩
  have := List.one_le_count_iff.2 among
  omega

/-- Calls that may give a handle a descriptor, or end its life. -/
def Renews (i : Nat) : Call → Prop
  | .openAt k _ _ | .assign k _ | .destroy k => k = i
  | .make | .writeAll .. | .close _ | .construct _ => False

section Bare

variable {t : Desk} {i : Nat}

/-- A handle that lives is replaced by one without a descriptor. -/
theorem bare_set {f : FileHandle} (idle : f.descriptor = none) (lives : (t.handle? i).isSome)
    (j : Journal) : Bare ⟨t.handles.set i (some f), j⟩ i := by
  obtain ⟨g, hg⟩ := Option.isSome_iff_exists.1 lives
  obtain ⟨below, -⟩ := List.getElem?_eq_some_iff.1 (handle?_eq.1 hg)
  exact ⟨f, handle?_eq.2 (by simp [below]), idle⟩

theorem Bare.lives (h : t.Bare i) : (t.handle? i).isSome := by
  obtain ⟨f, hf, -⟩ := h
  rw [hf]
  rfl

theorem Bare.set (h : t.Bare i) {k : Nat} {o : Option FileHandle}
    (same : k = i → ∃ f : FileHandle, o = some f ∧ f.descriptor = none) (j : Journal) :
    Bare ⟨t.handles.set k o, j⟩ i := by
  by_cases own : k = i
  · obtain ⟨f, rfl, idle⟩ := same own
    exact own ▸ bare_set idle (own ▸ h.lives) j
  · obtain ⟨f, hf, idle⟩ := h
    exact ⟨f, handle?_eq.2 (by rw [List.getElem?_set_ne own, handle?_eq.1 hf]), idle⟩

theorem Bare.append (h : t.Bare i) (more : List (Option FileHandle)) (j : Journal) :
    Bare ⟨t.handles ++ more, j⟩ i := by
  obtain ⟨f, hf, idle⟩ := h
  have stands := handle?_eq.1 hf
  obtain ⟨below, -⟩ := List.getElem?_eq_some_iff.1 stands
  exact ⟨f, handle?_eq.2 (by rw [List.getElem?_append_left below, stands]), idle⟩

/-- A close leaves its handle without a descriptor, whatever the system answers. -/
theorem bare_close (lives : (t.handle? i).isSome) : (t.step (.close i)).2.Bare i := by
  obtain ⟨f, hf⟩ := Option.isSome_iff_exists.1 lives
  have released := f.closeIn_released t.journal
  rw [step, hf]
  exact bare_set (congrArg (·.1.descriptor) released) lives _

/-- Nor has a handle that was moved into another one. -/
theorem bare_assign {target : Nat} (other : target ≠ i) (target_lives : (t.handle? target).isSome)
    (lives : (t.handle? i).isSome) : (t.step (.assign target i)).2.Bare i := by
  obtain ⟨f, hf⟩ := Option.isSome_iff_exists.1 target_lives
  obtain ⟨g, hg⟩ := Option.isSome_iff_exists.1 lives
  have stays : (handle? ⟨t.handles.set target (some g), t.journal⟩ i).isSome := by
    rw [handle?, List.getElem?_set_ne other]
    exact lives
  rw [step, hf, hg]
  dsimp only
  rw [if_neg other]
  exact bare_set rfl stays _

/-- Only some calls renew a handle without a descriptor; by cases on the call. -/
theorem Bare.step (h : t.Bare i) {call : Call} (other : ¬ Renews i call) :
    (t.step call).2.Bare i := by
  cases call with
  | make => exact h.append _ _
  | openAt k path refused =>
    rw [Desk.step]
    cases t.handle? k with
    | none => exact h
    | some f => exact h.set (fun same => absurd same other) _
  | writeAll k bytes offset =>
    rw [Desk.step]
    cases t.handle? k with
    | none => exact h
    | some f => exact h
  | close k =>
    by_cases own : k = i
    · subst own
      exact bare_close h.lives
    · rw [Desk.step]
      cases t.handle? k with
      | none => exact h
      | some f => exact h.set (fun same => absurd same own) _
  | construct source =>
    rw [Desk.step]
    cases t.handle? source with
    | none => exact h
    | some f => exact (h.set (fun _ => ⟨_, rfl, rfl⟩) t.journal).append _ _
  | assign target source =>
    rw [Desk.step]
    cases t.handle? target with
    | none => exact h
    | some f =>
      cases t.handle? source with
      | none => exact h
      | some g =>
        dsimp only
        split
        · exact h
        · have kept : Bare ⟨t.handles.set target (some g), t.journal⟩ i :=
            h.set (fun same => absurd same other) _
          exact kept.set (fun _ => ⟨_, rfl, rfl⟩) _
  | destroy k =>
    rw [Desk.step]
    cases t.handle? k with
    | none => exact h
    | some f => exact h.set (fun same => absurd same other) _

theorem Bare.run (h : t.Bare i) {calls : List Call} (others : ∀ call ∈ calls, ¬ Renews i call) :
    (t.run calls).Bare i := by
  induction calls generalizing t with
  | nil => exact h
  | cons call calls ih =>
    exact ih (h.step (others call List.mem_cons_self)) fun later among =>
      others later (List.mem_cons_of_mem _ among)

/-- A handle without a descriptor rejects every write, stays without until it is renewed, and opens
whatever path the volume opens. -/
structure Reusable (t : Desk) (i : Nat) : Prop where
  rejects : ∀ bytes offset, t.step (.writeAll i bytes offset) = (.error .writeOnClosed, t)
  stays : ∀ calls, (∀ call ∈ calls, ¬ Renews i call) → (t.run calls).Bare i
  opens : ∀ path d v, t.journal.volume.openWrite path = .ok (d, v) →
    (t.step (.openAt i path none)).1 = .ok () ∧ (t.step (.openAt i path none)).2.Owns i d

theorem Bare.reusable (h : t.Bare i) : t.Reusable i := by
  obtain ⟨f, hf, idle⟩ := id h
  obtain ⟨below, -⟩ := List.getElem?_eq_some_iff.1 (handle?_eq.1 hf)
  refine ⟨fun bytes offset => ?_, fun calls others => h.run others, fun path d v opened => ?_⟩
  · simp [Desk.step, hf, writeIn, writeAll, idle]
  · have opening : f.openIn t.journal path none =
        (.ok (), ⟨path, some d⟩, ⟨v, t.journal.log ++ [.opened d (v.find path).toOption]⟩) := by
      simp [openIn, isOpen, idle, Journal.openWrite, opened]
    simp only [Desk.step, hf, opening]
    exact ⟨trivial, ⟨path, some d⟩, handle?_eq.2 (by simp [below]), rfl⟩

end Bare

/-! ### Refused openings, and writes -/

/-- An opening that is not granted changes nothing. -/
theorem step_openAt_refused {t : Desk} {i : Nat} {path : Text} {refused : Option SystemError}
    (failed : (t.step (.openAt i path refused)).1 ≠ .ok ()) :
    (t.step (.openAt i path refused)).2 = t := by
  cases hf : t.handle? i with
  | none => simp only [step, hf]
  | some f =>
    obtain ⟨e, same⟩ | ⟨p, v, -, opened, -⟩ := f.openIn_cases t.journal path refused
    · obtain ⟨below, stands⟩ := List.getElem?_eq_some_iff.1 (handle?_eq.1 hf)
      have kept : t.handles.set i (some f) = t.handles := by rw [← stands, List.set_getElem_self]
      simp only [step, hf, same, kept]
    · simp only [step, hf, opened] at failed
      exact absurd rfl failed

/-- A handle that is open refuses to be opened. -/
theorem step_openAt_open {t : Desk} {i : Nat} {f : FileHandle} (hf : t.handle? i = some f)
    (isOpen : f.isOpen) (path : Text) (refused : Option SystemError) :
    t.step (.openAt i path refused) = (.error (.alreadyOpen f.path), t) := by
  have opening : f.openIn t.journal path refused = (.error (.alreadyOpen f.path), f, t.journal) := by
    rw [openIn, if_pos isOpen]
  have answer : (t.step (.openAt i path refused)).1 = .error (.alreadyOpen f.path) := by
    simp only [step, hf, opening]
  refine Prod.ext answer (step_openAt_refused ?_)
  rw [answer]
  simp

end Desk

/-- Two handles are opened and the first is moved over the second. Opened again, it is destroyed
last. -/
example :
    let place (name : Text) : Option Place := some (name :: Place.working)
    ((Desk.start .initial).run [.make, .make, .openAt 0 "a" none, .openAt 1 "b" none, .assign 1 0,
      .openAt 0 "c" none, .destroy 1, .destroy 0]).journal.log =
    [.opened 0 (place "a"), .opened 1 (place "b"), .closed 1, .opened 2 (place "c"), .closed 0,
      .closed 2] := by
  decide +kernel

/-! ## Handles in slots -/

/-- A call that the system does not refuse for a reason of its own. -/
def Call.granted : Call → Call
  | .openAt i path _ => .openAt i path none
  | call => call

namespace Slots

/-- The handle in a slot owns a descriptor. -/
def Owns (s : Slots) (i d : Nat) : Prop := ∃ f, s.files[i]? = some f ∧ f.descriptor = some d

/-- The handle in a slot owns no descriptor. -/
def Bare (s : Slots) (i : Nat) : Prop := ∃ f, s.files[i]? = some f ∧ f.descriptor = none

/-- The slots of a call are there. -/
def Has (s : Slots) : Call → Prop
  | .make => True
  | .openAt i _ _ | .writeAll i _ _ | .close i | .construct i | .destroy i => i < s.files.length
  | .assign target source => target < s.files.length ∧ source < s.files.length

/-- The slots that calls lead to on a volume, from none. -/
inductive Reached (v : Volume) : Slots → Prop
  | start : Reached v ⟨[], v⟩
  | step {s : Slots} {call : Call} (before : Reached v s) (there : s.Has call) :
      Reached v (call.onSlots s).2

/-- The handles in the slots as a row in which all live. -/
def desk (s : Slots) (log : List Event) : Desk := ⟨s.files.map some, ⟨s.volume, log⟩⟩

section Desk

variable {s : Slots} {log : List Event} {i d : Nat}

theorem slots_desk : (s.desk log).slots = s := by simp [desk, Desk.slots]

theorem handle?_desk {f : FileHandle} : (s.desk log).handle? i = some f ↔ s.files[i]? = some f := by
  rw [Desk.handle?_eq]
  simp [desk]

theorem owns_desk : (s.desk log).Owns i d ↔ s.Owns i d :=
  exists_congr fun _ => and_congr_left fun _ => handle?_desk

theorem isSome_desk (there : i < s.files.length) : ((s.desk log).handle? i).isSome :=
  Option.isSome_iff_exists.2 ⟨_, handle?_desk.2 (List.getElem?_eq_getElem there)⟩

theorem lives_desk (log : List Event) {call : Call} (there : s.Has call) :
    call.granted.Lives (s.desk log) := by
  cases call with
  | make => trivial
  | assign target source => exact ⟨isSome_desk there.1, isSome_desk there.2⟩
  | _ => exact isSome_desk there

/-- A call on slots goes as the call on the row. -/
theorem onSlots_desk (log : List Event) (call : Call) (there : s.Has call) :
    call.onSlots s =
      (((s.desk log).step call.granted).1, ((s.desk log).step call.granted).2.slots) := by
  have step := Desk.step_slots (lives_desk log there) fun i path refused same => by
    cases call <;> cases same
    rfl
  rw [slots_desk] at step
  rw [← step]
  cases call <;> rfl

theorem openAt_desk (log : List Event) (below : i < s.files.length) (path : Text) :
    s.openAt i path = (((s.desk log).step (.openAt i path none)).1,
      ((s.desk log).step (.openAt i path none)).2.slots) :=
  onSlots_desk log (.openAt i path none) below

theorem get_eq {f : FileHandle} (hf : s.files[i]? = some f) : s.get i = f := by
  rw [get, hf, Option.getD_some]

theorem handle?_get (log : List Event) (below : i < s.files.length) :
    (s.desk log).handle? i = some (s.get i) := by
  have stands := List.getElem?_eq_getElem below
  rw [handle?_desk, stands, get_eq stands]

theorem owns_slots {t : Desk} (h : t.Owns i d) : t.slots.Owns i d := by
  obtain ⟨f, hf, own⟩ := h
  exact ⟨f, by simp [Desk.slots, Desk.handle?_eq.1 hf], own⟩

theorem bare_slots {t : Desk} (h : t.Bare i) : t.slots.Bare i := by
  obtain ⟨f, hf, idle⟩ := h
  exact ⟨f, by simp [Desk.slots, Desk.handle?_eq.1 hf], idle⟩

/-- A handle that was destroyed owned as little as the new one in its place. -/
theorem custody_slots (t : Desk) : (t.slots.desk t.journal.log).custody = t.custody := by
  have same : t.slots.files.map descriptor = t.held := by
    rw [Desk.slots, Desk.held, List.map_map]
    exact List.map_congr_left fun o _ => by cases o <;> rfl
  simpa [Desk.custody, desk, Desk.held, Desk.slots] using same

end Desk

/-- Each descriptor is accounted for in some log; by induction on the calls. -/
theorem Reached.accounted {v : Volume} {s : Slots} (h : Reached v s) :
    ∃ log, Custody.Accounted v.descriptors.length (s.desk log).custody := by
  induction h with
  | start => exact ⟨[], .start v.descriptors⟩
  | @step s call before there ih =>
    obtain ⟨log, account⟩ := ih
    have account := account.run ((s.desk log).step_moves call.granted)
    rw [onSlots_desk log call there]
    exact ⟨_, custody_slots _ ▸ account⟩

/-- What holds of slots at every moment: a descriptor that was handed out for them and is open has
exactly one owner among them, and an owner has no other. An opening that is refused changes nothing.
A handle that is closed, moved from or destroyed has no descriptor left; it rejects writes and can be
opened again. A write changes only what the descriptor is open on. -/
structure Orderly (v : Volume) (s : Slots) : Prop where
  owner : ∀ d p, v.descriptors.length ≤ d → s.volume.IsOpen d p → ∃! i, s.Owns i d
  owned : ∀ i d, s.Owns i d → v.descriptors.length ≤ d ∧ ∃ p, s.volume.IsOpen d p ∧
    ∀ bytes offset, s.volume.OnlyAt p (s.writeAll i bytes offset).2.volume
  taken : ∀ i path, i < s.files.length → (s.get i).isOpen →
    s.openAt i path = (.error (.alreadyOpen (s.get i).path), s)
  refused : ∀ i path, i < s.files.length → (s.openAt i path).1 ≠ .ok () → (s.openAt i path).2 = s
  closed : ∀ i, i < s.files.length → (s.close i).2.Bare i
  moved : ∀ target source, target < s.files.length → source < s.files.length → target ≠ source →
    (s.move target source).Bare source
  destroyed : ∀ i, i < s.files.length → (s.drop i).Bare i
  rejects : ∀ i bytes offset, s.Bare i → s.writeAll i bytes offset = (.error .writeOnClosed, s)
  opens : ∀ i path d w, s.Bare i → s.volume.openWrite path = .ok (d, w) →
    (s.openAt i path).1 = .ok () ∧ (s.openAt i path).2.Owns i d

theorem Reached.orderly {v : Volume} {s : Slots} (h : Reached v s) : s.Orderly v := by
  obtain ⟨log, account⟩ := h.accounted
  have reusable {i : Nat} (bare : s.Bare i) : i < s.files.length ∧ (s.desk log).Reusable i := by
    obtain ⟨f, hf, idle⟩ := bare
    exact ⟨(List.getElem?_eq_some_iff.1 hf).1, Desk.Bare.reusable ⟨f, handle?_desk.2 hf, idle⟩⟩
  constructor
  case owner =>
    intro d p later isOpen
    obtain ⟨i, own, only⟩ := Desk.existsUnique_owner (account.owned later isOpen)
    exact ⟨i, owns_desk.1 own, fun k other => only k (owns_desk.2 other)⟩
  case owned =>
    intro i d own
    have among : some d ∈ (s.desk log).held :=
      List.mem_iff_getElem?.2 ⟨i, Desk.owns_iff.1 (owns_desk.2 own)⟩
    obtain ⟨p, isOpen, -⟩ := account.places d among
    refine ⟨account.first_le among, p, isOpen, fun bytes offset => ?_⟩
    obtain ⟨f, hf, hd⟩ := own
    rw [writeAll, get_eq hf]
    refine writeAll_onlyAt (fun e he q other => ?_) bytes offset
    obtain rfl : d = e := Option.some.inj (hd.symm.trans he)
    simpa using other.symm.trans isOpen
  case taken =>
    intro i path below isOpen
    rw [openAt_desk log below, Desk.step_openAt_open (handle?_get log below) isOpen, slots_desk]
  case refused =>
    intro i path below failed
    rw [openAt_desk log below] at failed ⊢
    dsimp only at failed ⊢
    rw [Desk.step_openAt_refused failed, slots_desk]
  case closed =>
    intro i below
    rw [show s.close i = _ from onSlots_desk log (.close i) below]
    exact bare_slots (Desk.bare_close (isSome_desk below))
  case moved =>
    intro target source target_below below other
    rw [show s.move target source = _ from
      congrArg Prod.snd (onSlots_desk log (.assign target source) ⟨target_below, below⟩)]
    exact bare_slots (Desk.bare_assign other (isSome_desk target_below) (isSome_desk below))
  case destroyed =>
    intro i below
    exact ⟨{}, List.getElem?_set_self below, rfl⟩
  case rejects =>
    intro i bytes offset bare
    obtain ⟨below, again⟩ := reusable bare
    rw [show s.writeAll i bytes offset = _ from onSlots_desk log (.writeAll i bytes offset) below]
    dsimp only [Call.granted]
    rw [again.rejects, slots_desk]
  case opens =>
    intro i path d w bare opened
    obtain ⟨below, again⟩ := reusable bare
    obtain ⟨ok, own⟩ := again.opens path d w opened
    rw [openAt_desk log below]
    exact ⟨ok, owns_slots own⟩

end Slots
end ForwardIndex.FileHandle
