import ForwardIndex.Proofs.Steady

/-!
# Writers that nothing disturbs but their callers

A writer with a built-in compressor, none of whose calls reports that the system failed or that an
offset is too large. What its calls come to is then decided by the raw chunks stored so far, the
chunk in the buffer, and how many chunks the header declares; neither the version of the format nor
the compression has a say.
-/
set_option autoImplicit false
namespace ForwardIndex

namespace Failure

/-- The kinds of all failures that are reported together. -/
def kinds : Failure → List Kind
  | .followedBy first second => first.kinds ++ second.kinds
  | e => [e.kind]

/-- A failure of the system, or of an offset too large for the table, is reported. -/
def Disturbs (e : Failure) : Prop := .io ∈ e.kinds ∨ .overflow ∈ e.kinds

instance (e : Failure) : Decidable e.Disturbs := inferInstanceAs (Decidable (_ ∨ _))

theorem kind_mem_kinds (e : Failure) : e.kind ∈ e.kinds := by
  induction e with
  | followedBy first second ih => exact List.mem_append_left _ ih
  | _ => exact List.mem_singleton_self _

/-- Some kinds of failure are disturbances. -/
theorem disturbs_of_kind {e : Failure} (h : e.kind = .io ∨ e.kind = .overflow) : e.Disturbs := by
  have kind := e.kind_mem_kinds
  obtain io | overflow := h
  · exact .inl (io ▸ kind)
  · exact .inr (overflow ▸ kind)

theorem disturbs_followedBy {first second : Failure} :
    (followedBy first second).Disturbs ↔ first.Disturbs ∨ second.Disturbs := by
  simp only [Disturbs, kinds, List.mem_append]
  tauto

end Failure

namespace Outcome

/-- What a call is answered with: the kind of its failure, if it fails. -/
def status (outcome : Outcome) : Option Failure.Kind :=
  match outcome with
  | .ok _ => none
  | .error e => some e.kind

/-- No disturbance is reported. -/
def Quiet (outcome : Outcome) : Prop := ∀ e, outcome = .error e → ¬ e.Disturbs

theorem quiet_ok (u : Unit) : Quiet (.ok u) := nofun

instance : (outcome : Outcome) → Decidable outcome.Quiet
  | .ok _ => isTrue nofun
  | .error e =>
    decidable_of_iff (¬ e.Disturbs) ⟨fun quiet _ same => by cases same; exact quiet, fun h => h e rfl⟩

end Outcome

namespace ChunkWriter

section Quiet

variable {job : Job} {raw : List Bytes} {b : Buffer} {w : ChunkWriter} {s : Session}

/-- A flush is refused, or stores the chunk in the buffer. Which of both depends only on whether
there is a chunk, and on how many are stored and declared. -/
theorem Steady.flush_quiet (h : Steady job raw b w s) (quiet : (w.flush s).1.Quiet) :
    if b.isEmpty ∨ job.blank.capacity ≤ raw.length then
      (w.flush s).1.status = some .usage ∧ (w.flush s).2 = (w, s)
    else
      (w.flush s).1 = .ok () ∧
        Steady job (raw ++ [b.filled]) b.clear (w.flush s).2.1 (w.flush s).2.2 := by
  by_cases none : b.isEmpty
  · rw [if_pos (.inl none), h.works.flush_empty none]
    exact ⟨rfl, rfl⟩
  have some : b.isEmpty = false := by simpa using none
  by_cases all : job.blank.capacity ≤ raw.length
  · obtain ⟨e, usage, refused⟩ := h.flush_full some all
    rw [if_pos (.inr all), refused]
    exact ⟨congrArg Option.some usage, rfl⟩
  rw [if_neg (not_or.2 ⟨none, all⟩)]
  by_cases room : job.HasRoom raw
  · obtain ⟨outcome, w', s', flushed, stores, io, -⟩ := h.flush some room
    rw [flushed] at quiet ⊢
    cases outcome with
    | ok u => exact ⟨rfl, stores rfl⟩
    | error e => exact absurd (Failure.disturbs_of_kind (.inl (io e rfl))) (quiet e rfl)
  · obtain ⟨e, log, overflow, far⟩ := h.flush_far some (Nat.not_le.1 all) room
    rw [far] at quiet
    exact absurd (Failure.disturbs_of_kind (.inr overflow)) (quiet e rfl)

/-- The chunk in the buffer is one more than are declared. -/
def Surplus (job : Job) (raw : List Bytes) (b : Buffer) : Prop :=
  b.isEmpty = false ∧ job.blank.capacity ≤ raw.length

instance (job : Job) (raw : List Bytes) (b : Buffer) : Decidable (Surplus job raw b) :=
  inferInstanceAs (Decidable (_ ∧ _))

/-- A close stores the chunk in the buffer and writes the header; with a chunk too many it leaves
the file as it is. -/
theorem Steady.close_quiet (h : Steady job raw b w s) (quiet : (w.close s).1.Quiet) :
    if Surplus job raw b then
      (w.close s).1.status = some .usage ∧
        job.Ended raw (job.unheaded raw) (w.close s).2.1 (w.close s).2.2.volume
    else
      (w.close s).1.status =
          (if (filledUp raw b).length < job.blank.capacity then some .usage else none) ∧
        job.Finished (filledUp raw b) (w.close s).2.1 (w.close s).2.2.volume := by
  by_cases surplus : Surplus job raw b
  · rw [if_pos surplus]
    obtain ⟨some, all⟩ := surplus
    obtain ⟨e, usage, misused⟩ := h.flush_full some all
    obtain ⟨e', w', s', failed, closed, ended, -⟩ :=
      h.close_refused some fun room => Nat.not_lt.2 all room.1
    rw [misused] at failed
    cases failed
    rw [closed]
    exact ⟨congrArg Option.some usage, ended⟩
  rw [if_neg surplus]
  have room : b.isEmpty ∨ job.HasRoom raw := by
    by_contra none
    obtain ⟨some, none⟩ := not_or.1 none
    have some : b.isEmpty = false := by simpa using some
    have few : raw.length < job.blank.capacity := Nat.not_le.1 fun all => surplus ⟨some, all⟩
    obtain ⟨e, log, overflow, far⟩ := h.flush_far some few none
    obtain ⟨e', w', s', failed, closed, -⟩ := h.close_refused some none
    rw [far] at failed
    cases failed
    rw [closed] at quiet
    exact quiet e rfl (Failure.disturbs_of_kind (.inr overflow))
  have closed := h.close room
  have reported : (w.close s).1 = job.closing (filledUp raw b) := by
    refine closed.reports.resolve_right ?_
    rintro ⟨e, failed, io⟩
    exact quiet e failed (Failure.disturbs_of_kind (.inl io))
  refine ⟨?_, closed.finished reported⟩
  rw [reported, Job.closing]
  split <;> rfl

end Quiet

end ChunkWriter
end ForwardIndex
