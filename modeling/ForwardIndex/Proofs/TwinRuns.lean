import ForwardIndex.Proofs.Lockstep
import ForwardIndex.Proofs.QuietWriter

/-!
# Two runs of an encoder

Two writers that are opened for the same documents go abreast, whatever the version and the
compression of each, as long as nothing disturbs them: they have stored the same raw chunks and fill
the same buffer. One lemma per call says that it is answered alike and keeps them abreast.
-/
set_option autoImplicit false
namespace ForwardIndex

open ChunkWriter (Steady Surplus)

/-- Two jobs that differ in no more than the version, the compression and the file. -/
structure Job.Matches (job job' : Job) : Prop where
  capacity : job'.capacity = job.capacity
  blank : job'.blank =
    { job.blank with version := job'.blank.version, compression := job'.blank.compression }
  encode : job'.blank.compression = job.blank.compression → job'.encode = job.encode

namespace Job.Matches

variable {job job' : Job}

theorem declared (m : job.Matches job') : job'.blank.capacity = job.blank.capacity := by
  rw [m.blank]
  rfl

theorem entrySize (m : job.Matches job') : job'.blank.entrySize = job.blank.entrySize := by
  rw [m.blank]

end Job.Matches

/-- A call that two writers answer alike fails for both or for none. -/
theorem Outcome.status_eq_none {outcome : Outcome} : outcome.status = none ↔ outcome = .ok () := by
  cases outcome with
  | ok u => exact iff_of_true rfl rfl
  | error e => constructor <;> intro same <;> cases same

namespace ChunkWriter

/-- Two writers that have stored the same raw chunks and fill the same buffer. -/
structure Abreast (job job' : Job) (raw : List Bytes) (b : Buffer) (w w' : ChunkWriter)
    (s s' : Session) : Prop where
  jobs : job.Matches job'
  left : Steady job raw b w s
  right : Steady job' raw b w' s'

/-- Two writers that were closed with the same raw chunks, both files with or both without their
header. -/
inductive Parted (job job' : Job) (w w' : ChunkWriter) (s s' : Session) : Prop
  | bare (raw : List Bytes) (jobs : job.Matches job')
      (left : job.Ended raw (job.unheaded raw) w s.volume)
      (right : job'.Ended raw (job'.unheaded raw) w' s'.volume)
  | whole (raw : List Bytes) (jobs : job.Matches job') (left : job.Finished raw w s.volume)
      (right : job'.Finished raw w' s'.volume)

section Abreast

variable {job job' : Job} {raw : List Bytes} {b : Buffer} {w w' : ChunkWriter} {s s' : Session}

theorem Abreast.header (h : Abreast job job' raw b w w' s s') :
    w'.header.entrySize = w.header.entrySize := by
  rw [h.left.header, h.right.header]
  exact h.jobs.entrySize

theorem Abreast.onBuffer {α : Type} (h : Abreast job job' raw b w w' s s') (f : Buffer → α × Buffer)
    (keeps : (f b).2.capacity = b.capacity) :
    ∃ core core', w.onBuffer f = ((f b).1, core) ∧ w'.onBuffer f = ((f b).1, core') ∧
      Abreast job job' raw (f b).2 core core' s s' := by
  obtain ⟨core, same, left⟩ := h.left.onBuffer f keeps
  obtain ⟨core', same', right⟩ := h.right.onBuffer f keeps
  exact ⟨core, core', same, same', h.jobs, left, right⟩

theorem Abreast.flush (h : Abreast job job' raw b w w' s s') (quiet : (w.flush s).1.Quiet)
    (quiet' : (w'.flush s').1.Quiet) :
    (w.flush s).1.status = (w'.flush s').1.status ∧
      ∃ raw' b', Abreast job job' raw' b' (w.flush s).2.1 (w'.flush s').2.1 (w.flush s).2.2
        (w'.flush s').2.2 := by
  have left := h.left.flush_quiet quiet
  have right := h.right.flush_quiet quiet'
  rw [h.jobs.declared] at right
  split at left
  · next refused =>
    rw [if_pos refused] at right
    rw [left.1, left.2, right.1, right.2]
    exact ⟨rfl, raw, b, h⟩
  · next taken =>
    rw [if_neg taken] at right
    rw [left.1, right.1]
    exact ⟨rfl, _, _, h.jobs, left.2, right.2⟩

theorem Abreast.close (h : Abreast job job' raw b w w' s s') (quiet : (w.close s).1.Quiet)
    (quiet' : (w'.close s').1.Quiet) :
    (w.close s).1.status = (w'.close s').1.status ∧
      Parted job job' (w.close s).2.1 (w'.close s').2.1 (w.close s).2.2 (w'.close s').2.2 := by
  have left := h.left.close_quiet quiet
  have right := h.right.close_quiet quiet'
  have surplus : Surplus job' raw b ↔ Surplus job raw b := by
    rw [Surplus, Surplus, h.jobs.declared]
  by_cases refused : Surplus job raw b
  · rw [if_pos refused] at left
    rw [if_pos (surplus.2 refused)] at right
    exact ⟨left.1.trans right.1.symm, .bare raw h.jobs left.2 right.2⟩
  · rw [if_neg refused] at left
    rw [if_neg fun other => refused (surplus.1 other), h.jobs.declared] at right
    exact ⟨left.1.trans right.1.symm, .whole _ h.jobs left.2 right.2⟩

end Abreast

/-! ## Lockstep -/

/-- Two writers are abreast with some raw chunks and some buffer. -/
def Going (job job' : Job) (x x' : ChunkWriter × Session) : Prop :=
  ∃ raw b, Abreast job job' raw b x.1 x'.1 x.2 x'.2

/-- Two writers were closed with the same raw chunks. -/
def Done (job job' : Job) (x x' : ChunkWriter × Session) : Prop := Parted job job' x.1 x'.1 x.2 x'.2

/-- Writers that are abreast stay so as long as nothing disturbs them. -/
theorem lockstep (job job' : Job) :
    Lockstep (Going job job') (Done job job') Outcome.Quiet fun outcome outcome' =>
      outcome.status = outcome'.status where
  refl _ := rfl
  ok same := by rw [← Outcome.status_eq_none, ← Outcome.status_eq_none, same]
  andThen {first first' second second'} same same' := by
    cases first <;> cases first' <;> cases second <;> cases second' <;> simp_all [Outcome.andThen,
      Outcome.status, Failure.kind]
  calm_ok := Outcome.quiet_ok ()
  calm {first second} quiet := by
    cases first with
    | ok u => exact ⟨Outcome.quiet_ok u, quiet⟩
    | error e =>
      cases second with
      | ok u => exact ⟨quiet, Outcome.quiet_ok u⟩
      | error e' =>
        obtain ⟨first, second⟩ := not_or.1 (mt Failure.disturbs_followedBy.2 (quiet _ rfl))
        exact ⟨fun _ h => by cases h; exact first, fun _ h => by cases h; exact second⟩
  isOpen := fun ⟨_, _, h⟩ => h.right.isOpen.trans h.left.isOpen.symm
  entrySize := fun ⟨_, _, h⟩ => h.header
  buffer := fun ⟨_, _, h⟩ => h.right.buffer.trans h.left.buffer.symm
  onBuffer f keeps := fun ⟨raw, b, h⟩ => by
    obtain ⟨core, core', same, same', related⟩ := h.onBuffer f (keeps b)
    rw [same, same']
    exact ⟨rfl, raw, _, related⟩
  flush := fun ⟨_, _, h⟩ quiet quiet' => by
    obtain ⟨same, related⟩ := h.flush quiet quiet'
    exact ⟨same, related⟩
  close := fun ⟨_, _, h⟩ quiet quiet' => by
    obtain ⟨same, parted⟩ := h.close quiet quiet'
    exact ⟨same, parted⟩

end ChunkWriter
end ForwardIndex
