import ForwardIndex.Proofs.Lifecycle
import Mathlib.Data.List.Chain
import Mathlib.Logic.Relation

/-!
# What a writer owns is released

A compressor that is handed over is closed exactly once, and is not called afterwards. This rests on
who holds which compressor: `Custody.Moves` says all that an action can do about it, `Accounted` is
what every move keeps, and the end of the life leaves nothing held. The same lives move through the
three phases in order, and a close gives everything back whatever fails in it.
-/
set_option autoImplicit false
namespace ForwardIndex

/-- A compressor was closed once, and that was the last it was told. -/
def ReleasedOnce (id : Nat) (told : List CodecEvent) : Prop :=
  ∃ before after, told = before ++ .closed id :: after ∧ .closed id ∉ before ∧
    .closed id ∉ after ∧ .compressed id ∉ after

/-- What is told to other compressors later makes no difference. -/
theorem ReleasedOnce.append {id : Nat} {told : List CodecEvent} (h : ReleasedOnce id told)
    {more : List CodecEvent} (closed : .closed id ∉ more) (compressed : .compressed id ∉ more) :
    ReleasedOnce id (told ++ more) := by
  obtain ⟨before, after, rfl, first, last, silent⟩ := h
  refine ⟨before, after ++ more, by rw [List.append_assoc]; rfl, first, ?_, ?_⟩
  · rw [List.mem_append, not_or]
    exact ⟨last, closed⟩
  · rw [List.mem_append, not_or]
    exact ⟨silent, compressed⟩

theorem ReleasedOnce.concat {id : Nat} {told : List CodecEvent} (h : .closed id ∉ told) :
    ReleasedOnce id (told ++ [.closed id]) :=
  ⟨told, [], rfl, h, List.not_mem_nil, List.not_mem_nil⟩

/-! ## Who holds which compressor -/

/-- What compressors were told, how many were handed over, and which one a writer holds. -/
structure Custody where
  told : List CodecEvent
  handed : Nat
  held : Option Nat

namespace Custody

/-- All that can happen to compressors: one is handed over and closed at once, or taken; the one
that is held is called, or closed and given up. -/
inductive Moves : Custody → Custody → Prop
  | refuse (told : List CodecEvent) (handed : Nat) (held : Option Nat) :
      Moves ⟨told, handed, held⟩ ⟨told ++ [.closed handed], handed + 1, held⟩
  | take (told : List CodecEvent) (handed : Nat) :
      Moves ⟨told, handed, none⟩ ⟨told, handed + 1, some handed⟩
  | use (told : List CodecEvent) (handed id : Nat) :
      Moves ⟨told, handed, some id⟩ ⟨told ++ [.compressed id], handed, some id⟩
  | release (told : List CodecEvent) (handed id : Nat) :
      Moves ⟨told, handed, some id⟩ ⟨told ++ [.closed id], handed, none⟩

/-- Since a point in the life of a session, every compressor that was handed over has been released
once, but for the one that is held, which has not been closed. -/
structure Accounted (first : Nat) (old : List CodecEvent) (c : Custody) : Prop where
  more : first ≤ c.handed
  held : ∀ id, c.held = some id → first ≤ id ∧ id < c.handed
  told : ∃ since, c.told = old ++ since ∧
    (∀ id, .compressed id ∈ since ∨ .closed id ∈ since → id < c.handed) ∧
    ∀ id, first ≤ id → id < c.handed →
      if c.held = some id then .closed id ∉ since else ReleasedOnce id since

theorem Accounted.start (told : List CodecEvent) (handed : Nat) :
    Accounted handed told ⟨told, handed, none⟩ where
  more := Nat.le_refl _
  held := nofun
  told := ⟨[], (List.append_nil _).symm, by simp, fun id least below =>
    absurd below (Nat.not_lt.2 least)⟩

/-- Each move keeps the account; by cases on the move. -/
theorem Accounted.moves {first : Nat} {old : List CodecEvent} {c c' : Custody}
    (h : Accounted first old c) (move : Moves c c') : Accounted first old c' := by
  obtain ⟨more, held, since, told, known, account⟩ := h
  cases move with
  | refuse told₀ handed held₀ =>
    dsimp only at more held told known account
    have fresh : .closed handed ∉ since := fun among => Nat.lt_irrefl _ (known _ (.inr among))
    refine ⟨Nat.le_succ_of_le more, fun id h => ?_, since ++ [.closed handed], ?_, ?_, ?_⟩
    · exact ⟨(held id h).1, Nat.lt_succ_of_lt (held id h).2⟩
    · rw [told, List.append_assoc]
    · intro id among
      have := known id
      grind
    · intro id least below
      dsimp only at below ⊢
      obtain earlier | rfl := Nat.lt_succ_iff_lt_or_eq.1 below
      · have other : id ≠ handed := Nat.ne_of_lt earlier
        have account := account id least earlier
        split
        · next holds =>
          rw [if_pos holds] at account
          simp [account, other]
        · next free =>
          rw [if_neg free] at account
          exact account.append (by simp [other]) (by simp)
      · have free : held₀ ≠ some id := fun holds => Nat.lt_irrefl _ (held id holds).2
        rw [if_neg free]
        exact .concat fresh
  | take told₀ handed =>
    dsimp only at more held told known account
    refine ⟨Nat.le_succ_of_le more, fun id h => ?_, since, told, ?_, ?_⟩
    · cases h
      exact ⟨more, Nat.lt_succ_self _⟩
    · exact fun id among => Nat.lt_succ_of_lt (known id among)
    · intro id least below
      dsimp only at below ⊢
      obtain earlier | rfl := Nat.lt_succ_iff_lt_or_eq.1 below
      · rw [if_neg (by simpa using (Nat.ne_of_lt earlier).symm)]
        exact account id least earlier
      · rw [if_pos rfl]
        exact fun among => Nat.lt_irrefl _ (known _ (.inr among))
  | use told₀ handed mine =>
    dsimp only at more held told known account
    refine ⟨more, held, since ++ [.compressed mine], ?_, ?_, ?_⟩
    · rw [told, List.append_assoc]
    · intro id among
      have := known id
      have := (held mine rfl).2
      grind
    · intro id least below
      have account := account id least below
      split
      · next holds =>
        rw [if_pos holds] at account
        simpa using account
      · next other =>
        rw [if_neg other] at account
        refine account.append (by simp) ?_
        simpa [eq_comm] using other
  | release told₀ handed mine =>
    dsimp only at more held told known account
    refine ⟨more, nofun, since ++ [.closed mine], ?_, ?_, ?_⟩
    · rw [told, List.append_assoc]
    · intro id among
      have := known id
      have := (held mine rfl).2
      grind
    · intro id least below
      have account := account id least below
      rw [if_neg nofun]
      by_cases same : mine = id
      · subst same
        rw [if_pos rfl] at account
        exact .concat account
      · rw [if_neg (by simpa using same)] at account
        exact account.append (by simpa [eq_comm] using same) (by simp)

/-- So does a sequence of moves. -/
theorem Accounted.run {first : Nat} {old : List CodecEvent} {c c' : Custody}
    (h : Accounted first old c) (moves : Relation.ReflTransGen Moves c c') :
    Accounted first old c' := by
  induction moves with
  | refl => exact h
  | tail before move ih => exact ih.moves move

/-- An account that holds nothing has released every compressor once. -/
theorem Accounted.all_released {first : Nat} {old : List CodecEvent} {c : Custody}
    (h : Accounted first old c) (free : c.held = none) :
    ∃ since, c.told = old ++ since ∧
      ∀ id, first ≤ id → id < c.handed → ReleasedOnce id since := by
  obtain ⟨since, told, -, account⟩ := h.told
  refine ⟨since, told, fun id least below => ?_⟩
  have account := account id least below
  rwa [if_neg (by simp [free])] at account

end Custody

namespace ChunkWriter
open Relation (ReflTransGen)

/-- The number of the compressor that a writer holds. -/
def held (w : ChunkWriter) : Option Nat := w.codec?.map Codec.id

def custody (w : ChunkWriter) (s : Session) : Custody := ⟨s.events.toList, s.handed, w.held⟩

theorem held_of_isOpen {w : ChunkWriter} (h : w.isOpen) : ∃ id, w.held = some id := by
  obtain ⟨logger, header, file, cursor, stage⟩ := w
  cases stage with
  | unopened => cases h
  | closed => cases h
  | writing codec b staging => exact ⟨codec.id, rfl⟩

theorem held_of_idle {w : ChunkWriter} (h : w.isOpen = false) : w.held = none := by
  obtain ⟨logger, header, file, cursor, stage⟩ := w
  cases stage with
  | unopened => rfl
  | closed => rfl
  | writing codec b staging => cases h

/-! ### Flushing -/

/-- What a flush does to compressors: the one that is held may be called, and stays held. -/
structure Calls (w : ChunkWriter) (s : Session) (w' : ChunkWriter) (s' : Session) : Prop where
  held : w'.held = w.held
  handed : s'.handed = s.handed
  told : s'.events = s.events ∨ ∃ id, w.held = some id ∧ s'.events = s.events.push (.compressed id)

theorem flush_calls (w : ChunkWriter) (s : Session) :
    Calls w s (w.flush s).2.1 (w.flush s).2.2 := by
  obtain ⟨logger, header, file, cursor, stage⟩ := w
  cases stage with
  | unopened => exact ⟨rfl, rfl, .inl rfl⟩
  | closed => exact ⟨rfl, rfl, .inl rfl⟩
  | writing codec b staging =>
    rw [flush]
    split
    · exact ⟨rfl, rfl, .inl rfl⟩
    split
    · exact ⟨rfl, rfl, .inl rfl⟩
    split
    · exact ⟨rfl, rfl, .inl rfl⟩
    -- From here on the compressor has been called, whatever comes of it.
    dsimp only [compressChunk]
    split
    · exact ⟨rfl, rfl, .inr ⟨_, rfl, rfl⟩⟩
    split
    · exact ⟨rfl, rfl, .inr ⟨_, rfl, rfl⟩⟩
    split
    · exact ⟨rfl, rfl, .inr ⟨_, rfl, rfl⟩⟩
    · exact ⟨rfl, rfl, .inr ⟨_, rfl, rfl⟩⟩

theorem flushPending_calls (w : ChunkWriter) (s : Session) :
    Calls w s (w.flushPending s).2.1 (w.flushPending s).2.2 := by
  unfold flushPending
  split
  · exact ⟨rfl, rfl, .inl rfl⟩
  · exact w.flush_calls s

theorem Calls.custody {w w' : ChunkWriter} {s s' : Session} (h : Calls w s w' s') :
    ReflTransGen Custody.Moves (w.custody s) (w'.custody s') := by
  obtain ⟨held, handed, same | ⟨id, mine, called⟩⟩ := h
  · rw [ChunkWriter.custody, ChunkWriter.custody, held, handed, same]
  · rw [ChunkWriter.custody, ChunkWriter.custody, held, handed, called, mine, Array.toList_push]
    exact .single (.use _ _ _)

/-! ### Closing -/

/-- The first failure among the outcomes of steps that were taken. -/
def firstFailure : List Outcome → Outcome
  | [] => .ok ()
  | .error e :: _ => .error e
  | .ok _ :: rest => firstFailure rest

theorem firstFailure_singleton (outcome : Outcome) : firstFailure [outcome] = outcome := by
  cases outcome <;> rfl

/-- What the steps of a close come to, in their order: the flush of what is pending, the write of
the header, the closing of the file, and the count of the chunks. Behind a flush that fails only
the file is closed. -/
def closingSteps (w : ChunkWriter) (s : Session) : List Outcome :=
  match w.flushPending s with
  | (.error e, w, s) => [.error e, (w.file.close s.volume).1]
  | (.ok (), w, s) =>
    let (written, s) := w.writeHeader s
    [written, (w.file.close s.volume).1, w.closingOutcome (.ok ())]

/-- What a close comes to that is not refused: it reports the first failure, and whatever fails,
the file is closed, the compressor is closed and given up, and the buffers are gone. -/
structure GivesBack (w : ChunkWriter) (s : Session) (r : Outcome × ChunkWriter × Session) :
    Prop where
  outcome : r.1 = firstFailure (w.closingSteps s)
  closed : r.2.1.isClosed
  file : r.2.1.file.isOpen = false
  codec : r.2.1.codec? = none
  buffer : r.2.1.buffer.capacity = 0
  released : ∃ id, w.held = some id ∧
    r.2.2.events = (w.flushPending s).2.2.events.push (.closed id)
  handed : r.2.2.handed = s.handed

theorem conclude_spec (w : ChunkWriter) (s : Session) :
    ∃ log, w.conclude s = (w.closingOutcome (.ok ()), w, { s with log }) := by
  unfold conclude closingOutcome
  dsimp only
  split <;> exact ⟨_, rfl⟩

/-- A release behind an outcome, with the count of the chunks where nothing has failed. -/
theorem release_spec {w : ChunkWriter} {id : Nat} (mine : w.held = some id) (soFar : Outcome)
    (s : Session) :
    ∃ log, (match w.release soFar s with
      | (.error e, w, s) => (.error e, w, s)
      | (.ok (), w, s) => w.conclude s : Outcome × ChunkWriter × Session) =
      (firstFailure [soFar, (w.file.close s.volume).1, w.closingOutcome (.ok ())],
        { w with file := (w.file.close s.volume).2.1, stage := .closed },
        { s with volume := (w.file.close s.volume).2.2, log,
                 events := s.events.push (.closed id) }) := by
  obtain ⟨logger, header, file, cursor, stage⟩ := w
  cases stage with
  | unopened => cases mine
  | closed => cases mine
  | writing codec b staging =>
    cases mine
    rcases hc : file.close s.volume with ⟨closing, f, v⟩
    simp only [release, hc, Session.closeCodec]
    cases soFar with
    | error e => exact ⟨s.log, rfl⟩
    | ok u =>
      cases closing with
      | error e => exact ⟨s.log, rfl⟩
      | ok u =>
        obtain ⟨log, concluded⟩ := conclude_spec ⟨logger, header, f, cursor, .closed⟩
          { s with volume := v, events := s.events.push (.closed codec.id) }
        refine ⟨log, concluded.trans ?_⟩
        rw [firstFailure, firstFailure, firstFailure_singleton]
        rfl

theorem close_givesBack {w : ChunkWriter} (h : w.isOpen) (s : Session) :
    GivesBack w s (w.close s) := by
  obtain ⟨id, mine⟩ := held_of_isOpen h
  have calls := w.flushPending_calls s
  have given (w₁ : ChunkWriter) (s₁ : Session) (outcome : Outcome) (s₂ : Session)
      (flushed : (w.flushPending s).2 = (w₁, s₁)) (same : s₂.events = s₁.events)
      (handed : s₂.handed = s₁.handed)
      (steps : firstFailure (w.closingSteps s) = firstFailure
        [outcome, (w₁.file.close s₂.volume).1, w₁.closingOutcome (.ok ())]) :
      GivesBack w s (match w₁.release outcome s₂ with
        | (.error e, w, s) => (.error e, w, s)
        | (.ok (), w, s) => w.conclude s : Outcome × ChunkWriter × Session) := by
    rw [flushed] at calls
    obtain ⟨log, released⟩ := release_spec (calls.held.trans mine) outcome s₂
    rw [released]
    refine ⟨steps.symm, rfl, FileHandle.close_isOpen _ _, rfl, rfl, ⟨id, mine, ?_⟩,
      handed.trans calls.handed⟩
    rw [flushed, ← same]
  rw [close_of_isOpen h]
  rcases hf : w.flushPending s with ⟨flushed, w₁, s₁⟩
  rw [hf] at given
  cases flushed with
  | error e =>
    refine given w₁ s₁ (.error e) s₁ rfl rfl rfl ?_
    rw [closingSteps, hf]
    rfl
  | ok u =>
    refine given w₁ s₁ (w₁.writeHeader s₁).1 (w₁.writeHeader s₁).2 rfl rfl rfl ?_
    rw [closingSteps, hf]

/-- What an operation reports that is forbidden in the stage the writer is in: a failure, with the
writer and the volume as they were. -/
def Rejected (w : ChunkWriter) (s : Session) (r : Outcome × ChunkWriter × Session) : Prop :=
  ∃ e s', r = (.error e, w, s') ∧ s'.volume = s.volume

theorem flush_rejected {w : ChunkWriter} (h : w.isOpen = false) (s : Session) :
    Rejected w s (w.flush s) := by
  obtain ⟨logger, header, file, cursor, stage⟩ := w
  cases stage with
  | unopened => exact ⟨_, s, rfl, rfl⟩
  | closed => exact ⟨_, s, rfl, rfl⟩
  | writing codec b staging => cases h

theorem close_rejected {w : ChunkWriter} (h : w.isOpen = false) (s : Session) :
    ∃ e, w.close s = (.error e, w, s) := by
  obtain ⟨logger, header, file, cursor, stage⟩ := w
  cases stage with
  | unopened => exact ⟨_, rfl⟩
  | closed => exact ⟨_, rfl⟩
  | writing codec b staging => cases h

theorem GivesBack.custody {w : ChunkWriter} {s : Session} {r : Outcome × ChunkWriter × Session}
    (h : GivesBack w s r) : ReflTransGen Custody.Moves (w.custody s) (r.2.1.custody r.2.2) := by
  obtain ⟨id, mine, released⟩ := h.released
  have calls := w.flushPending_calls s
  refine calls.custody.tail ?_
  have gone : r.2.1.held = none := by rw [held, h.codec]; rfl
  rw [ChunkWriter.custody, ChunkWriter.custody, calls.held, mine, released, gone, h.handed,
    calls.handed, Array.toList_push]
  exact .release _ _ _

/-- After a close the compressor that was held is closed, and nothing is held. -/
theorem close_custody (w : ChunkWriter) (s : Session) :
    ReflTransGen Custody.Moves (w.custody s) ((w.close s).2.1.custody (w.close s).2.2) := by
  by_cases h : w.isOpen
  · exact (close_givesBack h s).custody
  · obtain ⟨e, rejected⟩ := close_rejected (by simpa using h) s
    rw [rejected]

/-! ### Opening -/

/-- What becomes of a compressor that is handed over with an opening: it is taken where the opening
is accepted, and closed at once where it is not. -/
structure TakesOver (w : ChunkWriter) (c : Compressor) (s : Session)
    (r : Outcome × ChunkWriter × Session) : Prop where
  handed : r.2.2.handed = s.handed + 1
  accepted : r.1 = .ok () → w.isUnopened ∧ r.2.1.codec? = some ⟨c, s.handed, 0⟩ ∧
    r.2.2.events = s.events
  refused : r.1 ≠ .ok () → r.2.1.stage = w.stage ∧
    r.2.2.events = s.events.push (.closed s.handed)

theorem openWith_takesOver (w : ChunkWriter) (path : Text) (params : Parameters) (c : Compressor)
    (s : Session) : TakesOver w c s (w.openWith path params (some c) s) := by
  unfold openWith
  dsimp only [Session.handOver]
  by_cases fresh : w.isUnopened
  · rw [fresh]
    cases params.check with
    | error e => exact ⟨rfl, nofun, fun _ => ⟨rfl, rfl⟩⟩
    | ok u =>
      rcases w.file.openAt path s.volume with ⟨outcome, f, v⟩
      cases outcome with
      | error e => exact ⟨rfl, nofun, fun _ => ⟨rfl, rfl⟩⟩
      | ok u => exact ⟨rfl, fun _ => ⟨fresh, rfl, rfl⟩, fun no => absurd rfl no⟩
  · rw [Bool.not_eq_true] at fresh
    rw [fresh]
    exact ⟨rfl, nofun, fun _ => ⟨rfl, rfl⟩⟩

theorem openWith_rejected {w : ChunkWriter} (h : w.isUnopened = false) (path : Text)
    (params : Parameters) (compressor : Option Compressor) (s : Session) :
    Rejected w s (w.openWith path params compressor s) := by
  cases compressor with
  | none => exact ⟨_, s, rfl, rfl⟩
  | some c =>
    unfold openWith
    rw [h]
    exact ⟨_, _, rfl, rfl⟩

theorem openBuiltin_rejected {w : ChunkWriter} (h : w.isUnopened = false) (path : Text)
    (params : Parameters) (s : Session) (z : Deflater) :
    Rejected w s (w.openBuiltin path params s z) := by
  unfold openBuiltin
  rw [h]
  exact ⟨_, s, rfl, rfl⟩

theorem TakesOver.custody {w : ChunkWriter} {c : Compressor} {s : Session}
    {r : Outcome × ChunkWriter × Session} (h : TakesOver w c s r) :
    Custody.Moves (w.custody s) (r.2.1.custody r.2.2) := by
  by_cases accepted : r.1 = .ok ()
  · obtain ⟨fresh, taken, told⟩ := h.accepted accepted
    have free : w.held = none := held_of_idle (isOpen_of_isUnopened fresh)
    have mine : r.2.1.held = some s.handed := by rw [held, taken]; rfl
    rw [ChunkWriter.custody, ChunkWriter.custody, free, mine, h.handed, told]
    exact .take _ _
  · obtain ⟨stage, told⟩ := h.refused accepted
    have same : r.2.1.held = w.held := by rw [held, held, codec?, codec?, stage]
    rw [ChunkWriter.custody, ChunkWriter.custody, same, h.handed, told, Array.toList_push]
    exact .refuse _ _ _

/-! ## A life and its end -/

inductive Phase where
  | unopened
  | writing
  | closed
  deriving DecidableEq

/-- The phase after a step: the same one, or the next. -/
inductive Phase.Next : Phase → Phase → Prop
  | stays (phase : Phase) : Next phase phase
  | opens : Next .unopened .writing
  | closes : Next .writing .closed

def phase (w : ChunkWriter) : Phase := match w.stage with
  | .unopened => .unopened
  | .writing .. => .writing
  | .closed => .closed

/-- A writer and what it shares after an action, whatever the action reports. -/
def step (w : ChunkWriter) (s : Session) : Action → ChunkWriter × Session
  | .openWith path params compressor => (w.openWith path params compressor s).2
  | .openBuiltin path params z => (w.openBuiltin path params s z).2
  | .call call => perform (w, s) call
  | .close => (w.close s).2

/-- A life up to its end. Before every action the volume may change in any way. -/
def lived (w : ChunkWriter) (s : Session) : List (Action × Volume) → ChunkWriter × Session
  | [] => (w, s)
  | (action, volume) :: rest =>
    lived (w.step { s with volume } action).1 (w.step { s with volume } action).2 rest

/-- What a life leaves that ends with the writer, on some volume. -/
def lifetime (w : ChunkWriter) (s : Session) (actions : List (Action × Volume)) (last : Volume) :
    Session :=
  (lived w s actions).1.drop { (lived w s actions).2 with volume := last }

/-- The phases that a life passes through, one after every action. -/
def phases (w : ChunkWriter) (s : Session) : List (Action × Volume) → List Phase
  | [] => [w.phase]
  | (action, volume) :: rest =>
    w.phase :: phases (w.step { s with volume } action).1 (w.step { s with volume } action).2 rest

/-! ### Custody over a life -/

theorem onBuffer_held (w : ChunkWriter) (call : Buffer.Call) :
    (w.onBuffer call.apply).2.held = w.held := by
  obtain ⟨logger, header, file, cursor, stage⟩ := w
  cases stage <;> rfl

/-- What an action does to compressors; by cases on the action. -/
theorem step_custody (w : ChunkWriter) (s : Session) (action : Action) :
    ReflTransGen Custody.Moves (w.custody s) ((w.step s action).1.custody (w.step s action).2) := by
  cases action with
  | openWith path params compressor =>
    cases compressor with
    | none => exact .refl
    | some c => exact .single (w.openWith_takesOver path params c s).custody
  | openBuiltin path params z =>
    obtain ⟨e, refused⟩ | ⟨c, -, -, same⟩ := w.openBuiltin_cases path params s z
    · rw [step, refused]
    · rw [step, same]
      exact .single (w.openWith_takesOver path params c s).custody
  | call call =>
    cases call with
    | buffer call =>
      rw [custody, custody, step, perform, onBuffer_held]
    | flush => exact (w.flush_calls s).custody
  | close => exact w.close_custody s

/-- A life is a sequence of moves; by induction on the actions. -/
theorem lived_custody (w : ChunkWriter) (s : Session) (actions : List (Action × Volume)) :
    ReflTransGen Custody.Moves (w.custody s)
      ((lived w s actions).1.custody (lived w s actions).2) := by
  induction actions generalizing w s with
  | nil => exact .refl
  | cons first rest ih => exact (w.step_custody { s with volume := first.2 } first.1).trans (ih _ _)

/-- At its end a writer gives up what it holds. -/
theorem drop_custody (w : ChunkWriter) (s : Session) :
    ReflTransGen Custody.Moves (w.custody s)
      ⟨(w.drop s).events.toList, (w.drop s).handed, none⟩ := by
  unfold drop
  by_cases h : w.isOpen
  · have moves := w.close_custody s
    have gone : (w.close s).2.1.held = none := by rw [held, (close_givesBack h s).codec]; rfl
    rw [custody, custody, gone] at moves
    rw [h]
    rcases hc : w.close s with ⟨outcome, w', s'⟩
    rw [hc] at moves
    cases outcome with
    | error e => exact moves
    | ok u => exact moves
  · rw [Bool.not_eq_true] at h
    rw [h, custody, held_of_idle h]
    exact .refl

/-! ### Phases over a life -/

theorem phase_of_stage {w w' : ChunkWriter} (h : w'.stage = w.stage) : w'.phase = w.phase := by
  rw [phase, phase, h]

theorem phase_of_isUnopened {w : ChunkWriter} (h : w.isUnopened) : w.phase = .unopened := by
  unfold isUnopened at h
  unfold phase
  split at h
  · next stage => rw [stage]
  · cases h

theorem phase_of_isOpen {w : ChunkWriter} (h : w.isOpen) : w.phase = .writing := by
  unfold isOpen at h
  unfold phase
  split at h
  · next stage => rw [stage]
  · cases h

theorem phase_of_isClosed {w : ChunkWriter} (h : w.isClosed) : w.phase = .closed := by
  unfold isClosed at h
  unfold phase
  split at h
  · next stage => rw [stage]
  · cases h

theorem Phase.Next.of_eq {p q : Phase} (h : q = p) : p.Next q := h ▸ .stays p

theorem TakesOver.phase {w : ChunkWriter} {c : Compressor} {s : Session}
    {r : Outcome × ChunkWriter × Session} (h : TakesOver w c s r) : w.phase.Next r.2.1.phase := by
  by_cases accepted : r.1 = .ok ()
  · obtain ⟨fresh, taken, -⟩ := h.accepted accepted
    have opened : r.2.1.isOpen := by
      unfold codec? at taken
      split at taken
      · next stage => rw [isOpen, stage]
      · cases taken
    rw [phase_of_isUnopened fresh, phase_of_isOpen opened]
    exact .opens
  · exact .of_eq (phase_of_stage (h.refused accepted).1)

theorem flush_phase (w : ChunkWriter) (s : Session) : (w.flush s).2.1.phase = w.phase := by
  by_cases h : w.isOpen
  · have isOpen : (w.flush s).2.1.isOpen := by
      obtain ⟨e, -, unmoved⟩ | ⟨out, -, -, -, -, -, advanced⟩ := w.flush_moves s
      · exact unmoved.isOpen.trans h
      · exact advanced.isOpen
    rw [phase_of_isOpen h, phase_of_isOpen isOpen]
  · obtain ⟨e, s', rejected, -⟩ := flush_rejected (by simpa using h) s
    rw [rejected]

/-- An action leaves the phase or moves on to the next; by cases on the action. -/
theorem step_phase (w : ChunkWriter) (s : Session) (action : Action) :
    w.phase.Next (w.step s action).1.phase := by
  cases action with
  | openWith path params compressor =>
    cases compressor with
    | none => exact .stays _
    | some c => exact (w.openWith_takesOver path params c s).phase
  | openBuiltin path params z =>
    obtain ⟨e, refused⟩ | ⟨c, -, -, same⟩ := w.openBuiltin_cases path params s z
    · rw [step, refused]
      exact .stays _
    · rw [step, same]
      exact (w.openWith_takesOver path params c s).phase
  | call call =>
    cases call with
    | buffer call =>
      obtain ⟨logger, header, file, cursor, stage⟩ := w
      cases stage <;> exact .stays _
    | flush => exact .of_eq (w.flush_phase s)
  | close =>
    by_cases h : w.isOpen
    · rw [phase_of_isOpen h, step, phase_of_isClosed (close_givesBack h s).closed]
      exact .closes
    · obtain ⟨e, rejected⟩ := close_rejected (by simpa using h) s
      rw [step, rejected]
      exact .stays _

/-- The phases of a life follow each other in order; by induction on the actions. -/
theorem phases_chain (w : ChunkWriter) (s : Session) (actions : List (Action × Volume)) :
    (phases w s actions).head? = some w.phase ∧ (phases w s actions).IsChain Phase.Next := by
  induction actions generalizing w s with
  | nil => exact ⟨rfl, .singleton _⟩
  | cons first rest ih =>
    obtain ⟨head, chain⟩ := ih (w.step { s with volume := first.2 } first.1).1
      (w.step { s with volume := first.2 } first.1).2
    refine ⟨rfl, ?_⟩
    refine chain.cons fun next among => ?_
    obtain rfl : _ = next := Option.some.inj (head.symm.trans among)
    exact w.step_phase _ first.1

/-- A whole life of a writer, on any volumes, with any parameters and compressors, whatever fails.
Every compressor that is handed over, be it taken or refused, is closed exactly once and not called
afterwards. The phases come in order. A close that is not refused reports the first failure of its
steps and gives everything back. What the phase forbids is refused with a failure and changes
neither the writer nor any file. -/
theorem lifetime_releases (logger : Logger) (s : Session) (actions : List (Action × Volume))
    (last : Volume) :
    (∃ told, (lifetime { logger } s actions last).events.toList = s.events.toList ++ told ∧
      ∀ id, s.handed ≤ id → id < (lifetime { logger } s actions last).handed →
        ReleasedOnce id told) ∧
    (∀ w path params c s, TakesOver w c s (w.openWith path params (some c) s)) ∧
    ((phases { logger } s actions).head? = some .unopened ∧
      (phases { logger } s actions).IsChain Phase.Next) ∧
    (∀ w s, w.isOpen → GivesBack w s (w.close s)) ∧
    (∀ w s, w.isOpen = false → Rejected w s (w.flush s) ∧ Rejected w s (w.close s)) ∧
    ∀ w s path params, w.isUnopened = false →
      (∀ compressor, Rejected w s (w.openWith path params compressor s)) ∧
      ∀ z, Rejected w s (w.openBuiltin path params s z) := by
  refine ⟨?_, fun w path params c s => w.openWith_takesOver path params c s,
    phases_chain { logger } s actions, fun w s h => close_givesBack h s,
    fun w s h => ⟨flush_rejected h s, ?_⟩,
    fun w s path params h => ⟨fun compressor => openWith_rejected h path params compressor s,
      openBuiltin_rejected h path params s⟩⟩
  · have start : Custody.Accounted s.handed s.events.toList (custody { logger } s) :=
      .start s.events.toList s.handed
    have lived := start.run (lived_custody { logger } s actions)
    exact (lived.run (drop_custody _ { (ChunkWriter.lived { logger } s actions).2 with
      volume := last })).all_released rfl
  · obtain ⟨e, rejected⟩ := close_rejected h s
    exact ⟨e, s, rejected, rfl⟩

end ChunkWriter
end ForwardIndex
