import ForwardIndex.Proofs.Buffer
import ForwardIndex.Proofs.Encoder
import ForwardIndex.Proofs.VariableWriter

/-!
# Writers in lockstep

Two runs are compared by a relation of their writers that every call keeps. Which relation that is
depends on what is compared; that the calls of an encoder keep it needs no more than that the calls
of the chunk writer in it do. `Lockstep` is what they must do, and `Encoder.Follows` what follows
for the encoders of both kinds.
-/
set_option autoImplicit false
namespace ForwardIndex

/-- Two failures of one call, of which the first counts. -/
def Outcome.andThen (first second : Outcome) : Outcome :=
  match first, second with
  | .ok (), second => second
  | .error e, .ok () => .error e
  | .error e, .error e' => .error (.followedBy e e')

/-- Two calls are answered alike and leave what is related. -/
structure InStep {W : Type} (R : W × Session → W × Session → Prop)
    (Answers : Outcome → Outcome → Prop) (r r' : Outcome × W × Session) : Prop where
  answers : Answers r.1 r'.1
  related : R r.2 r'.2

/-- A relation that chunk writers keep which differ in no answer: `R` while they are used, `Q` when
they were closed. It need hold only as long as all outcomes are `Calm`. -/
structure Lockstep (R Q : ChunkWriter × Session → ChunkWriter × Session → Prop)
    (Calm : Outcome → Prop) (Answers : Outcome → Outcome → Prop) : Prop where
  refl (outcome : Outcome) : Answers outcome outcome
  ok {outcome outcome' : Outcome} : Answers outcome outcome' →
    (outcome = .ok () ↔ outcome' = .ok ())
  andThen {first first' second second' : Outcome} : Answers first first' →
    Answers second second' → Answers (first.andThen second) (first'.andThen second')
  calm_ok : Calm (.ok ())
  calm {first second : Outcome} : Calm (first.andThen second) → Calm first ∧ Calm second
  isOpen {w w' : ChunkWriter} {s s' : Session} : R (w, s) (w', s') → w'.isOpen = w.isOpen
  entrySize {w w' : ChunkWriter} {s s' : Session} : R (w, s) (w', s') →
    w'.header.entrySize = w.header.entrySize
  buffer {w w' : ChunkWriter} {s s' : Session} : R (w, s) (w', s') → w'.buffer = w.buffer
  onBuffer {α : Type} {w w' : ChunkWriter} {s s' : Session} (f : Buffer → α × Buffer) :
    (∀ b, (f b).2.capacity = b.capacity) → R (w, s) (w', s') →
    (w'.onBuffer f).1 = (w.onBuffer f).1 ∧ R ((w.onBuffer f).2, s) ((w'.onBuffer f).2, s')
  flush {w w' : ChunkWriter} {s s' : Session} : R (w, s) (w', s') → Calm (w.flush s).1 →
    Calm (w'.flush s').1 → InStep R Answers (w.flush s) (w'.flush s')
  close {w w' : ChunkWriter} {s s' : Session} : R (w, s) (w', s') → Calm (w.close s).1 →
    Calm (w'.close s').1 → InStep Q Answers (w.close s) (w'.close s')

/-- A relation of chunk writers and one of what else the writers of an encoder know. -/
def Encoder.Both {W V : Type} (E : Encoder W V)
    (R : ChunkWriter × Session → ChunkWriter × Session → Prop) (Like : W → W → Prop)
    (x x' : W × Session) : Prop :=
  R (E.core x.1, x.2) (E.core x'.1, x'.2) ∧ Like x.1 x'.1

/-- An encoder keeps the relation that its chunk writers keep. -/
structure Encoder.Follows {W V : Type} (E : Encoder W V)
    (R Q : ChunkWriter × Session → ChunkWriter × Session → Prop) (Calm : Outcome → Prop)
    (Answers : Outcome → Outcome → Prop) (Like : W → W → Prop) : Prop where
  put {w w' : W} {s s' : Session} (v : V) : E.Both R Like (w, s) (w', s') →
    Calm (E.put w v s).1 → Calm (E.put w' v s').1 →
    InStep (E.Both R Like) Answers (E.put w v s) (E.put w' v s')
  close {w w' : W} {s s' : Session} : E.Both R Like (w, s) (w', s') →
    Calm (E.close w s).1 → Calm (E.close w' s').1 →
    InStep (E.Both Q fun _ _ => True) Answers (E.close w s) (E.close w' s')

section Follows

variable {R Q : ChunkWriter × Session → ChunkWriter × Session → Prop} {Calm : Outcome → Prop}
  {Answers : Outcome → Outcome → Prop}

theorem FixedWriter.follows (l : Lockstep R Q Calm Answers) :
    FixedWriter.encoder.Follows R Q Calm Answers fun _ _ => True where
  put {w w' s s'} v h calm calm' := by
    obtain ⟨core⟩ := w
    obtain ⟨core'⟩ := w'
    have h : R (core, s) (core', s') := h.1
    simp only [encoder, put, l.isOpen h, l.entrySize h] at calm calm' ⊢
    split
    · exact ⟨l.refl _, h, trivial⟩
    next writing =>
    rw [if_neg writing] at calm calm'
    split
    · exact ⟨l.refl _, h, trivial⟩
    next fits =>
    rw [if_neg fits] at calm calm'
    obtain ⟨same, h₁⟩ := l.onBuffer (·.append (Bytes.ofText v.bytes))
      (fun b => b.capacity_append _) h
    rcases stored : core.onBuffer (·.append (Bytes.ofText v.bytes)) with ⟨fitted, core₁⟩
    rcases stored' : core'.onBuffer (·.append (Bytes.ofText v.bytes)) with ⟨fitted', core₁'⟩
    rw [stored, stored'] at same h₁
    obtain rfl : fitted' = fitted := same
    rw [stored] at calm
    rw [stored'] at calm'
    cases fitted' with
    | false => exact ⟨l.refl _, h₁, trivial⟩
    | true =>
      simp only [l.buffer h₁] at calm calm' ⊢
      split
      · next full =>
        rw [if_pos full] at calm calm'
        obtain ⟨answers, flushed⟩ := l.flush h₁ calm calm'
        exact ⟨answers, flushed, trivial⟩
      · exact ⟨l.refl _, h₁, trivial⟩
  close h calm calm' := by
    obtain ⟨answers, closed⟩ := l.close h.1 calm calm'
    exact ⟨answers, closed, trivial⟩

namespace VariableWriter

theorem capacity_clearSlots (b : Buffer) (position count : Nat) :
    (clearSlots b position count).2.capacity = b.capacity := by
  induction count generalizing b position with
  | zero => rfl
  | succ count ih =>
    have kept := b.capacity_putWord32At position 0
    rw [clearSlots]
    rcases h : b.putWord32At position 0 with ⟨stored, b₁⟩
    rw [h] at kept
    cases stored with
    | false => exact kept
    | true => exact (ih b₁ _).trans kept

theorem capacity_completeChunk (slotPosition slotsSize dataPosition : Nat) (b : Buffer) :
    (completeChunk slotPosition slotsSize dataPosition b).2.capacity = b.capacity := by
  have kept := capacity_clearSlots b slotPosition
    ((slotsSize - slotPosition) / Layout.slotWidth)
  rw [completeChunk]
  rcases cleared : clearSlots b slotPosition ((slotsSize - slotPosition) / Layout.slotWidth)
    with ⟨stuck, b₁⟩
  rw [cleared] at kept
  cases stuck with
  | some position => exact kept
  | none =>
    have moved := b₁.capacity_seek dataPosition
    dsimp only
    rcases sought : b₁.seek dataPosition with ⟨within, b₂⟩
    rw [sought] at moved
    cases within with
    | false => exact moved.trans kept
    | true => exact moved.trans kept

theorem capacity_storeValue (slotPosition dataPosition : Nat) (value : Bytes) (b : Buffer) :
    (storeValue slotPosition dataPosition value b).2.capacity = b.capacity := by
  have kept := b.capacity_putWord32At slotPosition (UInt32.ofNat dataPosition)
  rw [storeValue]
  rcases slot : b.putWord32At slotPosition (UInt32.ofNat dataPosition) with ⟨stored, b₁⟩
  rw [slot] at kept
  cases stored with
  | false => exact kept
  | true =>
    have moved := b₁.capacity_seek dataPosition
    dsimp only
    rcases sought : b₁.seek dataPosition with ⟨within, b₂⟩
    rw [sought] at moved
    cases within with
    | false => exact moved.trans kept
    | true => exact (b₂.capacity_append value).trans (moved.trans kept)

/-- Two writers have taken as many slots and as many bytes of values. -/
structure SamePositions (w w' : VariableWriter) : Prop where
  slotsSize : w'.slotsSize = w.slotsSize
  slotPosition : w'.slotPosition = w.slotPosition
  dataPosition : w'.dataPosition = w.dataPosition

/-- A close with a partial chunk comes to its flush and then to the close of the core. -/
theorem close_partly {w : VariableWriter} (partly : w.core.isOpen ∧ 0 < w.slotPosition)
    {s s₁ s₂ : Session} {finished closed : Outcome} {w₁ : VariableWriter} {core₂ : ChunkWriter}
    (finish : w.finishChunk s = (finished, w₁, s₁))
    (closing : w₁.core.close s₁ = (closed, core₂, s₂)) :
    w.close s = (finished.andThen closed, { w₁ with core := core₂ }, s₂) := by
  rw [close, if_pos partly, finish]
  cases finished with
  | ok u => simp only [closing, Outcome.andThen]
  | error e => cases closed <;> simp only [closing, Outcome.andThen]

variable (l : Lockstep R Q Calm Answers) {core core' : ChunkWriter}
  {slotsSize slotPosition dataPosition : Nat} {s s' : Session}
include l

theorem finishChunk_inStep (h : R (core, s) (core', s'))
    (calm : Calm (finishChunk ⟨core, slotsSize, slotPosition, dataPosition⟩ s).1)
    (calm' : Calm (finishChunk ⟨core', slotsSize, slotPosition, dataPosition⟩ s').1) :
    InStep (encoder.Both R SamePositions) Answers
      (finishChunk ⟨core, slotsSize, slotPosition, dataPosition⟩ s)
      (finishChunk ⟨core', slotsSize, slotPosition, dataPosition⟩ s') := by
  obtain ⟨same, h₁⟩ := l.onBuffer (completeChunk slotPosition slotsSize dataPosition)
    (capacity_completeChunk _ _ _) h
  simp only [finishChunk] at calm calm' ⊢
  rcases completed : core.onBuffer (completeChunk slotPosition slotsSize dataPosition)
    with ⟨outcome, core₁⟩
  rcases completed' : core'.onBuffer (completeChunk slotPosition slotsSize dataPosition)
    with ⟨outcome', core₁'⟩
  rw [completed, completed'] at same h₁
  obtain rfl : outcome' = outcome := same
  rw [completed] at calm
  rw [completed'] at calm'
  cases outcome' with
  | error e => exact ⟨l.refl _, h₁, rfl, rfl, rfl⟩
  | ok u =>
    have flushed := l.flush h₁
    dsimp only at calm calm' ⊢
    rcases hf : core₁.flush s with ⟨stored, core₂, s₁⟩
    rcases hf' : core₁'.flush s' with ⟨stored', core₂', s₁'⟩
    rw [hf] at calm
    rw [hf'] at calm'
    rw [hf, hf'] at flushed
    -- Both are stored or both are refused, so both writers start the next chunk or neither does.
    cases stored <;> cases stored'
    case ok.ok =>
      obtain ⟨answers, related⟩ := flushed l.calm_ok l.calm_ok
      exact ⟨answers, related, rfl, rfl, rfl⟩
    case error.error =>
      obtain ⟨answers, related⟩ := flushed calm calm'
      exact ⟨answers, related, rfl, rfl, rfl⟩
    case ok.error => cases (l.ok (flushed l.calm_ok calm').answers).1 rfl
    case error.ok => cases (l.ok (flushed calm l.calm_ok).answers).2 rfl

theorem put_inStep (h : R (core, s) (core', s')) (value : Bytes)
    (calm : Calm (put ⟨core, slotsSize, slotPosition, dataPosition⟩ value s).1)
    (calm' : Calm (put ⟨core', slotsSize, slotPosition, dataPosition⟩ value s').1) :
    InStep (encoder.Both R SamePositions) Answers
      (put ⟨core, slotsSize, slotPosition, dataPosition⟩ value s)
      (put ⟨core', slotsSize, slotPosition, dataPosition⟩ value s') := by
  simp only [put, l.isOpen h, l.entrySize h] at calm calm' ⊢
  split
  · exact ⟨l.refl _, h, rfl, rfl, rfl⟩
  next writing =>
  rw [if_neg writing] at calm calm'
  split
  · exact ⟨l.refl _, h, rfl, rfl, rfl⟩
  next short =>
  rw [if_neg short] at calm calm'
  split
  · exact ⟨l.refl _, h, rfl, rfl, rfl⟩
  next free =>
  rw [if_neg free] at calm calm'
  obtain ⟨same, h₁⟩ := l.onBuffer (storeValue slotPosition dataPosition value)
    (capacity_storeValue _ _ _) h
  rcases stored : core.onBuffer (storeValue slotPosition dataPosition value) with ⟨fitted, core₁⟩
  rcases stored' : core'.onBuffer (storeValue slotPosition dataPosition value)
    with ⟨fitted', core₁'⟩
  rw [stored, stored'] at same h₁
  obtain rfl : fitted' = fitted := same
  rw [stored] at calm
  rw [stored'] at calm'
  cases fitted' with
  | false => exact ⟨l.refl _, h₁, rfl, rfl, rfl⟩
  | true =>
    dsimp only at calm calm' ⊢
    split
    · next complete =>
      rw [if_pos complete] at calm calm'
      exact finishChunk_inStep l h₁ calm calm'
    · exact ⟨l.refl _, h₁, rfl, rfl, rfl⟩

theorem close_inStep (h : R (core, s) (core', s'))
    (calm : Calm (close ⟨core, slotsSize, slotPosition, dataPosition⟩ s).1)
    (calm' : Calm (close ⟨core', slotsSize, slotPosition, dataPosition⟩ s').1) :
    InStep (encoder.Both Q fun _ _ => True) Answers
      (close ⟨core, slotsSize, slotPosition, dataPosition⟩ s)
      (close ⟨core', slotsSize, slotPosition, dataPosition⟩ s') := by
  by_cases partly : core.isOpen ∧ 0 < slotPosition
  · have partly' : core'.isOpen ∧ 0 < slotPosition := ⟨l.isOpen h ▸ partly.1, partly.2⟩
    rcases finish : finishChunk ⟨core, slotsSize, slotPosition, dataPosition⟩ s
      with ⟨finished, w₁, s₁⟩
    rcases finish' : finishChunk ⟨core', slotsSize, slotPosition, dataPosition⟩ s'
      with ⟨finished', w₁', s₁'⟩
    rcases closes : w₁.core.close s₁ with ⟨closed, core₂, s₂⟩
    rcases closes' : w₁'.core.close s₁' with ⟨closed', core₂', s₂'⟩
    rw [close_partly partly finish closes] at calm ⊢
    rw [close_partly partly' finish' closes'] at calm' ⊢
    obtain ⟨calm₁, calm₂⟩ := l.calm calm
    obtain ⟨calm₁', calm₂'⟩ := l.calm calm'
    have inStep : InStep (encoder.Both R SamePositions) Answers (finished, w₁, s₁)
        (finished', w₁', s₁') := by
      rw [← finish, ← finish']
      exact finishChunk_inStep l h (by rwa [finish]) (by rwa [finish'])
    have related : R (w₁.core, s₁) (w₁'.core, s₁') := inStep.related.1
    have closing := l.close related
    rw [closes, closes'] at closing
    obtain ⟨answers, related⟩ := closing calm₂ calm₂'
    exact ⟨l.andThen inStep.answers answers, related, trivial⟩
  · have partly' : ¬ (core'.isOpen ∧ 0 < slotPosition) := l.isOpen h ▸ partly
    simp only [close, if_neg partly, if_neg partly'] at calm calm' ⊢
    obtain ⟨answers, related⟩ := l.close h calm calm'
    exact ⟨answers, related, trivial⟩

end VariableWriter

theorem VariableWriter.follows (l : Lockstep R Q Calm Answers) :
    VariableWriter.encoder.Follows R Q Calm Answers SamePositions where
  put {w w' s s'} v h calm calm' := by
    obtain ⟨core, slotsSize, slotPosition, dataPosition⟩ := w
    obtain ⟨core', _, _, _⟩ := w'
    obtain ⟨related, rfl, rfl, rfl⟩ := h
    exact put_inStep l related v calm calm'
  close {w w' s s'} h calm calm' := by
    obtain ⟨core, slotsSize, slotPosition, dataPosition⟩ := w
    obtain ⟨core', _, _, _⟩ := w'
    obtain ⟨related, rfl, rfl, rfl⟩ := h
    exact close_inStep l related calm calm'

end Follows
end ForwardIndex
