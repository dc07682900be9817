import ForwardIndex.Proofs.ColumnPlan
import ForwardIndex.Proofs.Lockstep
import ForwardIndex.Proofs.OwnPlace

/-!
# A build keeps to its own place

Two builds of one column are compared, on volumes that agree where the path of the index leads. They
answer alike, leave the same at the place of the index, and leave every other place as it is. The
numbers of the compressors that are handed over have no say.
-/
set_option autoImplicit false
namespace ForwardIndex

open Volume (Beside Meets)

/-- Two openings that are both refused for one reason, or both accepted with related writers. -/
inductive Opened {W : Type} (R : W × Session → W × Session → Prop)
    (Volumes : Volume → Volume → Prop) :
    Outcome × W × Session → Outcome × W × Session → Prop
  | refused {e : Failure} {w w' : W} {s s' : Session} (volumes : Volumes s.volume s'.volume) :
    Opened R Volumes (.error e, w, s) (.error e, w', s')
  | accepted {w w' : W} {s s' : Session} (related : R (w, s) (w', s')) :
    Opened R Volumes (.ok (), w, s) (.ok (), w', s')

namespace ChunkWriter

/-- Two writers at work on one place, each in a volume of its own, that have done the same. -/
structure Paired (p : Place) (v₀ v₀' : Volume) (x x' : ChunkWriter × Session) : Prop where
  header : x'.1.header = x.1.header
  cursor : x'.1.cursor = x.1.cursor
  path : x'.1.file.path = x.1.file.path
  isOpen : x.1.file.OpenOn p x.2.volume
  isOpen' : x'.1.file.OpenOn p x'.2.volume
  stage : ∃ codec codec' b staging, x.1.stage = .writing codec b staging ∧
    x'.1.stage = .writing codec' b staging ∧ codec'.compressor = codec.compressor ∧
    codec'.calls = codec.calls
  beside : Beside p v₀ v₀' x.2.volume x'.2.volume

/-- Two writers that were closed having done the same. -/
structure Released (p : Place) (v₀ v₀' : Volume) (x x' : ChunkWriter × Session) : Prop where
  header : x'.1.header = x.1.header
  cursor : x'.1.cursor = x.1.cursor
  beside : Beside p v₀ v₀' x.2.volume x'.2.volume

section Paired

variable {p : Place} {v₀ v₀' : Volume} {w w' : ChunkWriter} {s s' : Session}

theorem Paired.writing (h : Paired p v₀ v₀' (w, s) (w', s')) : w'.isOpen = w.isOpen := by
  obtain ⟨codec, codec', b, staging, left, right, -⟩ := h.stage
  rw [ChunkWriter.isOpen, ChunkWriter.isOpen, show w.stage = _ from left,
    show w'.stage = _ from right]

theorem Paired.buffer (h : Paired p v₀ v₀' (w, s) (w', s')) : w'.buffer = w.buffer := by
  obtain ⟨codec, codec', b, staging, left, right, -⟩ := h.stage
  rw [ChunkWriter.buffer, ChunkWriter.buffer, show w.stage = _ from left,
    show w'.stage = _ from right]

theorem Paired.onBuffer {α : Type} (h : Paired p v₀ v₀' (w, s) (w', s')) (f : Buffer → α × Buffer) :
    (w'.onBuffer f).1 = (w.onBuffer f).1 ∧
      Paired p v₀ v₀' ((w.onBuffer f).2, s) ((w'.onBuffer f).2, s') := by
  obtain ⟨codec, codec', b, staging, left, right, same⟩ := h.stage
  obtain ⟨logger, header, file, cursor, stage⟩ := w
  obtain ⟨logger', header', file', cursor', stage'⟩ := w'
  obtain rfl : stage = .writing codec b staging := left
  obtain rfl : stage' = .writing codec' b staging := right
  exact ⟨rfl, h.header, h.cursor, h.path, h.isOpen, h.isOpen', ⟨_, _, _, _, rfl, rfl, same⟩,
    h.beside⟩

/-- Paired writers flush alike. -/
theorem Paired.flush (h : Paired p v₀ v₀' (w, s) (w', s')) :
    InStep (Paired p v₀ v₀') Eq (w.flush s) (w'.flush s') := by
  obtain ⟨⟨_, id, _⟩, ⟨compressor, id', calls⟩, b, staging, left, right, rfl, rfl⟩ := h.stage
  obtain ⟨logger, _, file, _, stage⟩ := w
  obtain ⟨logger', header, file', cursor, stage'⟩ := w'
  obtain rfl : stage = .writing ⟨compressor, id, calls⟩ b staging := left
  obtain rfl : stage' = .writing ⟨compressor, id', calls⟩ b staging := right
  obtain ⟨rfl, rfl, path, isOpen, isOpen', -, beside⟩ := h
  simp only at path isOpen isOpen' beside
  have paired {header : Header} {cursor calls : Nat} {b : Buffer} {staging : Bytes}
      {t t' : Session} (isOpen : file.OpenOn p t.volume) (isOpen' : file'.OpenOn p t'.volume)
      (beside : Beside p v₀ v₀' t.volume t'.volume) :
      Paired p v₀ v₀'
        (⟨logger, header, file, cursor, .writing ⟨compressor, id, calls⟩ b staging⟩, t)
        (⟨logger', header, file', cursor, .writing ⟨compressor, id', calls⟩ b staging⟩, t') :=
    ⟨rfl, rfl, path, isOpen, isOpen', ⟨_, _, _, _, rfl, rfl, rfl, rfl⟩, beside⟩
  -- The number of a compressor has no part in what it makes of a chunk.
  obtain ⟨result, staged, compressed⟩ : ∃ result staged, ∀ id,
      compressChunk ⟨compressor, id, calls⟩ b staging =
        (result, ⟨compressor, id, calls + 1⟩, staged) :=
    ⟨(compressChunk ⟨compressor, 0, calls⟩ b staging).1,
      (compressChunk ⟨compressor, 0, calls⟩ b staging).2.2, fun _ => rfl⟩
  unfold ChunkWriter.flush
  simp only [path, compressed]
  split
  · exact ⟨rfl, paired isOpen isOpen' beside⟩
  split
  · exact ⟨rfl, paired isOpen isOpen' beside⟩
  split
  · exact ⟨rfl, paired isOpen isOpen' beside⟩
  cases result with
  | error e => exact ⟨rfl, paired isOpen isOpen' beside⟩
  | ok size =>
    obtain ⟨same, beside, isOpen, isOpen'⟩ :=
      FileHandle.writeAll_beside beside isOpen isOpen' path (staged.first size) cursor
    dsimp only
    rcases left : file.writeAll (staged.first size) cursor s.volume with ⟨outcome, v⟩
    rcases right : file'.writeAll (staged.first size) cursor s'.volume with ⟨outcome', v'⟩
    rw [left, right] at same beside
    rw [left] at isOpen
    rw [right] at isOpen'
    obtain rfl : outcome' = outcome := same
    cases outcome' with
    | error e => exact ⟨rfl, paired isOpen isOpen' beside⟩
    | ok u =>
      dsimp only
      rcases header.record cursor with ⟨recorded, header'⟩
      cases recorded with
      | error e => exact ⟨rfl, paired isOpen isOpen' beside⟩
      | ok u => exact ⟨rfl, paired isOpen isOpen' beside⟩

theorem Paired.flushPending (h : Paired p v₀ v₀' (w, s) (w', s')) :
    InStep (Paired p v₀ v₀') Eq (w.flushPending s) (w'.flushPending s') := by
  unfold ChunkWriter.flushPending
  rw [h.buffer]
  split
  · exact ⟨rfl, h⟩
  · exact h.flush

/-- The header is written alike. -/
theorem Paired.writeHeader (h : Paired p v₀ v₀' (w, s) (w', s')) :
    (w.writeHeader s).1 = (w'.writeHeader s').1 ∧
      Paired p v₀ v₀' (w, (w.writeHeader s).2) (w', (w'.writeHeader s').2) := by
  have header : w'.header = w.header := h.header
  obtain ⟨same, beside, isOpen, isOpen'⟩ :=
    FileHandle.writeAll_beside h.beside h.isOpen h.isOpen' h.path w.header.toBytes 0
  unfold ChunkWriter.writeHeader
  rw [header]
  exact ⟨same.symm, h.header, h.cursor, h.path, isOpen, isOpen', h.stage, beside⟩

/-- What has failed so far is reported, or the failure of the close, alike by both. -/
theorem Paired.release (h : Paired p v₀ v₀' (w, s) (w', s')) (outcome : Outcome) :
    InStep (Released p v₀ v₀') Eq (w.release outcome s) (w'.release outcome s') := by
  obtain ⟨closed, beside⟩ := FileHandle.close_beside h.beside h.isOpen h.isOpen' h.path
  obtain ⟨codec, codec', b, staging, left, right, -⟩ := h.stage
  have left : w.stage = .writing codec b staging := left
  have right : w'.stage = .writing codec' b staging := right
  unfold ChunkWriter.release
  rw [left, right]
  refine ⟨?_, h.header, h.cursor, beside⟩
  cases outcome with
  | ok u => exact closed.symm
  | error e => rfl

theorem Released.conclude (h : Released p v₀ v₀' (w, s) (w', s')) :
    InStep (Released p v₀ v₀') Eq (w.conclude s) (w'.conclude s') := by
  have header : w'.header = w.header := h.header
  unfold ChunkWriter.conclude
  rw [header]
  split
  · exact ⟨rfl, h.header, h.cursor, h.beside⟩
  · exact ⟨rfl, h.header, h.cursor, h.beside⟩

/-- Paired writers close alike. -/
theorem Paired.close (h : Paired p v₀ v₀' (w, s) (w', s')) :
    InStep (Released p v₀ v₀') Eq (w.close s) (w'.close s') := by
  obtain ⟨codec, codec', b, staging, left, right, -⟩ := h.stage
  have works : w.isOpen := by rw [ChunkWriter.isOpen, show w.stage = _ from left]
  rw [close_of_isOpen works, close_of_isOpen (h.writing.trans works)]
  obtain ⟨answers, related⟩ := h.flushPending
  rcases flushed : w.flushPending s with ⟨outcome, w₁, s₁⟩
  rcases flushed' : w'.flushPending s' with ⟨outcome', w₁', s₁'⟩
  rw [flushed, flushed'] at answers related
  obtain rfl : outcome = outcome' := answers
  cases outcome with
  | error e => exact ⟨rfl, (related.release (.error e)).2⟩
  | ok u =>
    obtain ⟨same, headed⟩ := related.writeHeader
    obtain ⟨answers, released⟩ := headed.release (w₁.writeHeader s₁).1
    dsimp only
    rw [← same]
    rcases left : w₁.release (w₁.writeHeader s₁).1 (w₁.writeHeader s₁).2 with ⟨closed, w₂, s₂⟩
    rcases right : w₁'.release (w₁.writeHeader s₁).1 (w₁'.writeHeader s₁').2 with ⟨closed', w₂', s₂'⟩
    rw [left, right] at answers released
    obtain rfl : closed = closed' := answers
    cases closed with
    | error e => exact ⟨rfl, released⟩
    | ok u => exact released.conclude

end Paired

/-- Paired writers stay so. -/
theorem paired_lockstep (p : Place) (v₀ v₀' : Volume) :
    Lockstep (Paired p v₀ v₀') (Released p v₀ v₀') (fun _ => True) Eq where
  refl _ := rfl
  ok same := by rw [same]
  andThen same same' := by rw [same, same']
  calm_ok := trivial
  calm _ := ⟨trivial, trivial⟩
  isOpen h := h.writing
  entrySize h := congrArg Header.entrySize h.header
  buffer h := h.buffer
  onBuffer f _ h := h.onBuffer f
  flush h _ _ := h.flush
  close h _ _ := h.close

/-- A new writer is opened on a path in both volumes or in neither. -/
theorem openBuiltin_paired {p : Place} {path : Text} {v₀ v₀' : Volume} {s s' : Session}
    (beside : Beside p v₀ v₀' s.volume s'.volume) (m : Meets path p v₀ v₀') (logger : Logger)
    (params : Parameters) (z : Deflater) :
    Opened (Paired p v₀ v₀') (Beside p v₀ v₀') (openBuiltin { logger } path params s z)
      (openBuiltin { logger } path params s' z) := by
  have new : isUnopened { logger } = true := rfl
  have shut : FileHandle.isOpen {} = false := rfl
  unfold openBuiltin
  rw [new]
  cases check : params.check with
  | error e => exact .refused beside
  | ok u =>
    cases builtin : Compressor.ofType params.compression z with
    | error e => exact .refused beside
    | ok c =>
      simp only [Bool.not_true, Bool.false_eq_true, if_false, openWith, new, check,
        Session.handOver, FileHandle.openAt, shut]
      obtain ⟨e, refused, refused'⟩ | ⟨d, u, d', u', opened, opened', isOpen, isOpen', beside⟩ :=
        beside.openWrite m
      · rw [refused, refused']
        exact .refused beside
      · rw [opened, opened']
        exact .accepted ⟨rfl, rfl, rfl, ⟨d, rfl, isOpen⟩, ⟨d', rfl, isOpen'⟩,
          ⟨_, _, _, _, rfl, rfl, rfl, rfl⟩, beside⟩

end ChunkWriter

namespace Column

/-! ## Builds -/

/-- Two builds report the same, and leave the same at a place. -/
structure Agree (p : Place) (v₀ v₀' : Volume) (r r' : Outcome × Summary × Session) : Prop where
  outcome : r'.1 = r.1
  summary : r'.2.1 = r.2.1
  beside : Beside p v₀ v₀' r.2.2.volume r'.2.2.volume

end Column

section Agree

open Column (Agree)

variable {p : Place} {v₀ v₀' : Volume} {s s' : Session}

/-- An encoder whose writers stay paired. -/
abbrev Encoder.Pairs {W V : Type} (E : Encoder W V) (p : Place) (v₀ v₀' : Volume)
    (Like : W → W → Prop) : Prop :=
  E.Follows (ChunkWriter.Paired p v₀ v₀') (ChunkWriter.Released p v₀ v₀') (fun _ => True) Eq Like

namespace Encoder.Pairs

variable {W V : Type} {E : Encoder W V} {Like : W → W → Prop} {w w' : W}

/-- Paired writers take the same values; by induction on the values. -/
theorem putAll (pairs : E.Pairs p v₀ v₀' Like) (values : List V)
    (h : E.Both (ChunkWriter.Paired p v₀ v₀') Like (w, s) (w', s')) :
    InStep (E.Both (ChunkWriter.Paired p v₀ v₀') Like) Eq (E.putAll w s values)
      (E.putAll w' s' values) := by
  induction values generalizing w w' s s' with
  | nil => exact ⟨rfl, h⟩
  | cons v rest ih =>
    obtain ⟨answers, related⟩ := pairs.put v h trivial trivial
    rw [Encoder.putAll, Encoder.putAll]
    rcases left : E.put w v s with ⟨outcome, w₁, s₁⟩
    rcases right : E.put w' v s' with ⟨outcome', w₁', s₁'⟩
    rw [left, right] at answers related
    obtain rfl : outcome = outcome' := answers
    cases outcome with
    | ok u => exact ih related
    | error e => exact ⟨rfl, related⟩

/-- What is written out with two new writers agrees. -/
theorem writeOut (pairs : E.Pairs p v₀ v₀' Like) (values : List V) (entrySize : Int32)
    (logger : Logger) (summary : Summary) {r r' : Outcome × W × Session}
    (opened : Opened (E.Both (ChunkWriter.Paired p v₀ v₀') Like) (Beside p v₀ v₀') r r') :
    Agree p v₀ v₀' (E.writeOut values entrySize logger summary r)
      (E.writeOut values entrySize logger summary r') := by
  cases opened with
  | refused beside => exact ⟨rfl, rfl, beside⟩
  | @accepted w w' s s' both =>
    obtain ⟨answers, related⟩ := pairs.putAll values both
    simp only [Encoder.writeOut]
    rcases left : E.putAll w s values with ⟨outcome, w₁, s₁⟩
    rcases right : E.putAll w' s' values with ⟨outcome', w₁', s₁'⟩
    rw [left, right] at answers related
    obtain rfl : outcome = outcome' := answers
    obtain ⟨closes, released, -⟩ := pairs.close related trivial trivial
    cases outcome with
    | error e => exact ⟨rfl, rfl, released.beside⟩
    | ok u =>
      dsimp only
      rcases left : E.close w₁ s₁ with ⟨closed, w₂, s₂⟩
      rcases right : E.close w₁' s₁' with ⟨closed', w₂', s₂'⟩
      rw [left, right] at closes released
      obtain rfl : closed = closed' := closes
      cases closed with
      | error e => exact ⟨rfl, rfl, released.beside⟩
      | ok u =>
        refine ⟨rfl, ?_, released.beside⟩
        have header : (E.core w₂').header = (E.core w₂).header := released.header
        have cursor : (E.core w₂').cursor = (E.core w₂).cursor := released.cursor
        simp only [Column.measured, header, cursor]

end Encoder.Pairs

variable {path : Text} (beside : Beside p v₀ v₀' s.volume s'.volume) (m : Meets path p v₀ v₀')
  (logger : Logger) (z : Deflater)
include beside m

theorem FixedWriter.openAt_paired (compression : Compression)
    (totalDocs docsPerChunk entrySize version : Int32) :
    Opened (FixedWriter.encoder.Both (ChunkWriter.Paired p v₀ v₀') fun _ _ => True)
      (Beside p v₀ v₀')
      (openAt { core := { logger } } path compression totalDocs docsPerChunk entrySize version s z)
      (openAt { core := { logger } } path compression totalDocs docsPerChunk entrySize version
        s' z) := by
  unfold openAt
  split
  · exact .refused beside
  · have core := ChunkWriter.openBuiltin_paired beside m logger
      (parameters compression totalDocs docsPerChunk entrySize version) z
    dsimp only
    rcases left : ChunkWriter.openBuiltin { logger } path
      (parameters compression totalDocs docsPerChunk entrySize version) s z with ⟨outcome, w, t⟩
    rcases right : ChunkWriter.openBuiltin { logger } path
      (parameters compression totalDocs docsPerChunk entrySize version) s' z with ⟨outcome', w', t'⟩
    rw [left, right] at core
    cases core with
    | refused volumes => exact .refused volumes
    | accepted related => exact .accepted ⟨related, trivial⟩

theorem VariableWriter.openAt_paired (compression : Compression)
    (totalDocs docsPerChunk longest version : Int32) :
    Opened (VariableWriter.encoder.Both (ChunkWriter.Paired p v₀ v₀') SamePositions)
      (Beside p v₀ v₀')
      (openAt { core := { logger } } path compression totalDocs docsPerChunk longest version s z)
      (openAt { core := { logger } } path compression totalDocs docsPerChunk longest version
        s' z) := by
  unfold openAt
  have core := ChunkWriter.openBuiltin_paired beside m logger
    (parameters compression totalDocs docsPerChunk longest version) z
  dsimp only
  rcases left : ChunkWriter.openBuiltin { logger } path
    (parameters compression totalDocs docsPerChunk longest version) s z with ⟨outcome, w, t⟩
  rcases right : ChunkWriter.openBuiltin { logger } path
    (parameters compression totalDocs docsPerChunk longest version) s' z with ⟨outcome', w', t'⟩
  rw [left, right] at core
  cases core with
  | refused volumes => exact .refused volumes
  | accepted related => exact .accepted ⟨related, rfl, rfl, rfl⟩

namespace Column

theorem writeValues_agree (column : Column) (config : BuildConfig) {summary : Summary}
    (path : summary.path = path) :
    Agree p v₀ v₀' (writeValues column config logger summary s z)
      (writeValues column config logger summary s' z) := by
  subst path
  have lockstep := ChunkWriter.paired_lockstep p v₀ v₀'
  unfold writeValues
  cases column.stored with
  | fixed values =>
    simp only [writeFixed_eq]
    exact Encoder.Pairs.writeOut (FixedWriter.follows lockstep) _ _ _ _
      (FixedWriter.openAt_paired beside m logger z ..)
  | varying values =>
    by_cases long : Layout.maxInt32 < longestLength values
    · simp only [writeVariable, if_pos long]
      exact ⟨rfl, rfl, beside⟩
    · simp only [writeVariable_eq _ _ _ _ _ long]
      exact Encoder.Pairs.writeOut (VariableWriter.follows lockstep) _ _ _ _
        (VariableWriter.openAt_paired beside m logger z ..)

theorem cleanUp_beside :
    Beside p v₀ v₀' (cleanUp logger path s).volume (cleanUp logger path s').volume := by
  unfold cleanUp
  obtain ⟨e, refused, refused'⟩ | ⟨u, u', removed, removed', beside⟩ := beside.remove m
  · rw [refused, refused']
    exact beside
  · rw [removed, removed']
    exact beside

/-- Two builds of one column agree, and change nothing but what stands at the place of the index. -/
theorem build_agree (name : Text) (column : Column) {dir : Text} (config : BuildConfig)
    (before : Summary) (index : indexPath dir name = path) :
    Agree p v₀ v₀' (build name column dir config logger s z before)
      (build name column dir config logger s' z before) := by
  by_cases size : column.size ≤ Layout.maxInt32
  · let plan := planned name dir column
    let line := logger.debug (buildingLine plan config)
    have begins : Beside p v₀ v₀' (s.report line).volume (s'.report line).volume := beside
    have planned : plan.path = path := index
    obtain ⟨outcome, summary, after⟩ := writeValues_agree begins m logger z column config planned
    have place := (path_writeValues column config logger plan (s.report line) z).trans index
    rw [build_eq size, build_eq size]
    dsimp only
    rcases left : writeValues column config logger plan (s.report line) z with ⟨written, sum, t⟩
    rcases right : writeValues column config logger plan (s'.report line) z with ⟨written', sum', t'⟩
    rw [left, right] at outcome summary after
    rw [left] at place
    obtain rfl : written' = written := outcome
    obtain rfl : sum' = sum := summary
    cases written' with
    | ok u => exact ⟨rfl, rfl, after⟩
    | error e =>
      refine ⟨rfl, rfl, ?_⟩
      have place : sum'.path = path := place
      change Beside p v₀ v₀' (cleanUp logger sum'.path t).volume (cleanUp logger sum'.path t').volume
      rw [place]
      exact cleanUp_beside after m logger
  · rw [build, build, if_pos (Nat.not_le.1 size), if_pos (Nat.not_le.1 size)]
    exact ⟨rfl, rfl, beside⟩

end Column
end Agree
end ForwardIndex
