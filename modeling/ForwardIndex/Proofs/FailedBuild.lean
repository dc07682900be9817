import ForwardIndex.Proofs.PairedBuilds
import ForwardIndex.Proofs.Replacing
import ForwardIndex.Proofs.Unheaded

/-!
# Builds that fail

A build that fails reports what failed first: the opening, else the first put that is refused, else
the close. It closes its writer in any case and then removes its file. Until then nothing in the
tree has changed but that file, whatever the system does to the writes, so a path that led to
nothing, or to a file, leads to nothing afterwards, and all else is as it was.
-/
set_option autoImplicit false
namespace ForwardIndex

open Volume (Fills Made Cleared)

/-! ## Writers on their file -/

theorem FileHandle.Holds.fills {f : FileHandle} {p : Place} {v v' : Volume} {content : Bytes}
    (holds : f.Holds v' p content) (others : ∀ q, q ≠ p → v'.node? q = v.node? q) :
    Fills p v v' := by
  obtain ⟨_, _, _, file⟩ := holds
  exact ⟨⟨content, file⟩, others⟩

theorem FileHandle.openAt_made {f f' : FileHandle} {path : Text} {v v' : Volume}
    (h : f.openAt path v = (.ok (), f', v')) :
    ∃ d, v.openWrite path = .ok (d, v') ∧ f' = ⟨path, some d⟩ := by
  unfold openAt at h
  split at h
  · cases h
  · cases system : v.openWrite path with
    | error e => rw [system] at h; cases h
    | ok made =>
      rw [system] at h
      cases h
      exact ⟨_, rfl, rfl⟩

namespace ChunkWriter

variable {p : Place} {v₀ : Volume} {w w' : ChunkWriter} {s s' : Session}

/-- A writer is at work on the file of a place, and every other place is as it was. -/
structure OnFile (p : Place) (v₀ : Volume) (x : ChunkWriter × Session) : Prop where
  isOpen : x.1.isOpen
  holds : ∃ content, x.1.file.Holds x.2.volume p content
  others : ∀ q, q ≠ p → x.2.volume.node? q = v₀.node? q

theorem OnFile.fills (h : OnFile p v₀ (w, s)) : Fills p v₀ s.volume := by
  obtain ⟨content, holds⟩ := h.holds
  exact holds.fills h.others

/-- A write through the file leaves a writer on it, whatever comes of the write. -/
theorem OnFile.write (h : OnFile p v₀ (w, s)) {bytes : Bytes} {offset : Nat} {outcome : Outcome}
    (written : w.file.writeAll bytes offset s.volume = (outcome, s'.volume)) (isOpen : w'.isOpen)
    (file : w'.file = w.file) : OnFile p v₀ (w', s') := by
  obtain ⟨content, holds⟩ := h.holds
  obtain ⟨n, -, holds', follows, -⟩ := holds.writeAll bytes offset
  rw [written] at holds' follows
  exact ⟨isOpen, ⟨_, file ▸ holds'⟩, fun q hq => (follows.others q hq).trans (h.others q hq)⟩

theorem OnFile.onBuffer {α : Type} (h : OnFile p v₀ (w, s)) (f : Buffer → α × Buffer) :
    OnFile p v₀ ((w.onBuffer f).2, s) := by
  obtain ⟨_, _, _, works⟩ := works_of_isOpen h.isOpen
  obtain ⟨works', alike⟩ := works.onBuffer f
  exact ⟨works'.isOpen, alike.file.symm ▸ h.holds, h.others⟩

theorem OnFile.flush (h : OnFile p v₀ (w, s)) : OnFile p v₀ (w.flush s).2 := by
  rcases flush : w.flush s with ⟨outcome, w', s'⟩
  cases flush ▸ w.flushed s with
  | forbidden log => exact ⟨h.isOpen, h.holds, h.others⟩
  | uncompressed _ _ _ works alike volume =>
    refine ⟨works.isOpen, ?_, ?_⟩
    · simp only [volume, alike.file]
      exact h.holds
    · simp only [volume]
      exact h.others
  | unwritten _ _ write works alike => exact h.write write works.isOpen alike.file
  | stored _ _ write works _ file => exact h.write write works.isOpen file

theorem OnFile.flushPending (h : OnFile p v₀ (w, s)) : OnFile p v₀ (w.flushPending s).2 := by
  unfold ChunkWriter.flushPending
  split
  · exact h
  · exact h.flush

theorem volume_release (w : ChunkWriter) (outcome : Outcome) (s : Session) :
    (w.release outcome s).2.2.volume = (w.file.close s.volume).2.2 := by
  unfold release
  cases w.stage <;> rfl

/-- A close leaves the file, whatever fails in it. -/
theorem OnFile.close (h : OnFile p v₀ (w, s)) : Fills p v₀ (w.close s).2.2.volume := by
  have released (outcome : Outcome) {w : ChunkWriter} {s : Session} (h : OnFile p v₀ (w, s)) :
      Fills p v₀ (w.release outcome s).2.2.volume := by
    obtain ⟨⟨content, file⟩, others⟩ := h.fills
    rw [volume_release]
    refine ⟨⟨content, ?_⟩, fun q hq => ?_⟩
    · rw [FileHandle.close_node?, file]
    · rw [FileHandle.close_node?, others q hq]
  have flushed := h.flushPending
  rw [close_of_isOpen h.isOpen]
  rcases flush : w.flushPending s with ⟨outcome, w₁, s₁⟩
  rw [flush] at flushed
  cases outcome with
  | error e => exact released (.error e) flushed
  | ok u =>
    have headed : OnFile p v₀ (w₁, (w₁.writeHeader s₁).2) := flushed.write rfl flushed.isOpen rfl
    have left := released (w₁.writeHeader s₁).1 headed
    dsimp only
    rcases release : w₁.release (w₁.writeHeader s₁).1 (w₁.writeHeader s₁).2 with ⟨outcome, w₂, s₂⟩
    rw [release] at left
    cases outcome with
    | error e => exact left
    | ok u =>
      obtain ⟨log, concluded⟩ := conclude_spec w₂ s₂
      simp only [concluded]
      exact left

/-- A writer on its file, in step with itself. -/
theorem onFile_lockstep (p : Place) (v₀ : Volume) :
    Lockstep (fun x x' => x' = x ∧ OnFile p v₀ x) (fun x x' => x' = x ∧ Fills p v₀ x.2.volume)
      (fun _ => True) Eq where
  refl _ := rfl
  ok same := by rw [same]
  andThen same same' := by rw [same, same']
  calm_ok := trivial
  calm _ := ⟨trivial, trivial⟩
  isOpen h := by cases h.1; rfl
  entrySize h := by cases h.1; rfl
  buffer h := by cases h.1; rfl
  onBuffer f _ h := by
    obtain ⟨same, h⟩ := h
    cases same
    exact ⟨rfl, rfl, h.onBuffer f⟩
  flush h _ _ := by
    obtain ⟨same, h⟩ := h
    cases same
    exact ⟨rfl, rfl, h.flush⟩
  close h _ _ := by
    obtain ⟨same, h⟩ := h
    cases same
    exact ⟨rfl, rfl, h.close⟩

/-- A writer that a replaceable path was opened with is on a file that the path owns. -/
theorem openBuiltin_onFile {path : Text} {params : Parameters} {z : Deflater}
    (r : s.volume.Replaceable path) (opened : w.openBuiltin path params s z = (.ok (), w', s')) :
    ∃ p, OnFile p s.volume (w', s') ∧ Made path p s.volume s'.volume := by
  obtain ⟨e, refused⟩ | ⟨c, -, -, same⟩ := w.openBuiltin_cases path params s z
  · cases opened.symm.trans refused
  have opened := same.symm.trans opened
  unfold openWith at opened
  dsimp only [Session.handOver] at opened
  split at opened
  · cases opened
  split at opened
  · cases opened
  cases handle : w.file.openAt path s.volume with
  | mk outcome rest =>
    obtain ⟨f, v⟩ := rest
    rw [handle] at opened
    cases outcome with
    | error e => cases opened
    | ok u =>
      obtain ⟨d, system, rfl⟩ := FileHandle.openAt_made handle
      obtain ⟨p, made, isOpen⟩ := r.openWrite system
      obtain ⟨content, file⟩ := made.fills.file
      cases opened
      exact ⟨p, ⟨rfl, ⟨content, d, rfl, isOpen, file⟩, made.fills.others⟩, made⟩

end ChunkWriter

/-! ## First failures -/

/-- What closing comes to: its first failure. -/
def FixedWriter.closing (w : FixedWriter) (s : Session) : Outcome :=
  ChunkWriter.firstFailure (w.core.closingSteps s)

/-- What closing comes to. A partial chunk is finished first; where that fails, the core is closed
all the same, and its first failure comes behind. -/
def VariableWriter.closing (w : VariableWriter) (s : Session) : Outcome :=
  if 0 < w.slotPosition then
    let (finished, w, s) := w.finishChunk s
    finished.andThen (ChunkWriter.firstFailure (w.core.closingSteps s))
  else ChunkWriter.firstFailure (w.core.closingSteps s)

namespace Encoder

variable {W V : Type} {E : Encoder W V}

/-- What fails first in writing values out, after an opening: the opening itself, else the first put
that is refused, else the close. -/
inductive FailsWith (E : Encoder W V) (closing : W → Session → Outcome) (values : List V) :
    Outcome × W × Session → Failure → Prop
  | opening {e : Failure} {w : W} {s : Session} : FailsWith E closing values (.error e, w, s) e
  | put {e : Failure} {w w₁ : W} {s s₁ : Session} {before after : List V} {v : V}
      (split : values = before ++ v :: after) (taken : E.putAll w s before = (.ok (), w₁, s₁))
      (refused : (E.put w₁ v s₁).1 = .error e) : FailsWith E closing values (.ok (), w, s) e
  | close {e : Failure} {w w₁ : W} {s s₁ : Session}
      (taken : E.putAll w s values = (.ok (), w₁, s₁)) (failed : closing w₁ s₁ = .error e) :
    FailsWith E closing values (.ok (), w, s) e

/-- Puts stop at the first that is refused; by induction on the values. -/
theorem putAll_error {w w' : W} {s s' : Session} {values : List V} {e : Failure}
    (h : E.putAll w s values = (.error e, w', s')) :
    ∃ before v after w₁ s₁, values = before ++ v :: after ∧
      E.putAll w s before = (.ok (), w₁, s₁) ∧ E.put w₁ v s₁ = (.error e, w', s') := by
  induction values generalizing w s with
  | nil => cases h
  | cons v rest ih =>
    rw [putAll] at h
    rcases put : E.put w v s with ⟨outcome, w₁, s₁⟩
    rw [put] at h
    cases outcome with
    | error e =>
      cases h
      exact ⟨[], v, rest, w, s, rfl, rfl, put⟩
    | ok u =>
      obtain ⟨before, u, after, w₂, s₂, rfl, taken, refused⟩ := ih h
      refine ⟨v :: before, u, after, w₂, s₂, rfl, ?_, refused⟩
      rw [putAll, put]
      exact taken

/-- What holds of the writers of an encoder on their file: a put leaves them on it, a close leaves
the file and reports what closing comes to. -/
structure StaysOn (E : Encoder W V) (closing : W → Session → Outcome) (p : Place) (v₀ : Volume) :
    Prop where
  put {w : W} {s : Session} (v : V) : ChunkWriter.OnFile p v₀ (E.core w, s) →
    ChunkWriter.OnFile p v₀ (E.core (E.put w v s).2.1, (E.put w v s).2.2)
  close {w : W} {s : Session} : ChunkWriter.OnFile p v₀ (E.core w, s) →
    Volume.Fills p v₀ (E.close w s).2.2.volume
  reports {w : W} {s : Session} : ChunkWriter.OnFile p v₀ (E.core w, s) →
    (E.close w s).1 = closing w s

section StaysOn

variable {closing : W → Session → Outcome} {p : Place} {v₀ : Volume} {w : W} {s : Session}

/-- Encoders that keep step with themselves on a file stay on it. -/
theorem StaysOn.of_follows {Like : W → W → Prop}
    (follows : E.Follows (fun x x' => x' = x ∧ ChunkWriter.OnFile p v₀ x)
      (fun x x' => x' = x ∧ Volume.Fills p v₀ x.2.volume) (fun _ => True) Eq Like)
    (like : ∀ w, Like w w)
    (reports : ∀ {w s}, ChunkWriter.OnFile p v₀ (E.core w, s) → (E.close w s).1 = closing w s) :
    E.StaysOn closing p v₀ where
  put {w _} v h := (follows.put v ⟨⟨rfl, h⟩, like w⟩ trivial trivial).related.1.2
  close {w _} h := (follows.close ⟨⟨rfl, h⟩, like w⟩ trivial trivial).related.1.2
  reports := reports

theorem StaysOn.putAll (stays : E.StaysOn closing p v₀) (values : List V)
    (h : ChunkWriter.OnFile p v₀ (E.core w, s)) :
    ChunkWriter.OnFile p v₀ (E.core (E.putAll w s values).2.1, (E.putAll w s values).2.2) := by
  induction values generalizing w s with
  | nil => exact h
  | cons v rest ih =>
    have put := stays.put v h
    rw [Encoder.putAll]
    rcases taken : E.put w v s with ⟨outcome, w₁, s₁⟩
    rw [taken] at put
    cases outcome with
    | error e => exact put
    | ok u => exact ih put

/-- Writing out that fails reports what failed first and leaves the summary; a writer that was
opened has left its file. -/
theorem StaysOn.writeOut_error (stays : E.StaysOn closing p v₀) {values : List V}
    {entrySize : Int32} {logger : Logger} {summary sum : Summary} {s' : Session} {e : Failure}
    (h : ChunkWriter.OnFile p v₀ (E.core w, s))
    (failed : E.writeOut values entrySize logger summary (.ok (), w, s) = (.error e, sum, s')) :
    sum = summary ∧ E.FailsWith closing values (.ok (), w, s) e ∧
      Volume.Fills p v₀ s'.volume := by
  have after := stays.putAll values h
  unfold writeOut at failed
  dsimp only at failed
  rcases taken : E.putAll w s values with ⟨outcome, w₁, s₁⟩
  rw [taken] at failed after
  have closed := stays.close after
  cases outcome with
  | error e =>
    cases failed
    obtain ⟨before, v, rest, w₂, s₂, split, taken, refused⟩ := putAll_error taken
    exact ⟨rfl, .put split taken (by rw [refused]), closed⟩
  | ok u =>
    have reports := stays.reports after
    dsimp only at failed
    rcases close : E.close w₁ s₁ with ⟨outcome, w₂, s₂⟩
    rw [close] at failed closed reports
    cases outcome with
    | ok u => cases failed
    | error e =>
      cases failed
      exact ⟨rfl, .close taken reports.symm, closed⟩

/-- So does writing out behind any opening; one that is refused has left the volume. -/
theorem writeOut_failed {path : Text} (stays : ∀ p, E.StaysOn closing p v₀)
    {r : Outcome × W × Session}
    (refused : ∀ {e w s}, r = (.error e, w, s) → s.volume = v₀)
    (opened : ∀ {w s}, r = (.ok (), w, s) →
      ∃ p, ChunkWriter.OnFile p v₀ (E.core w, s) ∧ Made path p v₀ s.volume)
    {values : List V} {entrySize : Int32} {logger : Logger} {summary sum : Summary} {s' : Session}
    {e : Failure} (failed : E.writeOut values entrySize logger summary r = (.error e, sum, s')) :
    sum = summary ∧ E.FailsWith closing values r e ∧
      (s'.volume = v₀ ∨ ∃ p, Made path p v₀ s'.volume) := by
  obtain ⟨outcome, w, s⟩ := r
  cases outcome with
  | error e =>
    cases failed
    exact ⟨rfl, .opening, .inl (refused rfl)⟩
  | ok u =>
    obtain ⟨p, on, made⟩ := opened rfl
    obtain ⟨same, fails, left⟩ := (stays p).writeOut_error on failed
    exact ⟨same, fails, .inr ⟨p, made.fill left⟩⟩

end StaysOn

end Encoder

section Encoders

variable {p : Place} {v₀ : Volume}

theorem FixedWriter.staysOn (p : Place) (v₀ : Volume) :
    FixedWriter.encoder.StaysOn FixedWriter.closing p v₀ :=
  .of_follows (FixedWriter.follows (ChunkWriter.onFile_lockstep p v₀)) (fun _ => trivial)
    fun h => (ChunkWriter.close_givesBack h.isOpen _).outcome

theorem VariableWriter.finishChunk_onFile {w : VariableWriter} {s : Session}
    (h : ChunkWriter.OnFile p v₀ (w.core, s)) :
    ChunkWriter.OnFile p v₀ ((w.finishChunk s).2.1.core, (w.finishChunk s).2.2) := by
  obtain ⟨core, slotsSize, slotPosition, dataPosition⟩ := w
  exact (finishChunk_inStep (ChunkWriter.onFile_lockstep p v₀) ⟨rfl, h⟩ trivial
    trivial).related.1.2

/-- A close reports the failure of a partial chunk, followed by that of the core if there is one. -/
theorem VariableWriter.close_closing {w : VariableWriter} {s : Session}
    (h : ChunkWriter.OnFile p v₀ (w.core, s)) : (w.close s).1 = w.closing s := by
  unfold closing
  by_cases partly : 0 < w.slotPosition
  · rw [if_pos partly]
    rcases finish : w.finishChunk s with ⟨finished, w₁, s₁⟩
    rcases closed : w₁.core.close s₁ with ⟨outcome, core₂, s₂⟩
    have on := finishChunk_onFile h
    rw [finish] at on
    have reported := (ChunkWriter.close_givesBack on.isOpen s₁).outcome
    rw [closed] at reported
    rw [close_partly ⟨h.isOpen, partly⟩ finish closed]
    exact congrArg finished.andThen reported
  · rw [if_neg partly, close, if_neg fun h => partly h.2]
    exact (ChunkWriter.close_givesBack h.isOpen s).outcome

theorem VariableWriter.staysOn (p : Place) (v₀ : Volume) :
    VariableWriter.encoder.StaysOn VariableWriter.closing p v₀ :=
  .of_follows (VariableWriter.follows (ChunkWriter.onFile_lockstep p v₀))
    (fun _ => ⟨rfl, rfl, rfl⟩) VariableWriter.close_closing

end Encoders

namespace Column

/-! ## Failing builds -/

/-- What fails first in writing the values of a column to a path. -/
def FailsWith (column : Column) (config : BuildConfig) (logger : Logger) (path : Text)
    (s : Session) (z : Deflater) (e : Failure) : Prop :=
  let docs := Int32.ofNat column.size
  match column.stored with
  | .fixed values =>
    FixedWriter.encoder.FailsWith FixedWriter.closing values
      (FixedWriter.openAt { core := { logger } } path config.compression docs
        (column.chunkDocs config) column.entrySize config.version s z) e
  | .varying values =>
    if Layout.maxInt32 < longestLength values then e = .entryTooLong (longestLength values)
    else
      VariableWriter.encoder.FailsWith VariableWriter.closing (values.map Bytes.ofText)
        (VariableWriter.openAt { core := { logger } } path config.compression docs
          (column.chunkDocs config) column.entrySize config.version s z) e

section Failing

variable {column : Column} {config : BuildConfig} {logger : Logger} {summary sum : Summary}
  {s s' : Session} {z : Deflater} {e : Failure}

/-- Writing values that fails leaves the summary, and the tree but for the file of the path. -/
theorem writeValues_failed (r : s.volume.Replaceable summary.path)
    (docs : summary.docs = Int32.ofNat column.size)
    (failed : writeValues column config logger summary s z = (.error e, sum, s')) :
    sum = summary ∧ column.FailsWith config logger summary.path s z e ∧
      (s'.volume = s.volume ∨ ∃ p, Made summary.path p s.volume s'.volume) := by
  unfold writeValues at failed
  unfold FailsWith
  cases stored : column.stored with
  | fixed values =>
    simp only [stored, writeFixed_eq, docs, ← entrySize_fixed stored,
      ← chunkDocs_fixed stored] at failed ⊢
    exact Encoder.writeOut_failed (FixedWriter.staysOn · s.volume) FixedWriter.openAt_refused
      (fun opened => ChunkWriter.openBuiltin_onFile r (FixedWriter.openAt_core opened)) failed
  | varying values =>
    simp only [stored] at failed ⊢
    by_cases long : Layout.maxInt32 < longestLength values
    · simp only [writeVariable, if_pos long] at failed ⊢
      cases failed
      exact ⟨rfl, rfl, .inl rfl⟩
    simp only [writeVariable_eq _ _ _ _ _ long, if_neg long, docs, ← entrySize_varying stored,
      ← chunkDocs_varying stored] at failed ⊢
    exact Encoder.writeOut_failed (VariableWriter.staysOn · s.volume) VariableWriter.openAt_refused
      (fun opened => ChunkWriter.openBuiltin_onFile r (VariableWriter.openAt_core opened)) failed

theorem cleanUp_made {path : Text} {p : Place} {v : Volume} (made : Made path p v s.volume) :
    Cleared path v (cleanUp logger path s).volume := by
  unfold cleanUp
  rw [Volume.remove_removable made.owned.toRemovable]
  exact made.cleared

/-- A cleanup clears the path of what was left there. -/
theorem cleanUp_cleared {path : Text} {v : Volume} (r : v.Replaceable path)
    (left : s.volume = v ∨ ∃ p, Made path p v s.volume) :
    Cleared path v (cleanUp logger path s).volume := by
  obtain rfl | ⟨p, made⟩ := left
  · by_cases there : ∃ p, s.volume.locate .keep path = .ok (.entry p)
    · obtain ⟨p, located⟩ := there
      exact cleanUp_made (.refl r located)
    · have none := not_exists.1 there
      exact .of_absent none (cleanUp_none fun p removable => none p removable.entry)
  · exact cleanUp_made made

end Failing

/-- A build of a column that is not too large, where nothing stands at the path of the index or a
file that can be removed: when it fails it leaves nothing there and all else as it was, whatever
fails in it and whatever the system refuses. It reports what failed first, the opening or a put as
it is, whatever the close behind it comes to, and it sums up no more than what was asked for. A
column that is too large is turned away before anything is done, with the summary from before. -/
theorem build_failed {name dir : Text} {column : Column} {config : BuildConfig} {logger : Logger}
    {s s' : Session} {z : Deflater} {before summary : Summary} {e : Failure}
    (replaceable : s.volume.Replaceable (indexPath dir name))
    (failed : build name column dir config logger s z before = (.error e, summary, s')) :
    (column.size ≤ Layout.maxInt32 →
      Cleared (indexPath dir name) s.volume s'.volume ∧
      column.FailsWith config logger (indexPath dir name)
        (s.report (logger.debug (buildingLine (planned name dir column) config))) z e ∧
      summary = { column := name, path := indexPath dir name, type := column.type,
                  docs := Int32.ofNat column.size, docsPerChunk := 0, chunks := 0, entrySize := 0,
                  fileSize := 0 }) ∧
    (Layout.maxInt32 < column.size →
      e = .tooManyDocs name column.size ∧ summary = before ∧ s' = s) := by
  constructor
  · intro size
    rw [build_eq size] at failed
    dsimp only at failed
    rcases written : writeValues column config logger (planned name dir column)
      (s.report (logger.debug (buildingLine (planned name dir column) config))) z
      with ⟨outcome, sum, s₁⟩
    rw [written] at failed
    cases outcome with
    | ok u => cases failed
    | error e =>
      obtain ⟨rfl, fails, left⟩ := writeValues_failed replaceable rfl written
      cases failed
      exact ⟨cleanUp_cleared replaceable left, fails, rfl⟩
  · intro large
    rw [build, if_pos large] at failed
    cases failed
    exact ⟨rfl, rfl, rfl⟩

/-- A volume with the index of an earlier build that takes no second write: not the header. -/
def oneWrite : Session where
  volume := { earlier.volume with writeFaults := fun _ => [.short 8, .refused .noSpace] }

theorem build_failed_oneWrite : ∃ p content summary s',
    oneWrite.volume.node? p = some (.file content) ∧
    build [99] (.int [1, 2]) [] { targetDocs := 2 } { level := 1 } oneWrite .builtin {} =
      (.error (.writeFailed 32 0 (indexPath [] [99]) .noSpace), summary, s') ∧
    s'.volume.node? p = none ∧ (∀ q, q ≠ p → s'.volume.node? q = oneWrite.volume.node? q) ∧
    summary.docs = 2 ∧ summary.docsPerChunk = 0 := by
  have located : oneWrite.volume.locate .keep (indexPath [] [99]) =
      .ok (.entry (indexPath [] [99] :: Place.working)) := rfl
  have stands : oneWrite.volume.node? (indexPath [] [99] :: Place.working) =
      some (.file (Bytes.ofText [111, 108, 100])) := rfl
  have replaceable : oneWrite.volume.Replaceable (indexPath [] [99]) :=
    Volume.replaceable_of_file located stands rfl rfl
  have fails : (build [99] (.int [1, 2]) [] { targetDocs := 2 } { level := 1 } oneWrite .builtin
      {}).1 = .error (.writeFailed 32 0 (indexPath [] [99]) .noSpace) := rfl
  rcases built : build [99] (.int [1, 2]) [] { targetDocs := 2 } { level := 1 } oneWrite .builtin {}
    with ⟨outcome, summary, s'⟩
  rw [built] at fails
  obtain rfl : outcome = .error (.writeFailed 32 0 (indexPath [] [99]) .noSpace) := fails
  obtain ⟨cleared, -, rfl⟩ := (build_failed replaceable built).1 (by decide)
  refine ⟨_, _, _, s', stands, rfl, cleared.gone _ located, fun q other => ?_, rfl, rfl⟩
  exact cleared.others q fun entry => other (by cases located.symm.trans entry; rfl)

/-! ### Where more fails than can be cleaned up -/

/-- One value more than an index can have. -/
def tooMany : Column := .int (List.replicate (2 ^ 31) 0)

theorem size_tooMany : tooMany.size = 2 ^ 31 := List.length_replicate

/-- A volume that takes no write of an index. -/
def noWrite : Session where
  volume := { Volume.initial with
    writeFaults := fun _ => [.refused .noSpace, .refused .noSpace] }

/-- A writer with one short text in a chunk of two, on that volume. -/
def pendingText : Outcome × VariableWriter × Session :=
  let opened := VariableWriter.openAt {} (indexPath [] [99]) .passThrough 1 2 1 2 noWrite .builtin
  opened.2.1.put (Bytes.ofText [97]) opened.2.2

/-- A volume with a file that has not the name of an index. -/
def bystander : Session :=
  { volume := (FileHandle.create "out/a" (Bytes.ofText [111, 108, 100])
      (Volume.initial.createDirectories "out").2).2 }

/-- Not every build that fails cleans up its own path alone and reports one failure. A column that is
too large leaves an earlier index where it stands and a summary as it was; a last flush that fails
is reported with the failure of the close behind it; and a column with NUL in its name takes away
the file that its path is cut short to. -/
theorem build_failed_otherwise :
    (earlier.volume.Replaceable (indexPath [] [99]) ∧
      build [99] tooMany [] {} { level := 1 } earlier .builtin { docsPerChunk := 7 } =
        (.error (.tooManyDocs [99] (2 ^ 31)), { docsPerChunk := 7 }, earlier) ∧
      earlier.volume.read (indexPath [] [99]) = .bytes (Bytes.ofText [111, 108, 100])) ∧
    (∃ first second summary s', noWrite.volume.Replaceable (indexPath [] [99]) ∧
      pendingText.1 = .ok () ∧ (pendingText.2.1.finishChunk pendingText.2.2).1 = .error first ∧
      build [99] (.string [[97]]) [] { targetDocs := 2 } { level := 1 } noWrite .builtin {} =
        (.error (.followedBy first second), summary, s') ∧
      Failure.followedBy first second ≠ first) ∧
    ∃ e summary s', indexPath "out" [97, 0, 98] ≠ "out/a" ∧
      bystander.volume.Replaceable (indexPath "out" [97, 0, 98]) ∧
      bystander.volume.read "out/a" = .bytes (Bytes.ofText [111, 108, 100]) ∧
      build [97, 0, 98] (.int [1, 2]) "out" notBuiltin { level := 1 } bystander .builtin {} =
        (.error e, summary, s') ∧
      s'.volume.read "out/a" = .refused .notFound := by
  have owned : earlier.volume.Replaceable (indexPath [] [99]) :=
    Volume.replaceable_of_file (p := indexPath [] [99] :: Place.working) rfl rfl rfl rfl
  have vacant : noWrite.volume.Replaceable (indexPath [] [99]) := by
    intro p entry
    cases entry
  have cut : bystander.volume.Replaceable (indexPath "out" [97, 0, 98]) :=
    Volume.replaceable_of_file (p := [97] :: Text.lit "out" :: Place.working) rfl rfl rfl rfl
  refine ⟨⟨owned, ?_, rfl⟩, ⟨.writeFailed 9 32 (indexPath [] [99]) .noSpace,
    .writeFailed 9 32 (indexPath [] [99]) .noSpace, _, _, vacant, rfl, rfl, rfl, nofun⟩,
    _, _, _, by decide, cut, rfl, rfl, rfl⟩
  rw [build, size_tooMany, if_pos (by decide)]

end Column
end ForwardIndex
