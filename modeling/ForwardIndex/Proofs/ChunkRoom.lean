import ForwardIndex.Proofs.Acceptance
import ForwardIndex.Proofs.Lockstep
import ForwardIndex.Proofs.Unheaded
import ForwardIndex.Proofs.VariableRoundTrip

/-!
# Room in a chunk

A chunk of variable-width values has room for a slot and a longest value of every document, so a put
that the writer takes never comes to the end of the buffer. `Waiting` is the invariant: where the
next slot and the next value go, and what the buffer holds, are told by the values that wait in the
chunk. It lasts through every life of a writer, with refused puts and failed flushes in it.
-/
set_option autoImplicit false
namespace ForwardIndex

/-! ## Calls that come to the end of the buffer -/

/-- The end of the chunk buffer is reported. -/
def Failure.Overruns : Failure → Prop
  | .valueDoesNotFit _ | .slotPastBuffer _ | .dataPastBuffer _ => True
  | .followedBy first second => first.Overruns ∨ second.Overruns
  | _ => False

/-- The end of the chunk buffer is not reported. -/
def Outcome.InRoom (outcome : Outcome) : Prop := ∀ e, outcome = .error e → ¬ e.Overruns

namespace Outcome.InRoom

theorem ok (u : Unit) : InRoom (.ok u) := nofun

theorem error {e : Failure} (h : ¬ e.Overruns) : InRoom (.error e) := by
  rintro _ ⟨⟩
  exact h

theorem andThen {first second : Outcome} (h : first.InRoom) (h' : second.InRoom) :
    (first.andThen second).InRoom := by
  cases first with
  | ok u => exact h'
  | error e =>
    cases second with
    | ok u => exact h
    | error e' => exact error (not_or.2 ⟨h e rfl, h' e' rfl⟩)

end Outcome.InRoom

theorem FileHandle.writeRest_inRoom (path : Text) (d : Nat) (bytes : Bytes) (offset : Nat)
    (faults : List WriteFault) (done : Nat) (v : Volume) :
    (writeRest path d bytes offset faults done v).1.InRoom := by
  induction faults generalizing done v with
  | nil =>
    rw [writeRest]
    split
    · exact .ok _
    · split
      · exact .error id
      · exact .ok _
  | cons fault faults ih =>
    rw [writeRest]
    split
    · exact .ok _
    · split
      · exact ih _ _
      · exact .error id
      · exact .error id
      · exact ih _ _

theorem FileHandle.writeAll_inRoom (f : FileHandle) (bytes : Bytes) (offset : Nat) (v : Volume) :
    (f.writeAll bytes offset v).1.InRoom := by
  unfold writeAll
  split
  · exact .error id
  · exact writeRest_inRoom _ _ _ _ _ _ _

theorem FileHandle.close_inRoom (f : FileHandle) (v : Volume) : (f.close v).1.InRoom := by
  unfold close
  split
  · exact .ok _
  · split
    · exact .ok _
    · exact .error id

/-- A built-in compressor that fails tells of its own buffers. -/
theorem Compressor.ofType_inRoom {t : Compression} {z : Deflater} {c : Compressor}
    (h : ofType t z = .ok c) {call : Nat} {chunk staging : Bytes} {e : Failure}
    (failed : (c.compress call chunk staging).2 = .error e) : ¬ e.Overruns := by
  obtain ⟨rfl, rfl⟩ | ⟨rfl, -, rfl⟩ := ofType_cases h
  · simp only [passThrough, ofEncoder, ofFunction, storeChunk] at failed
    grind [Failure.Overruns]
  · simp only [gzip, ofFunction, Gzip.deflate] at failed
    grind [Failure.Overruns]

namespace ChunkWriter

/-- A writer at work with a built-in compressor. -/
def Builtin (w : ChunkWriter) (b : Buffer) : Prop :=
  ∃ t z c room, Compressor.ofType t z = .ok c ∧ w.Works c b room

theorem flush_inRoom {w : ChunkWriter} {b : Buffer} (h : w.Builtin b) (s : Session) :
    (w.flush s).1.InRoom := by
  obtain ⟨t, z, c, room, builtin, codec, staging, hs, rfl, -⟩ := h
  intro e failed
  obtain rfl | rfl | far | uncompressed | ⟨out, unwritten⟩ := flush_error hs failed
  · exact id
  · exact id
  · unfold Header.checkOffset at far
    split at far <;> cases far
    exact id
  · dsimp only [compressChunk] at uncompressed
    split at uncompressed
    · next own =>
      cases uncompressed
      exact Compressor.ofType_inRoom builtin own
    · split at uncompressed <;> cases uncompressed
      exact id
  · exact w.file.writeAll_inRoom out w.cursor s.volume e unwritten

theorem Builtin.isOpen {w : ChunkWriter} {b : Buffer} (h : w.Builtin b) : w.isOpen := by
  obtain ⟨t, z, c, room, -, works⟩ := h
  exact works.isOpen

theorem Builtin.onBuffer {α : Type} {w : ChunkWriter} {b : Buffer} (h : w.Builtin b)
    (f : Buffer → α × Buffer) :
    ∃ w', w.onBuffer f = ((f b).1, w') ∧ w'.Builtin (f b).2 ∧ Alike w w' := by
  obtain ⟨t, z, c, room, builtin, works⟩ := h
  obtain ⟨works', alike⟩ := works.onBuffer f
  refine ⟨(w.onBuffer f).2, Prod.ext ?_ rfl, ⟨t, z, c, room, builtin, works'⟩, alike⟩
  obtain ⟨codec, staging, hs, -⟩ := works
  obtain ⟨logger, header, file, cursor, stage⟩ := w
  obtain rfl : stage = .writing codec b staging := hs
  rfl

/-- A flush records a chunk and clears the buffer, or it leaves both. -/
theorem Builtin.flush {w : ChunkWriter} {b : Buffer} (h : w.Builtin b) (s : Session) :
    (w.flush s).1.InRoom ∧
      ((∃ e w' s', w.flush s = (.error e, w', s') ∧ w'.Builtin b ∧ w'.header = w.header) ∨
        ∃ w' s', w.flush s = (.ok (), w', s') ∧ w'.Builtin b.clear ∧
          w'.header = { w.header with offsets := w.header.offsets.push w.cursor }) := by
  refine ⟨flush_inRoom h s, ?_⟩
  obtain ⟨t, z, c, room, builtin, works⟩ := id h
  rcases hf : w.flush s with ⟨outcome, w', s'⟩
  have unique {c' : Compressor} {b' : Buffer} {room' : Nat} (works₁ : w.Works c' b' room') :
      c' = c ∧ b' = b := by
    obtain ⟨rfl, rfl, -⟩ := works₁.unique works
    exact ⟨rfl, rfl⟩
  cases hf ▸ w.flushed s with
  | forbidden log none rule => exact .inl ⟨_, _, _, rfl, h, rfl⟩
  | uncompressed works₁ none fails works' alike =>
    obtain ⟨rfl, rfl⟩ := unique works₁
    exact .inl ⟨_, _, _, rfl, ⟨t, z, _, _, builtin, works'⟩, alike.header⟩
  | unwritten works₁ some write works' alike =>
    obtain ⟨rfl, rfl⟩ := unique works₁
    exact .inl ⟨_, _, _, rfl, ⟨t, z, _, _, builtin, works'⟩, alike.header⟩
  | stored works₁ some write works' header =>
    obtain ⟨rfl, rfl⟩ := unique works₁
    exact .inr ⟨_, _, rfl, ⟨t, z, _, _, builtin, works'⟩, header⟩

/-- A close reports the failure of one of its steps, or a count of chunks. -/
theorem close_inRoom {w : ChunkWriter} {b : Buffer} (h : w.Builtin b) (s : Session) :
    (w.close s).1.InRoom := by
  obtain ⟨t, z, c, room, builtin, works⟩ := id h
  have first {outcomes : List Outcome} (all : ∀ outcome ∈ outcomes, outcome.InRoom) :
      (firstFailure outcomes).InRoom := by
    induction outcomes with
    | nil => exact .ok _
    | cons outcome rest ih =>
      cases outcome with
      | ok u => exact ih fun later known => all later (List.mem_cons_of_mem _ known)
      | error e => exact all _ List.mem_cons_self
  have flushed : (w.flushPending s).1.InRoom := by
    unfold flushPending
    split
    · exact .ok _
    · exact flush_inRoom h s
  have counted (w : ChunkWriter) : (w.closingOutcome (.ok ())).InRoom := by
    unfold closingOutcome
    dsimp only
    split
    · exact .error id
    · exact .ok _
  rw [(close_givesBack works.isOpen s).outcome]
  refine first ?_
  unfold closingSteps
  split
  · next pending =>
    rw [pending] at flushed
    simp only [List.forall_mem_cons, List.not_mem_nil, false_imp_iff, implies_true, and_true]
    exact ⟨flushed, FileHandle.close_inRoom _ _⟩
  · simp only [List.forall_mem_cons, List.not_mem_nil, false_imp_iff, implies_true, and_true]
    exact ⟨FileHandle.writeAll_inRoom _ _ _ _, FileHandle.close_inRoom _ _, counted _⟩

/-- An opening is refused for its parameters or by the file system. -/
theorem openBuiltin_inRoom (w : ChunkWriter) (path : Text) (params : Parameters) (s : Session)
    (z : Deflater) : (w.openBuiltin path params s z).1.InRoom := by
  have checked (e : Failure) (check : params.check = .error e) : ¬ e.Overruns := by
    simp only [Parameters.check, Layout.checkVersion] at check
    grind [Failure.Overruns]
  have unavailable (e : Failure) (none : Compressor.ofType params.compression z = .error e) :
      ¬ e.Overruns := by
    unfold Compressor.ofType at none
    grind [Failure.Overruns, Gzip.init]
  have unopened (e : Failure) (h : (w.file.openAt path s.volume).1 = .error e) : ¬ e.Overruns := by
    unfold FileHandle.openAt at h
    split at h
    · cases h
      exact id
    · split at h
      · cases h
        exact id
      · cases h
  unfold openBuiltin
  split
  · exact .error id
  split
  · exact .error (checked _ ‹_›)
  split
  · exact .error (unavailable _ ‹_›)
  unfold openWith
  dsimp only [Session.handOver]
  split
  · exact .error id
  split
  · exact .error (checked _ ‹_›)
  split
  · next failed => exact .error (unopened _ (congrArg Prod.fst failed))
  · exact .ok _

end ChunkWriter

namespace VariableWriter

open Layout (slotWidth)

/-! ## What waits in a chunk -/

/-- The numbers of a chunk are those of the header, and they fit an `int`. -/
structure Sized (docs longest : Nat) (w : VariableWriter) : Prop where
  docsPerChunk : w.core.header.docsPerChunk.toInt = docs
  entrySize : w.core.header.entrySize.toInt = longest
  docs_pos : 0 < docs
  most : docs * (slotWidth + longest) ≤ Layout.maxInt32
  slotsSize : w.slotsSize = docs * slotWidth

/-- Where everything is while values wait in the chunk of a writer that is open. The slots behind
those of the values hold what the chunks before left there. -/
structure Waiting (docs longest : Nat) (waiting : List Bytes) (w : VariableWriter) : Prop
    extends Sized docs longest w where
  small : ∀ v ∈ waiting, v.size ≤ longest
  slotPosition : w.slotPosition = waiting.length * slotWidth
  dataPosition : w.dataPosition = docs * slotWidth + (Bytes.joined waiting).length
  buffer : ∃ b others, w.core.Builtin b ∧ Holding docs waiting others b ∧
    waiting.length + others.length = docs ∧ b.capacity = docs * (slotWidth + longest) ∧
    b.position = if waiting = [] then 0 else w.dataPosition

section Waiting

variable {docs longest : Nat} {waiting : List Bytes} {w : VariableWriter}

theorem Sized.of_header (h : Sized docs longest w) {w' : VariableWriter}
    (docsPerChunk : w'.core.header.docsPerChunk = w.core.header.docsPerChunk)
    (entrySize : w'.core.header.entrySize = w.core.header.entrySize)
    (slotsSize : w'.slotsSize = w.slotsSize) : Sized docs longest w' where
  docsPerChunk := docsPerChunk ▸ h.docsPerChunk
  entrySize := entrySize ▸ h.entrySize
  docs_pos := h.docs_pos
  most := h.most
  slotsSize := slotsSize.trans h.slotsSize

theorem Waiting.few (h : Waiting docs longest waiting w) : waiting.length ≤ docs := by
  obtain ⟨b, others, -, -, length, -⟩ := h.buffer
  omega

theorem Waiting.isOpen (h : Waiting docs longest waiting w) : w.core.isOpen := by
  obtain ⟨b, others, builtin, -⟩ := h.buffer
  exact builtin.isOpen

/-- The values of a chunk take no more than their share of it. -/
theorem Waiting.dataPosition_le (h : Waiting docs longest waiting w) :
    w.dataPosition ≤ docs * slotWidth + waiting.length * longest := by
  rw [h.dataPosition]
  exact Nat.add_le_add_left (Bytes.length_joined_le h.small) _

theorem Waiting.share_le (h : Waiting docs longest waiting w) :
    docs * slotWidth + waiting.length * longest ≤ docs * (slotWidth + longest) := by
  rw [Nat.mul_add]
  exact Nat.add_le_add_left (Nat.mul_le_mul_right _ h.few) _

/-! ### Flushes -/

/-- A flush that fails leaves the values waiting. One that succeeds leaves their slots behind, for
the next chunk to overwrite. -/
theorem Waiting.finish (h : Waiting docs longest waiting w) (some : waiting ≠ []) (s : Session) :
    (w.finishChunk s).1.InRoom ∧
      ((∃ e, (w.finishChunk s).1 = .error e ∧
          (w.finishChunk s).2.1.core.header = w.core.header ∧
          Waiting docs longest waiting (w.finishChunk s).2.1) ∨
        (w.finishChunk s).1 = .ok () ∧
          (w.finishChunk s).2.1.core.header.recorded = w.core.header.recorded + 1 ∧
          Waiting docs longest [] (w.finishChunk s).2.1) := by
  obtain ⟨b, others, builtin, holding, length, capacity, -⟩ := h.buffer
  obtain ⟨b₁, complete, holding₁, filled, capacity₁⟩ := holding.completeChunk length
  have position : b₁.position = w.dataPosition := by
    rw [← b₁.size_filled, filled, size_rawChunk h.few, h.dataPosition]
  rw [← h.dataPosition, ← h.slotPosition, ← h.slotsSize] at complete
  obtain ⟨core₁, completed, builtin₁, alike⟩ :=
    builtin.onBuffer (completeChunk w.slotPosition w.slotsSize w.dataPosition)
  rw [complete] at completed builtin₁
  obtain ⟨inRoom, flushed⟩ := builtin₁.flush s
  obtain ⟨core, slotsSize, slotPosition, dataPosition⟩ := w
  obtain rfl : slotsSize = docs * slotWidth := h.slotsSize
  simp only [finishChunk, completed]
  obtain ⟨e, core₂, s', flush, builtin₂, header⟩ | ⟨core₂, s', flush, builtin₂, header⟩ := flushed
  · rw [flush] at inRoom ⊢
    have same : core₂.header = core.header := header.trans alike.header
    refine ⟨inRoom, .inl ⟨e, rfl, same, ?_⟩⟩
    exact {
      toSized := h.toSized.of_header (congrArg (·.docsPerChunk) same)
        (congrArg (·.entrySize) same) rfl
      small := h.small
      slotPosition := h.slotPosition
      dataPosition := h.dataPosition
      buffer := ⟨b₁, _, builtin₂, holding₁, by rw [List.length_replicate, length],
        capacity₁.trans capacity, by rw [if_neg some, position]⟩ }
  · rw [flush] at inRoom ⊢
    rw [alike.header] at header
    refine ⟨inRoom, .inr ⟨rfl, by simp [header, Header.recorded], ?_⟩⟩
    obtain ⟨rest, view⟩ := holding₁
    refine {
      toSized := h.toSized.of_header (by simp [header]) (by simp [header]) rfl
      small := by simp
      slotPosition := (Nat.zero_mul _).symm
      dataPosition := rfl
      buffer := ⟨b₁.clear, slots docs waiting ++ List.replicate others.length 0, builtin₂,
        ⟨Bytes.joined waiting ++ rest, ?_⟩, by simpa using length, capacity₁.trans capacity, rfl⟩ }
    change b₁.data.toText = _
    rw [view, toText_chunkWith, toText_chunkWith, slotBytes_append]
    simp [slots, Layout.starts]

/-! ### Puts -/

/-- A value that is too long is refused and changes nothing. -/
theorem Waiting.put_long (h : Waiting docs longest waiting w) {v : Bytes} (long : longest < v.size)
    (s : Session) :
    w.put v s = (.error (.valueTooLong v.size w.core.header.entrySize), w, s) := by
  have entry := h.entrySize
  exact VariableWriter.put_long h.isOpen (by omega) s

/-- So is one that there is no slot for: the chunk is full, and its flush has failed. -/
theorem Waiting.put_full (h : Waiting docs longest waiting w) {v : Bytes} (short : v.size ≤ longest)
    (full : waiting.length = docs) (s : Session) : w.put v s = (.error .chunkFull, w, s) := by
  have entry := h.entrySize
  have taken : w.slotsSize = w.slotPosition := by rw [h.slotPosition, full, h.slotsSize]
  exact VariableWriter.put_full h.isOpen (by omega) (Nat.le_of_eq taken) s

/-- Any other is stored, and the value that completes the chunk is followed by its flush. -/
theorem Waiting.put_taken (h : Waiting docs longest waiting w) {v : Bytes}
    (short : v.size ≤ longest) (free : waiting.length < docs) (s : Session) :
    ∃ w', Waiting docs longest (waiting ++ [v]) w' ∧ w'.core.header = w.core.header ∧
      w.put v s = if waiting.length + 1 = docs then w'.finishChunk s else (.ok (), w', s) := by
  obtain ⟨b, others, builtin, holding, length, capacity, -⟩ := h.buffer
  obtain ⟨other, others, rfl⟩ := List.exists_cons_of_length_pos (l := others) (by omega)
  rw [List.length_cons] at length
  have fits : docs * slotWidth + (Bytes.joined waiting).length + v.size ≤ b.capacity := by
    rw [capacity]
    exact fits_of_small h.small short free
  obtain ⟨b₁, store, holding₁, position, capacity₁⟩ := holding.storeValue length fits
  rw [← h.slotPosition, ← h.dataPosition] at store
  obtain ⟨core₁, stored, builtin₁, alike⟩ :=
    builtin.onBuffer (storeValue w.slotPosition w.dataPosition v)
  rw [store] at stored builtin₁
  have entry := h.entrySize
  have joined : w.dataPosition + v.size =
      docs * slotWidth + (Bytes.joined (waiting ++ [v])).length := by
    rw [h.dataPosition, Bytes.joined_concat, List.length_append, Bytes.length_toText, Nat.add_assoc]
  refine ⟨⟨core₁, w.slotsSize, w.slotPosition + slotWidth, w.dataPosition + v.size⟩, ?_,
    alike.header, put_stored h.isOpen (by omega) h.slotsSize h.slotPosition free stored s⟩
  refine {
    toSized := h.toSized.of_header (congrArg (·.docsPerChunk) alike.header)
      (congrArg (·.entrySize) alike.header) rfl
    small := List.forall_mem_append.2 ⟨h.small, by simpa using short⟩
    slotPosition := by simp [h.slotPosition, Nat.succ_mul]
    dataPosition := joined
    buffer := ⟨b₁, others, builtin₁, holding₁, ?_, capacity₁.trans capacity, ?_⟩ }
  · rw [List.length_append, List.length_singleton]
    omega
  · rw [if_neg (by simp), position, joined]

end Waiting

/-! ## A whole life -/

/-- The values that wait in the chunk behind an action: an open writer takes a value in the limit
while the chunk has a slot for it, and values wait until their chunk is recorded or the writer is
closed. -/
def waitingAfter (w w' : VariableWriter) (waiting : List Bytes) :
    Encoder.Action Bytes → List Bytes
  | .openAt .. => waiting
  | .put v =>
    let taken :=
      if w.core.isOpen ∧ v.size ≤ w.core.header.entrySize.toInt ∧
        waiting.length < w.core.header.docsPerChunk.toInt then waiting ++ [v]
      else waiting
    if w'.core.header.recorded = w.core.header.recorded then taken else []
  | .close => []

/-- A writer and the values that wait in its chunk after some actions. Every action meets a session
of its own: between two actions the volume may change in any way. -/
def live (w : VariableWriter) (waiting : List Bytes) :
    List (Encoder.Action Bytes × Session) → VariableWriter × List Bytes
  | [] => (w, waiting)
  | (action, s) :: rest =>
    live (w.act s action).2.1 (w.waitingAfter (w.act s action).2.1 waiting action) rest

/-- Nothing waits in a writer that is not open. -/
def Upholds (w : VariableWriter) (waiting : List Bytes) : Prop :=
  (w.core.isOpen = false ∧ waiting = []) ∨ ∃ docs longest, Waiting docs longest waiting w

section Life

variable {docs longest : Nat} {waiting : List Bytes} {w : VariableWriter}

/-- A writer that is opened has room for a chunk, and nothing waits in it. -/
theorem waiting_openAt {w' : VariableWriter} {path : Text} {compression : Compression}
    {totalDocs docsPerChunk longest version : Int32} {s s' : Session} {z : Deflater}
    (opened : w.openAt path compression totalDocs docsPerChunk longest version s z =
      (.ok (), w', s')) :
    Waiting docsPerChunk.toNatClampNeg longest.toNatClampNeg [] w' := by
  unfold openAt at opened
  rcases core : w.core.openBuiltin path
    (parameters compression totalDocs docsPerChunk longest version) s z with ⟨_ | u, core', s₁⟩
  · simp [core] at opened
  simp only [core] at opened
  cases opened
  obtain ⟨e, refused⟩ | ⟨c, check, builtin, same⟩ := w.core.openBuiltin_cases path
    (parameters compression totalDocs docsPerChunk longest version) s z
  · cases refused.symm.trans core
  rw [same] at core
  have works := ChunkWriter.openWith_works core
  have header : core'.header =
      (parameters compression totalDocs docsPerChunk longest version).header c.type := by
    cases core ▸ w.core.openWith_opening path _ c s with
    | accepted fresh check header => exact header
  have admitted := Parameters.check_ok check
  obtain ⟨docs, length, positive⟩ := toInt_of_admitted admitted
  have size := chunkSize_of_admitted admitted
  have most := admitted.chunkSize_le
  rw [size] at works most
  exact {
    docsPerChunk := by rw [header]; exact docs
    entrySize := by rw [header]; exact length
    docs_pos := positive
    most := Int.ofNat_le.1 most
    slotsSize := rfl
    small := by simp
    slotPosition := (Nat.zero_mul _).symm
    dataPosition := rfl
    buffer := ⟨_, _, ⟨_, _, _, _, builtin, works⟩,
      holding_new (Nat.mul_le_mul_left _ (Nat.le_add_right _ _)), by simp, Bytes.size_zeros _, rfl⟩ }

/-- An opening that is refused leaves a writer that is not open so. -/
theorem openAt_inRoom (idle : w.core.isOpen = false) (path : Text) (compression : Compression)
    (totalDocs docsPerChunk longest version : Int32) (s : Session) (z : Deflater) :
    let r := w.openAt path compression totalDocs docsPerChunk longest version s z
    r.1.InRoom ∧ Upholds r.2.1 [] := by
  intro r
  rcases h : r with ⟨e | u, w', s'⟩
  · have inRoom := w.core.openBuiltin_inRoom path
      (parameters compression totalDocs docsPerChunk longest version) s z
    simp only [r, openAt] at h
    split at h
    · next refused =>
      cases h
      have same := ChunkWriter.isOpen_openBuiltin (congrArg Prod.fst refused)
      rw [refused] at inRoom same
      exact ⟨inRoom, .inl ⟨same.trans idle, rfl⟩⟩
    · cases h
  · exact ⟨.ok u, .inr ⟨_, _, waiting_openAt h⟩⟩

/-- Nothing comes to the end of a buffer in a writer that is not open. -/
theorem Upholds.idle (idle : w.core.isOpen = false) (s : Session) (action : Encoder.Action Bytes) :
    (w.act s action).1.InRoom ∧ Upholds (w.act s action).2.1 [] := by
  have same : Upholds w [] := .inl ⟨idle, rfl⟩
  cases action with
  | openAt path compression totalDocs docsPerChunk longest version z =>
    exact openAt_inRoom idle _ _ _ _ _ _ s z
  | put v =>
    have refused : w.put v s = (.error (.putNotOpen false), w, s) := by
      simp only [put, idle, Bool.not_false, if_true]
    rw [act, refused]
    exact ⟨.error id, same⟩
  | close =>
    have core : w.close s = ((w.core.close s).1, { w with core := (w.core.close s).2.1 },
        (w.core.close s).2.2) := by
      rw [close, if_neg (by simp [idle])]
    rw [act, core, (ChunkWriter.close_idle idle s).1]
    refine ⟨?_, same⟩
    unfold ChunkWriter.close
    split
    · exact .error id
    · exact .error id
    · next stage =>
      simp only [ChunkWriter.isOpen, stage] at idle
      cases idle

/-- A close with values in the chunk flushes them before the file is closed. -/
theorem Waiting.close (h : Waiting docs longest waiting w) (s : Session) :
    (w.close s).1.InRoom ∧ (w.close s).2.1.core.isOpen = false := by
  have closes {waiting : List Bytes} {w : VariableWriter} (h : Waiting docs longest waiting w)
      (s : Session) : (w.core.close s).1.InRoom := by
    obtain ⟨b, others, builtin, -⟩ := h.buffer
    exact ChunkWriter.close_inRoom builtin s
  by_cases partly : w.core.isOpen ∧ 0 < w.slotPosition
  · have some : waiting ≠ [] := by
      rintro rfl
      have := h.slotPosition
      simp only [List.length_nil, Nat.zero_mul] at this
      omega
    obtain ⟨inRoom, flushed⟩ := h.finish some s
    obtain ⟨waiting', h'⟩ : ∃ waiting', Waiting docs longest waiting' (w.finishChunk s).2.1 := by
      obtain ⟨e, -, -, h'⟩ | ⟨-, -, h'⟩ := flushed
      · exact ⟨_, h'⟩
      · exact ⟨_, h'⟩
    have finish : w.finishChunk s =
      ((w.finishChunk s).1, (w.finishChunk s).2.1, (w.finishChunk s).2.2) := rfl
    rw [close_partly partly finish rfl]
    exact ⟨inRoom.andThen (closes h' _), ChunkWriter.isOpen_close _ _⟩
  · rw [VariableWriter.close, if_neg partly]
    exact ⟨closes h s, w.core.isOpen_close s⟩

/-- A put that is refused leaves what waits. One that is taken waits too, unless its flush records
the chunk. -/
theorem Waiting.put (h : Waiting docs longest waiting w) (v : Bytes) (s : Session) :
    (w.put v s).1.InRoom ∧
      Waiting docs longest (w.waitingAfter (w.put v s).2.1 waiting (.put v)) (w.put v s).2.1 := by
  have entry := h.entrySize
  have docsPerChunk := h.docsPerChunk
  have isOpen := h.isOpen
  have few := h.few
  have taken : v.size ≤ w.core.header.entrySize.toInt ∧
      waiting.length < w.core.header.docsPerChunk.toInt ↔
        v.size ≤ longest ∧ waiting.length < docs := by
    rw [entry, docsPerChunk]
    omega
  simp only [waitingAfter, isOpen, true_and, taken]
  by_cases long : longest < v.size
  · rw [h.put_long long s]
    simp only [Nat.not_le.2 long, false_and, if_false, if_true]
    exact ⟨.error id, h⟩
  by_cases full : waiting.length = docs
  · rw [h.put_full (Nat.not_lt.1 long) full s]
    simp only [full, Nat.lt_irrefl, and_false, if_false, if_true]
    exact ⟨.error id, h⟩
  have free : waiting.length < docs := by omega
  obtain ⟨w₁, h₁, header, put⟩ := h.put_taken (Nat.not_lt.1 long) free s
  simp only [Nat.not_lt.1 long, free, and_self, if_true, put]
  split
  · obtain ⟨inRoom, ⟨e, -, same, h₂⟩ | ⟨-, more, h₂⟩⟩ := h₁.finish (by simp) s
    · rw [if_pos (by rw [same, header])]
      exact ⟨inRoom, h₂⟩
    · rw [if_neg (by rw [more, header]; omega)]
      exact ⟨inRoom, h₂⟩
  · rw [if_pos (by rw [header])]
    exact ⟨.ok _, h₁⟩

/-- A writer that is open is not opened again. -/
theorem Waiting.openAt (h : Waiting docs longest waiting w) (path : Text)
    (compression : Compression) (totalDocs docsPerChunk longest' version : Int32) (s : Session)
    (z : Deflater) :
    ∃ path', w.openAt path compression totalDocs docsPerChunk longest' version s z =
      (.error (.reopened path'), w, s) := by
  obtain ⟨b, others, ⟨t, z, c, room, -, works⟩, -⟩ := h.buffer
  refine ⟨w.core.file.path, ?_⟩
  simp [VariableWriter.openAt, ChunkWriter.openBuiltin, works.isUnopened]

/-- Every action keeps what the waiting values tell, and none comes to the end of the buffer. -/
theorem Upholds.step (h : Upholds w waiting) (s : Session) (action : Encoder.Action Bytes) :
    (w.act s action).1.InRoom ∧
      Upholds (w.act s action).2.1 (w.waitingAfter (w.act s action).2.1 waiting action) := by
  obtain ⟨idle, rfl⟩ | ⟨docs, longest, h⟩ := h
  · obtain ⟨inRoom, kept⟩ := Upholds.idle idle s action
    have nothing : w.waitingAfter (w.act s action).2.1 [] action = [] := by
      cases action <;> simp [waitingAfter, idle]
    rw [nothing]
    exact ⟨inRoom, kept⟩
  cases action with
  | openAt path compression totalDocs docsPerChunk longest' version z =>
    obtain ⟨path', refused⟩ :=
      h.openAt path compression totalDocs docsPerChunk longest' version s z
    rw [act, refused]
    exact ⟨.error id, .inr ⟨_, _, h⟩⟩
  | put v =>
    obtain ⟨inRoom, kept⟩ := h.put v s
    exact ⟨inRoom, .inr ⟨_, _, kept⟩⟩
  | close =>
    obtain ⟨inRoom, closed⟩ := h.close s
    exact ⟨inRoom, .inl ⟨closed, rfl⟩⟩

/-- So does a whole life, by induction on its actions. -/
theorem Upholds.live (h : Upholds w waiting) (life : List (Encoder.Action Bytes × Session)) :
    Upholds (live w waiting life).1 (live w waiting life).2 := by
  induction life generalizing w waiting with
  | nil => exact h
  | cons event rest ih => exact ih (h.step event.2 event.1).2

end Life

/-- The room of a writer that is open: where its next slot and its next value go, and how far those
are from the end of the chunk. Slots are read back from the buffer as they were stored. -/
structure HasRoom (docs longest : Nat) (waiting : List Bytes) (w : VariableWriter) : Prop where
  few : waiting.length ≤ docs
  slotPosition : w.slotPosition = 4 * waiting.length
  slotPosition_le : w.slotPosition ≤ 4 * docs
  dataPosition : w.dataPosition = 4 * docs + (Bytes.joined waiting).length
  dataPosition_le : w.dataPosition ≤ 4 * docs + waiting.length * longest
  share_le : 4 * docs + waiting.length * longest ≤ w.core.buffer.capacity
  capacity_le : w.core.buffer.capacity ≤ Layout.maxInt32
  position : w.core.buffer.position = if waiting.length = 0 then 0 else w.dataPosition
  slots : IndexFile.numbersAt w.core.buffer.data 4 0 waiting.length =
    Layout.starts (4 * docs) waiting
  values : Bytes.joined waiting <+: w.core.buffer.data.toText.drop (4 * docs)

/-- How a writer that is open answers puts: a refused one changes nothing, and when the flush of a
full chunk has failed every put is refused. -/
structure Answers (docs longest : Nat) (waiting : List Bytes) (w : VariableWriter) : Prop where
  long (v : Bytes) (s : Session) : longest < v.size →
    w.put v s = (.error (.valueTooLong v.size w.core.header.entrySize), w, s)
  full (v : Bytes) (s : Session) : v.size ≤ longest → waiting.length = docs →
    w.put v s = (.error .chunkFull, w, s)
  free (v : Bytes) (s : Session) : v.size ≤ longest → waiting.length + 1 < docs →
    (w.put v s).1 = .ok ()
  stuck (v : Bytes) (s : Session) (e : Failure) : v.size ≤ longest → waiting.length < docs →
    (w.put v s).1 = .error e → ∀ v' s', ∃ e',
      (w.put v s).2.1.put v' s' = (.error e', (w.put v s).2.1, s')

section Waiting

variable {docs longest : Nat} {waiting : List Bytes} {w : VariableWriter}

theorem Waiting.hasRoom (h : Waiting docs longest waiting w) : HasRoom docs longest waiting w := by
  obtain ⟨b, others, ⟨t, z, c, room, -, works⟩, ⟨rest, view⟩, length, capacity, position⟩ := h.buffer
  have share := h.share_le
  have most := h.most
  have few := h.few
  have data := h.dataPosition
  have data_le := h.dataPosition_le
  have slots : docs * slotWidth = 4 * docs := Nat.mul_comm _ _
  rw [toText_chunkWith] at view
  simp only [List.append_assoc] at view
  have front : (slotBytes (VariableWriter.slots docs waiting) ++ slotBytes others).length =
      docs * slotWidth := by
    simp only [List.length_append, length_slotBytes, length_slots, ← Nat.add_mul, length]
  rw [← works.buffer] at view capacity position
  rw [← capacity] at share most
  have fits : docs * slotWidth + (Bytes.joined waiting).length < 2 ^ 32 := by
    unfold Layout.maxInt32 at most
    omega
  have read := numbersAt_slots view fits
  rw [slots] at data data_le share read
  exact {
    few
    slotPosition := h.slotPosition.trans (Nat.mul_comm _ _)
    slotPosition_le := by rw [h.slotPosition, ← slots]; exact Nat.mul_le_mul_right _ few
    dataPosition := data
    dataPosition_le := data_le
    share_le := share
    capacity_le := most
    position := by simpa only [List.length_eq_zero_iff] using position
    slots := read
    values := by
      rw [view, ← List.append_assoc, ← slots, List.drop_left' front]
      exact List.prefix_append _ _ }

theorem Waiting.answers (h : Waiting docs longest waiting w) : Answers docs longest waiting w where
  long v s long := h.put_long long s
  full v s short full := h.put_full short full s
  free v s short free := by
    obtain ⟨w₁, -, -, put⟩ := h.put_taken short (by omega) s
    rw [put, if_neg (by omega)]
  stuck v s e short free failed v' s' := by
    obtain ⟨w₁, h₁, -, put⟩ := h.put_taken short free s
    rw [put] at failed ⊢
    split at failed
    · next complete =>
      obtain ⟨-, ⟨e, -, -, h₂⟩ | ⟨ok, -⟩⟩ := h₁.finish (by simp) s
      · rw [if_pos complete]
        by_cases long : longest < v'.size
        · exact ⟨_, h₂.put_long long s'⟩
        · exact ⟨_, h₂.put_full (Nat.not_lt.1 long) (by simpa using complete) s'⟩
      · cases ok.symm.trans failed
    · cases failed

end Waiting

/-- A put never comes to the end of the chunk buffer. Whatever actions a new writer has met, on
whatever volumes, if it is open its chunk has room for all slots and for a longest value of each
document that is still to come; the slots of the values that wait are stored untruncated; and no
action reports the end of the buffer. -/
theorem live_hasRoom (logger : Logger) (life : List (Encoder.Action Bytes × Session)) :
    let w := (live { core := { logger } } [] life).1
    let waiting := (live { core := { logger } } [] life).2
    let docs := w.core.header.docsPerChunk.toNatClampNeg
    let longest := w.core.header.entrySize.toNatClampNeg
    (w.core.isOpen → HasRoom docs longest waiting w ∧ Answers docs longest waiting w) ∧
      (w.core.isOpen = false → waiting = []) ∧
      ∀ action s, (w.act s action).1.InRoom := by
  intro w waiting docs longest
  have kept : Upholds w waiting := Upholds.live (.inl ⟨rfl, rfl⟩) life
  refine ⟨fun isOpen => ?_, fun idle => ?_, fun action s => (kept.step s action).1⟩
  · obtain ⟨idle, -⟩ | ⟨docs', longest', h⟩ := kept
    · cases isOpen.symm.trans idle
    · have same : docs = docs' ∧ longest = longest' := by
        rw [← Int.toNat_natCast docs', ← Int.toNat_natCast longest', ← h.docsPerChunk, ← h.entrySize,
          Int32.toNat_toInt, Int32.toNat_toInt]
        exact ⟨rfl, rfl⟩
      rw [same.1, same.2]
      exact ⟨h.hasRoom, h.answers⟩
  · obtain ⟨-, none⟩ | ⟨docs', longest', h⟩ := kept
    · exact none
    · cases h.isOpen.symm.trans idle

def openedForTwo : Outcome × VariableWriter × Session :=
  openAt {} [102] .passThrough 4 2 3 2 {} .builtin

/-- Two values that fill a chunk, with one between them that is too long, on a volume that has no
space left for the chunk. -/
def fullChunk : List (Encoder.Action Bytes × Session) :=
  [(.openAt [102] .passThrough 4 2 3 2 .builtin, {}),
    (.put (Bytes.ofText [1]), openedForTwo.2.2), (.put (Bytes.ofText [2, 3, 4, 5]), openedForTwo.2.2),
    (.put (Bytes.ofText [2, 3]), { openedForTwo.2.2 with
      volume := { openedForTwo.2.2.volume with writeFaults := fun _ => [.refused .noSpace] } })]

theorem live_hasRoom_fullChunk :
    let w := (live {} [] fullChunk).1
    w.core.isOpen = true ∧ w.slotPosition = 8 ∧ w.dataPosition = 11 ∧
      IndexFile.numbersAt w.core.buffer.data 4 0 2 = [8, 9] ∧
      ∀ v s, v.size ≤ 3 → w.put v s = (.error .chunkFull, w, s) := by
  have isOpen : (live {} [] fullChunk).1.core.isOpen = true := rfl
  have waiting : (live {} [] fullChunk).2 = [Bytes.ofText [1], Bytes.ofText [2, 3]] := rfl
  obtain ⟨room, answers⟩ := (live_hasRoom { level := Logger.warnLevel } fullChunk).1 isOpen
  have slot := room.slotPosition
  have data := room.dataPosition
  have slots := room.slots
  rw [waiting] at slot data slots
  exact ⟨isOpen, slot, data, slots, fun v s short => answers.full v s short (by rw [waiting]; rfl)⟩

end VariableWriter
end ForwardIndex
