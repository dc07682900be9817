import ForwardIndex.Proofs.Job

/-!
# Writers in the middle of a job

`Steady` tells all of a writer from the raw chunks stored so far and the chunk in the buffer. A
flush has room for the chunk where the header declares one more and the table can tell its start.
Without room it is refused and nothing changes; with room the chunk is stored unless the system
fails, and where the writes to the file go well the system does not.
-/
set_option autoImplicit false
namespace ForwardIndex

namespace ChunkWriter

/-- A compressor that encodes hands over the encoding of the chunk, where the rules allow it. -/
theorem Works.output?_eq_some {w : ChunkWriter} {c : Compressor} {b : Buffer} {capacity : Nat}
    {encode : Nat → Bytes → Bytes} (h : w.Works c b (c.bound capacity))
    (encodes : c.Encodes capacity encode) (fits : b.filled.size ≤ capacity)
    (some : b.isEmpty = false) (free : w.header.isFull = false)
    (check : w.header.checkOffset w.cursor = .ok ()) :
    w.output? = .some (encode w.calls b.filled) := by
  obtain ⟨codec, staging, hs, rfl, hr⟩ := h
  have within := encodes.size_le codec.calls fits
  rw [← hr] at within
  unfold ChunkWriter.output? ChunkWriter.calls
  simp only [hs, free, check, some]
  rw [compressChunk, encodes.compress codec.calls fits hr]
  simp only [Compressor.size_stage]
  rw [if_neg (Nat.not_lt.2 within)]
  simpa using Compressor.stage_first within

/-- A writer in the middle of a job that has stored raw chunks and is filling a buffer. -/
structure Steady (job : Job) (raw : List Bytes) (b : Buffer) (w : ChunkWriter) (s : Session) :
    Prop where
  works : w.Works job.compressor b (job.compressor.bound job.capacity)
  room : b.capacity = job.capacity
  calls : w.calls = raw.length
  handle : w.file.isOpen
  header : w.header = job.header raw
  cursor : w.cursor = job.cursor raw
  allows : job.Allows raw
  nonempty : ∀ chunk ∈ raw, chunk.size ≠ 0
  file : ∀ p ∈ job.place, FileHandle.Follows p job.start s.volume ∧
    ∃ content, w.file.Holds s.volume p content ∧ content.toText = job.unheaded raw

/-- The raw chunks with the one in the buffer, if there is one. -/
def filledUp (raw : List Bytes) (b : Buffer) : List Bytes :=
  if b.isEmpty then raw else raw ++ [b.filled]

theorem filledUp_empty {raw : List Bytes} {b : Buffer} (none : b.isEmpty) : filledUp raw b = raw :=
  if_pos none

theorem filledUp_some {raw : List Bytes} {b : Buffer} (some : b.isEmpty = false) :
    filledUp raw b = raw ++ [b.filled] := by
  rw [filledUp, some, if_neg Bool.false_ne_true]

section Steady

variable {job : Job} {raw : List Bytes} {b : Buffer} {w : ChunkWriter} {s : Session}

theorem Steady.buffer (h : Steady job raw b w s) : w.buffer = b := h.works.buffer

theorem Steady.isOpen (h : Steady job raw b w s) : w.isOpen := h.works.isOpen

theorem Steady.within (h : Steady job raw b w s) : raw.length ≤ job.blank.capacity :=
  h.allows.within

theorem Steady.recorded (h : Steady job raw b w s) : w.header.recorded = raw.length := by
  rw [h.header, job.recorded_header]

theorem Steady.isFull (h : Steady job raw b w s) :
    w.header.isFull = decide (job.blank.capacity ≤ raw.length) := by
  rw [Header.isFull, h.recorded, h.header]
  rfl

theorem Steady.filled_le (h : Steady job raw b w s) : b.filled.size ≤ job.capacity := by
  rw [b.size_filled, ← h.room]
  exact b.position_le

theorem Steady.checkOffset (h : Steady job raw b w s) :
    w.header.checkOffset w.cursor = job.blank.checkOffset (job.cursor raw) := by
  rw [h.header, h.cursor]
  rfl

theorem Steady.size_header (h : Steady job raw b w s) :
    w.header.toBytes.size = job.blank.size := by
  rw [h.header, ← Bytes.length_toText]
  exact h.allows.length_header

/-- The log has no say. -/
theorem Steady.logged (h : Steady job raw b w s) (log : Text) :
    Steady job raw b w { s with log } :=
  { h with file := h.file }

/-- Whatever is done to the buffer, the rest stays. -/
theorem Steady.onBuffer {α : Type} (h : Steady job raw b w s) (f : Buffer → α × Buffer)
    (keeps : (f b).2.capacity = b.capacity) :
    ∃ w', w.onBuffer f = ((f b).1, w') ∧ Steady job raw (f b).2 w' s := by
  obtain ⟨codec, staging, hs, hc, hr⟩ := h.works
  obtain ⟨logger, header, file, cursor, stage⟩ := w
  obtain rfl : stage = .writing codec b staging := hs
  exact ⟨_, rfl, ⟨codec, staging, rfl, hc, hr⟩, keeps.trans h.room, h.calls, h.handle, h.header,
    h.cursor, h.allows, h.nonempty, h.file⟩

/-- The chunk in the buffer is allowed where there is room for it. -/
theorem Steady.allows_filledUp (h : Steady job raw b w s) :
    job.Allows (filledUp raw b) ↔ b.isEmpty ∨ job.HasRoom raw := by
  by_cases none : b.isEmpty
  · rw [filledUp_empty none]
    exact iff_of_true h.allows (.inl none)
  · rw [filledUp_some (by simpa using none)]
    exact ⟨fun allows => .inr allows.next,
      fun room => h.allows.concat (room.resolve_left none) h.filled_le⟩

/-! ## Flushing -/

/-- With all declared chunks stored, a flush is a mistake of the caller and does nothing. -/
theorem Steady.flush_full (h : Steady job raw b w s) (some : b.isEmpty = false)
    (all : job.blank.capacity ≤ raw.length) :
    ∃ e, e.kind = .usage ∧ w.flush s = (.error e, w, s) := by
  have full : w.header.isFull := by rw [h.isFull, decide_eq_true all]
  exact ⟨_, rfl, h.works.flush_full some full s⟩

/-- Where the table cannot tell the start, a flush overflows and does nothing. -/
theorem Steady.flush_far (h : Steady job raw b w s) (some : b.isEmpty = false)
    (few : raw.length < job.blank.capacity) (none : ¬ job.HasRoom raw) :
    ∃ e log, e.kind = .overflow ∧ w.flush s = (.error e, w, { s with log }) := by
  have free : w.header.isFull = false := by
    rw [h.isFull]
    exact decide_eq_false (Nat.not_le.2 few)
  have far : w.header.checkOffset w.cursor ≠ .ok () := fun ok =>
    none ⟨few, h.checkOffset.symm.trans ok⟩
  cases check : w.header.checkOffset w.cursor with
  | ok u => exact absurd check far
  | error e =>
    obtain ⟨log, flushed⟩ := h.works.flush_far some free check s
    refine ⟨e, log, ?_, flushed⟩
    unfold Header.checkOffset at check
    split at check <;> cases check
    rfl

/-- A flush without room is refused and does nothing. -/
theorem Steady.flush_refused (h : Steady job raw b w s) (some : b.isEmpty = false)
    (none : ¬ job.HasRoom raw) : ∃ e log, w.flush s = (.error e, w, { s with log }) := by
  by_cases all : job.blank.capacity ≤ raw.length
  · obtain ⟨e, -, refused⟩ := h.flush_full some all
    exact ⟨e, s.log, refused⟩
  · obtain ⟨e, log, -, refused⟩ := h.flush_far some (Nat.not_le.1 all) none
    exact ⟨e, log, refused⟩

/-- A flush with room stores the chunk, unless the system fails. -/
theorem Steady.flush (h : Steady job raw b w s) (some : b.isEmpty = false)
    (room : job.HasRoom raw) :
    ∃ outcome w' s', w.flush s = (outcome, w', s') ∧
      (outcome = .ok () → Steady job (raw ++ [b.filled]) b.clear w' s') ∧
      (∀ e, outcome = .error e → e.kind = .io) ∧ (job.Calm → outcome = .ok ()) := by
  have free : w.header.isFull = false := by
    rw [h.isFull]
    exact decide_eq_false (Nat.not_le.2 room.1)
  have fits := h.filled_le
  have some_filled : b.filled.size ≠ 0 := by
    rw [Buffer.isEmpty_eq] at some
    exact of_decide_eq_false some
  have out := h.works.output?_eq_some job.encodes fits some free (h.checkOffset.trans room.2)
  rw [h.calls] at out
  rcases hf : w.flush s with ⟨outcome, w', s'⟩
  refine ⟨outcome, w', s', rfl, ?_⟩
  cases hf ▸ w.flushed s with
  | forbidden log none => cases none.symm.trans out
  | uncompressed _ none => cases none.symm.trans out
  | unwritten _ out' write =>
    refine ⟨fun ok => ?_, fun e same => ?_, fun calm => ?_⟩
    · cases ok
    · cases same
      exact FileHandle.writeAll_error_of_isOpen h.handle write
    · cases out.symm.trans out'
      obtain ⟨p, place⟩ := Option.isSome_iff_exists.1 calm.file
      obtain ⟨follows, content, holds, -⟩ := h.file p place
      have size := job.size_encode_le raw.length fits
      have bound := h.allows.cursor_lt
      have below : w.cursor + (job.encode raw.length b.filled).size < Volume.offsetBound := by
        rw [h.cursor]
        omega
      obtain ⟨v, done, -⟩ := holds.writeAll_succeeds (follows.writesGoOn calm.writes) below
      cases write.symm.trans done
  | stored works out' write works' header file cursor calls =>
    obtain ⟨rfl, rfl, rfl⟩ := works.unique h.works
    cases out.symm.trans out'
    refine ⟨fun _ => ⟨works', h.room, ?_, ?_, ?_, ?_, h.allows.concat room fits, ?_,
      fun p place => ?_⟩, fun e failed => ?_, fun _ => rfl⟩
    · rw [calls, h.calls, List.length_append, List.length_singleton]
    · rw [file]
      exact h.handle
    · rw [header, h.header, h.cursor]
      simp [Job.header, Job.cursor, Job.stored, Header.chunkStarts, Layout.starts_concat]
    · rw [cursor, h.cursor, Job.cursor, Job.cursor, job.stored_append, Bytes.joined_concat,
        List.length_append, Bytes.length_toText, Nat.add_assoc]
    · exact List.forall_mem_append.2 ⟨h.nonempty, List.forall_mem_singleton.2 some_filled⟩
    · obtain ⟨follows, content, holds, view⟩ := h.file p place
      obtain ⟨holds', follows'⟩ := holds.writeAll_ok write
      refine ⟨follows.trans follows', _, file ▸ holds', ?_⟩
      rw [h.cursor, Job.unheaded, job.stored_append]
      exact Layout.patch_unheaded view (job.encodes.size_ne_zero _ some_filled)
    · cases failed

/-- A flush that succeeds had a chunk and room for it, and has stored it. -/
theorem Steady.flush_ok (h : Steady job raw b w s) {w' : ChunkWriter} {s' : Session}
    (ok : w.flush s = (.ok (), w', s')) :
    b.isEmpty = false ∧ job.HasRoom raw ∧ Steady job (raw ++ [b.filled]) b.clear w' s' := by
  have some : b.isEmpty = false := by
    by_contra none
    cases ok.symm.trans (h.works.flush_empty (by simpa using none) s)
  have room : job.HasRoom raw := by
    by_contra none
    obtain ⟨e, log, refused⟩ := h.flush_refused some none
    cases ok.symm.trans refused
  obtain ⟨outcome, w₁, s₁, flushed, stores, -⟩ := h.flush some room
  cases ok.symm.trans flushed
  exact ⟨some, room, stores rfl⟩

/-- Where nothing befalls the file, a flush with room succeeds. -/
theorem Steady.flush_calm (h : Steady job raw b w s) (calm : job.Calm) (some : b.isEmpty = false)
    (room : job.HasRoom raw) :
    ∃ w' s', w.flush s = (.ok (), w', s') ∧ Steady job (raw ++ [b.filled]) b.clear w' s' := by
  obtain ⟨outcome, w', s', flushed, stores, -, succeeds⟩ := h.flush some room
  obtain rfl := succeeds calm
  exact ⟨w', s', flushed, stores rfl⟩

/-! ## Closing -/

/-- Whatever is done later that leaves the nodes, the path reads as it does now. -/
theorem Steady.read (h : Steady job raw b w s) (file : job.place.isSome) :
    ∃ content, content.toText = job.unheaded raw ∧
      ∀ v : Volume, (∀ q, v.node? q = s.volume.node? q) → v.read job.path = .bytes content := by
  obtain ⟨p, place⟩ := Option.isSome_iff_exists.1 file
  obtain ⟨found, old, regular⟩ := job.regular p place
  obtain ⟨follows, content, ⟨_, _, _, node⟩, view⟩ := h.file p place
  refine ⟨content, view, fun v same => ?_⟩
  exact Volume.read_changed found regular ((same _).trans node) fun q hq =>
    (same q).trans (follows.others q hq)

/-- A close whose pending flush has no room reports its failure. It writes nothing, not even the
header. -/
theorem Steady.close_refused (h : Steady job raw b w s) (some : b.isEmpty = false)
    (none : ¬ job.HasRoom raw) :
    ∃ e w₁ s₁, (w.flush s).1 = .error e ∧ w.close s = (.error e, w₁, s₁) ∧
      job.Ended raw (job.unheaded raw) w₁ s₁.volume ∧
      ∀ q, s₁.volume.node? q = s.volume.node? q := by
  obtain ⟨e, log, refused⟩ := h.flush_refused some none
  have flushed : w.flushPending s = (.error e, w, { s with log }) := by
    rw [flushPending, h.buffer, some, refused]
    rfl
  obtain ⟨w₁, s₁, closed, stage, header, cursor, volume⟩ := close_failed h.works flushed
  have same (q : Place) : s₁.volume.node? q = s.volume.node? q := by
    rw [volume, FileHandle.close_node?]
  refine ⟨e, w₁, s₁, by rw [refused], closed, ⟨stage, header.trans h.header,
    cursor.trans h.cursor, h.allows, h.nonempty, fun p place => ?_, fun p place q other => ?_⟩,
    same⟩
  · obtain ⟨-, content, ⟨_, _, _, node⟩, view⟩ := h.file p place
    exact ⟨content, (same p).trans node, view⟩
  · exact (same q).trans ((h.file p place).1.others q other)

/-- The header written into its room, and the file closed: the job is finished unless the system
fails. -/
theorem Steady.close_flushed {raw' : List Bytes} {b' : Buffer} {w' : ChunkWriter} {s' : Session}
    (h : Steady job raw b w s) (flushed : w.flushPending s = (.ok (), w', s'))
    (h' : Steady job raw' b' w' s') :
    job.Closed raw' (w.close s).1 (w.close s).2.1 (w.close s).2.2.volume := by
  have writes (calm : job.Calm) :
      ∃ v, w'.file.writeAll w'.header.toBytes 0 s'.volume = (.ok (), v) := by
    obtain ⟨p, place⟩ := Option.isSome_iff_exists.1 calm.file
    obtain ⟨follows, content, holds, -⟩ := h'.file p place
    have size := job.blank.size_le
    have room : 0 + w'.header.toBytes.size < Volume.offsetBound := by
      rw [h'.size_header, Volume.offsetBound]
      omega
    obtain ⟨v, done, -⟩ := holds.writeAll_succeeds (follows.writesGoOn calm.writes) room
    exact ⟨v, done⟩
  rcases write : w'.file.writeAll w'.header.toBytes 0 s'.volume with ⟨e | u, v⟩
  · have io := FileHandle.writeAll_error_of_isOpen h'.handle write
    have failed : (w.close s).1 = .error e := by
      rw [close_of_isOpen h.isOpen, flushed]
      simp only [writeHeader, write, release]
    rw [failed]
    refine .of_io io fun calm => ?_
    obtain ⟨v', done⟩ := writes calm
    cases write.symm.trans done
  obtain ⟨w₁, s₁, closed, stage, header, cursor, volume⟩ := close_spec h.works flushed write
  have finished : job.Finished raw' w₁ s₁.volume := by
    refine ⟨stage, header.trans h'.header, cursor.trans h'.cursor, h'.allows, h'.nonempty,
      fun p place => ?_, fun p place q other => ?_⟩
    · obtain ⟨-, content, holds, view⟩ := h'.file p place
      obtain ⟨⟨_, _, _, node⟩, -⟩ := holds.writeAll_ok write
      refine ⟨_, by rw [volume, FileHandle.close_node?, node], ?_⟩
      rw [Bytes.toText_patch_front (by rw [h'.size_header]; exact job.blank.size_pos),
        h'.size_header, view, Job.unheaded, Layout.drop_unheaded, h'.header]
      rfl
    · obtain ⟨follows, content, holds, -⟩ := h'.file p place
      obtain ⟨-, follows'⟩ := holds.writeAll_ok write
      rw [volume, FileHandle.close_node?, (follows.trans follows').others q other]
  have concluded : w'.closingOutcome (.ok ()) = job.closing raw' := by
    rw [closingOutcome, h'.recorded, h'.header]
    rfl
  rw [closed]
  refine ⟨?_, fun _ => finished, fun _ => finished, fun calm closes => ?_⟩
  · rcases shut : (w'.file.close v).1 with e | u
    · exact .inr ⟨e, rfl, FileHandle.close_error shut⟩
    · exact .inl concluded
  · obtain ⟨p, place⟩ := Option.isSome_iff_exists.1 calm.file
    obtain ⟨follows, content, holds, -⟩ := h'.file p place
    obtain ⟨holds', follows'⟩ := holds.writeAll_ok write
    rw [holds'.close_ok ((follows.trans follows').closes closes), concluded]

/-- A close stores the chunk in the buffer, if there is one and room for it, and finishes the job
unless the system fails. -/
theorem Steady.close (h : Steady job raw b w s) (room : b.isEmpty ∨ job.HasRoom raw) :
    job.Closed (filledUp raw b) (w.close s).1 (w.close s).2.1 (w.close s).2.2.volume := by
  by_cases none : b.isEmpty
  · rw [filledUp_empty none]
    exact h.close_flushed (by rw [flushPending, h.buffer, if_pos none]) h
  have some : b.isEmpty = false := by simpa using none
  rw [filledUp_some some]
  obtain ⟨outcome, w', s', flushed, stores, io, calm⟩ := h.flush some (room.resolve_left none)
  have pending : w.flushPending s = (outcome, w', s') := by
    rw [flushPending, h.buffer, some, flushed]
    rfl
  cases outcome with
  | ok u => exact h.close_flushed pending (stores rfl)
  | error e =>
    obtain ⟨w₁, s₁, closed, -⟩ := close_failed h.works pending
    rw [closed]
    exact .of_io (io e rfl) fun still => by cases calm still

/-- A close that succeeds had room for the chunk in the buffer. -/
theorem Steady.close_ok (h : Steady job raw b w s) (ok : (w.close s).1 = .ok ()) :
    b.isEmpty ∨ job.HasRoom raw := by
  by_contra none
  obtain ⟨some, none⟩ := not_or.1 none
  obtain ⟨e, w₁, s₁, -, refused, -⟩ := h.close_refused (by simpa using some) none
  rw [refused] at ok
  cases ok

end Steady

/-- The end of a writer's life leaves the volume that closing it leaves. -/
theorem volume_drop (w : ChunkWriter) (s : Session) :
    (w.drop s).volume = (w.close s).2.2.volume := by
  unfold drop
  cases hs : w.stage with
  | unopened => simp [isOpen, close, hs]
  | closed => simp [isOpen, close, hs]
  | writing codec buffer staging =>
    rw [show w.isOpen = true by rw [isOpen, hs]]
    rcases w.close s with ⟨outcome, w', s'⟩
    cases outcome <;> rfl

end ChunkWriter

/-! ## Opening -/

/-- A job that was started by opening a path with parameters, on a deflate library. -/
structure Job.Opens (job : Job) (path : Text) (params : Parameters) (z : Deflater) (v : Volume) :
    Prop where
  place : v.LeadsToFile path → ∃ p ∈ job.place, FileHandle.Follows p v job.start
  path : job.path = path
  blank : job.blank = params.header params.compression
  capacity : job.capacity = params.chunkSize.toInt.toNat
  encode : job.encode = params.encode z
  builtin : params.compression = .passThrough ∨ params.compression = .gzip
  admitted : params.Admitted

namespace Job.Opens

variable {job : Job} {path : Text} {params : Parameters} {z : Deflater} {v : Volume}

theorem isSome (h : job.Opens path params z v) (file : v.LeadsToFile path) : job.place.isSome := by
  obtain ⟨p, place, -⟩ := h.place file
  exact Option.isSome_iff_exists.2 ⟨p, place⟩

theorem calm (h : job.Opens path params z v) (file : v.LeadsToFile path)
    (writes : v.WritesGoOn) : job.Calm := by
  obtain ⟨p, -, follows⟩ := h.place file
  exact ⟨h.isSome file, follows.writesGoOn writes⟩

theorem closes (h : job.Opens path params z v) (file : v.LeadsToFile path) (closes : v.Closes) :
    job.start.Closes := by
  obtain ⟨p, -, follows⟩ := h.place file
  exact follows.closes closes

/-- Chunks of the type PASS_THROUGH are stored as they are. -/
theorem stored (h : job.Opens path params z v) (plain : params.compression = .passThrough)
    (raw : List Bytes) : job.stored raw = raw := by
  have same : job.encode = fun _ chunk => chunk := by
    rw [h.encode]
    unfold Parameters.encode Compressor.encoding
    simp only [plain, if_true]
  rw [Job.stored, same]
  simp [List.mapIdx_eq_zipIdx_map]

/-- What undoes the library undoes the encoding of the job. -/
theorem undoneBy (h : job.Opens path params z v) {inflate : Bytes → Option Bytes}
    (undone : params.compression = .gzip → z.UndoneBy inflate) : job.UndoneBy inflate := by
  intro f type call chunk within
  have most := job.small
  rw [h.blank] at type
  rw [h.capacity] at within most
  rw [h.encode]
  exact IndexFile.rawChunk?_encoding h.builtin undone type most call within

end Job.Opens

/-- A job that was started by opening a path and is over with all chunks that the header
declares. -/
structure Job.Completes (job : Job) (path : Text) (params : Parameters) (z : Deflater)
    (raw : List Bytes) (v : Volume) (w : ChunkWriter) (v' : Volume) : Prop where
  opens : job.Opens path params z v
  all : raw.length = job.blank.capacity
  finished : job.Finished raw w v'

/-- Opening with a built-in compressor starts a job. -/
theorem ChunkWriter.openBuiltin_steady {w₀ w : ChunkWriter} {path : Text} {params : Parameters}
    {s₀ s : Session} {z : Deflater} (opened : w₀.openBuiltin path params s₀ z = (.ok (), w, s))
    (doc : params.compression = .gzip → z.Documented) :
    ∃ job : Job, job.Opens path params z s₀.volume ∧ Steady job [] (.new job.capacity) w s := by
  obtain ⟨e, refused⟩ | ⟨c, check, builtin, same⟩ := w₀.openBuiltin_cases path params s₀ z
  · cases opened.symm.trans refused
  have admitted := Parameters.check_ok check
  have small := Int.toNat_le.2 admitted.chunkSize_le
  have type := Compressor.ofType_type builtin
  rw [same] at opened
  unfold openWith at opened
  dsimp only [Session.handOver] at opened
  split at opened
  · cases opened
  rw [check] at opened
  rcases ho : w₀.file.openAt path s₀.volume with ⟨outcome, f, v⟩
  rw [ho] at opened
  cases outcome with
  | error e => cases opened
  | ok u =>
    -- The place is known where the path led to a file; either way the writer is the same.
    have start (place : Option Place)
        (file : ∀ p ∈ place, v.find path = .ok p ∧ f.Holds v p ByteArray.empty)
        (leads : s₀.volume.LeadsToFile path → ∃ p ∈ place, FileHandle.Follows p s₀.volume v) :
        ∃ job : Job, job.Opens path params z s₀.volume ∧
          Steady job [] (.new job.capacity) w s := by
      cases opened
      refine ⟨{
        path
        place
        start := v
        blank := params.header params.compression
        capacity := params.chunkSize.toInt.toNat
        compressor := c
        encode := params.encode z
        small
        encodes := Compressor.ofType_encodes builtin small doc
        regular := fun p among => ?_ }, ⟨leads, rfl, rfl, rfl, rfl,
          Compressor.builtin_of_ofType builtin, admitted⟩, ?_⟩
      · obtain ⟨found, _, _, _, node⟩ := file p among
        exact ⟨found, _, node⟩
      · exact ⟨⟨_, _, rfl, rfl, by simp⟩, Buffer.capacity_new _, rfl, FileHandle.openAt_isOpen ho,
          by rw [type]; rfl, by rw [type]; rfl, Job.allows_nil _, nofun,
          fun p among => ⟨.refl p v, _, (file p among).2, rfl⟩⟩
    by_cases file : s₀.volume.LeadsToFile path
    · obtain ⟨p, found, holds, follows⟩ := FileHandle.openAt_ok file ho
      refine start (some p) (fun q among => ?_) fun _ => ⟨p, rfl, follows⟩
      cases among
      exact ⟨found, holds⟩
    · exact start none nofun fun leads => absurd leads file

end ForwardIndex
