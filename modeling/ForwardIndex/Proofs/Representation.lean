import ForwardIndex.Proofs.ExactRun
import ForwardIndex.Proofs.IndexFile
import ForwardIndex.Proofs.TwinRuns

/-!
# Versions and compressions as representations

The version of the format and the built-in compression say how chunks are stored, and nothing else:
two runs of an encoder that differ in no more are answered alike call by call, and their files hold
the same raw chunks. With one compression the stored bytes are the same as well, moved by what the
tables take; versions with tables of one width give the same file up to the field of the version.
-/
set_option autoImplicit false
namespace ForwardIndex

/-- Chunks that lie back to back move with the first. -/
theorem Layout.starts_move (position position' : Nat) (chunks : List Bytes) :
    (starts position' chunks).map Int.ofNat =
      (starts position chunks).map fun start : Nat => (start : Int) + (position' - position) := by
  induction chunks generalizing position position' with
  | nil => rfl
  | cons chunk rest ih =>
    rw [starts, starts, List.map_cons, List.map_cons, ih (position + chunk.size)]
    push_cast
    rw [add_sub_add_right_eq_sub, add_sub_cancel]
    rfl

/-- The version stands in front of all else that is in a header. -/
theorem Header.drop_toBytes (h h' : Header) (width : h'.offsetWidth = h.offsetWidth)
    (same : h' = { h with version := h'.version }) :
    h'.toBytes.toText.drop 4 = h.toBytes.toText.drop 4 := by
  have bytes (offset : Nat) : h'.offsetBytes offset = h.offsetBytes offset := by
    rw [offsetBytes, offsetBytes, width]
  rw [toText_toBytes, toText_toBytes, funext bytes, width, same]
  rfl

/-- What a file holds under a header: the chunks are those whose offsets are recorded so far. -/
def IndexFile.under (h : Header) (content : Bytes) : IndexFile where
  version := h.version
  chunkCount := h.chunkCount
  docsPerChunk := h.docsPerChunk
  entrySize := h.entrySize
  totalDocs := h.totalDocs
  compression := h.compression.code
  tableStart := Int32.ofNat Layout.fieldsSize
  offsets := h.offsets.toList
  content

namespace Job

variable {job job' : Job} {raw : List Bytes} {content : Bytes}

/-- The chunks of a job are found behind the room of the header. -/
theorem storedChunks_under (some : ∀ chunk ∈ raw, chunk.size ≠ 0)
    (view : job.blank.Stores job.encode raw content) :
    (IndexFile.under (job.header raw) content).storedChunks = job.stored raw := by
  have view : content.toText.drop job.blank.size = Bytes.joined (job.stored raw) := view
  cases raw with
  | nil => rfl
  | cons chunk rest =>
    have first := job.encodes.size_ne_zero 0 (some chunk List.mem_cons_self)
    have size := congrArg List.length view
    rw [List.length_drop, Bytes.length_toText, stored, List.mapIdx_cons,
      Bytes.length_joined_cons] at size
    have within : job.blank.size ≤ content.size := by omega
    exact IndexFile.slices_starts within view

theorem stored_congr (same : job'.encode = job.encode) : job'.stored raw = job.stored raw := by
  rw [stored, stored, same]

namespace Matches

theorem size (m : job.Matches job') (width : job'.blank.offsetWidth = job.blank.offsetWidth) :
    job'.blank.size = job.blank.size := by
  rw [Header.size, Header.size, width, m.declared]

/-- With one compression the tables alone move the chunks. -/
theorem chunkStarts (m : job.Matches job')
    (same : job'.blank.compression = job.blank.compression) :
    (job'.blank.chunkStarts job'.encode raw).map Int.ofNat =
      (job.blank.chunkStarts job.encode raw).map fun start : Nat =>
        (start : Int) + job.blank.capacity * (job'.blank.offsetWidth - job.blank.offsetWidth) := by
  have moved : (job'.blank.size : Int) - job.blank.size =
      job.blank.capacity * (job'.blank.offsetWidth - job.blank.offsetWidth) := by
    rw [Header.size, Header.size, m.declared]
    push_cast
    ring
  rw [Header.chunkStarts, Header.chunkStarts, m.encode same, Layout.starts_move job.blank.size,
    moved]

/-- With one compression and tables of one width the headers differ in the version alone. -/
theorem header (m : job.Matches job') (same : job'.blank.compression = job.blank.compression)
    (width : job'.blank.offsetWidth = job.blank.offsetWidth) :
    job'.header raw = { job.header raw with version := job'.blank.version } := by
  rw [Job.header, Header.chunkStarts, m.size width, m.encode same]
  conv_lhs => rw [m.blank, same]
  rfl

end Matches
end Job

/-- The tables of the later versions have one width. -/
theorem Header.offsetWidth_later {h : Header} (later : 3 ≤ h.version) : h.offsetWidth = 8 := by
  unfold offsetWidth Layout.offsetWidth
  rw [if_neg]
  intro two
  rw [two] at later
  exact absurd later (by decide)

/-! ## What is compared -/

/-- Two writers show as many chunks and as much in the buffer. With one compression the offsets of
the chunks differ by what the tables do. -/
structure ChunkWriter.Level (w w' : ChunkWriter) : Prop where
  recorded : w'.header.recorded = w.header.recorded
  position : w'.buffer.position = w.buffer.position
  offsets : w'.header.compression = w.header.compression →
    w'.header.offsets.toList.map Int.ofNat = w.header.offsets.toList.map fun offset : Nat =>
      (offset : Int) + w.header.capacity * (w'.header.offsetWidth - w.header.offsetWidth)

/-- Two files hold the same raw chunks. With one compression the stored chunks are the same, and
between later versions no byte differs but those of the version. -/
structure IndexFile.SameChunks (inflate : Bytes → Option Bytes) (h h' : Header)
    (content content' : Bytes) : Prop where
  raw : ∃ chunks, (under h content).rawChunks? inflate = some chunks ∧
    (under h' content').rawChunks? inflate = some chunks
  stored : h'.compression = h.compression →
    (under h' content').storedChunks = (under h content).storedChunks
  bytes : h'.compression = h.compression → 3 ≤ h.version → 3 ≤ h'.version →
    content'.size = content.size ∧ content'.toText.drop 4 = content.toText.drop 4

section Files

variable {job job' : Job} {raw : List Bytes} {w w' : ChunkWriter} {s s' : Session}

namespace ChunkWriter

theorem level (m : job.Matches job') (header : w.header = job.header raw)
    (header' : w'.header = job'.header raw) (position : w'.buffer.position = w.buffer.position) :
    Level w w' where
  recorded := by rw [header, header', job.recorded_header, job'.recorded_header]
  position := position
  offsets same := by
    rw [header, header'] at same ⊢
    rw [Job.header, Job.header, List.toList_toArray, List.toList_toArray]
    exact m.chunkStarts same

theorem Abreast.level {b : Buffer} (h : Abreast job job' raw b w w' s s') : Level w w' := by
  refine ChunkWriter.level h.jobs h.left.header h.right.header ?_
  rw [h.left.buffer, h.right.buffer]

theorem Parted.level (h : Parted job job' w w' s s') : Level w w' := by
  have buffer {w : ChunkWriter} (closed : w.stage = .closed) : w.buffer = .new 0 := by
    rw [ChunkWriter.buffer, closed]
  cases h with
  | bare raw jobs left right | whole raw jobs left right =>
    refine ChunkWriter.level jobs left.header right.header ?_
    rw [buffer left.closed, buffer right.closed]

end ChunkWriter

variable {inflate : Bytes → Option Bytes} (undone : job.UndoneBy inflate)
  (undone' : job'.UndoneBy inflate) (file : job.place.isSome) (file' : job'.place.isSome)
include undone undone' file file'

/-- Two files with the same raw chunks behind the room of the header. -/
theorem Job.Ended.sameChunks {text text' : Text} (m : job.Matches job')
    (left : job.Ended raw text w s.volume) (right : job'.Ended raw text' w' s'.volume)
    (stores : ∀ content : Bytes, content.toText = text → job.blank.Stores job.encode raw content)
    (stores' : ∀ content : Bytes, content.toText = text' →
      job'.blank.Stores job'.encode raw content)
    (bytes : job'.blank.compression = job.blank.compression →
      job'.blank.offsetWidth = job.blank.offsetWidth →
      text'.length = text.length ∧ text'.drop 4 = text.drop 4) :
    ∃ content content', s.volume.read job.path = .bytes content ∧
      s'.volume.read job'.path = .bytes content' ∧
      IndexFile.SameChunks inflate w.header w'.header content content' := by
  obtain ⟨content, read, rfl⟩ := left.read file
  obtain ⟨content', read', rfl⟩ := right.read file'
  refine ⟨content, content', read, read', ?_⟩
  have chunks := Job.storedChunks_under left.nonempty (stores content rfl)
  have chunks' := Job.storedChunks_under right.nonempty (stores' content' rfl)
  rw [left.header, right.header]
  refine ⟨⟨raw, undone.rawChunks? rfl left.allows.small chunks,
    undone'.rawChunks? rfl right.allows.small chunks'⟩, fun same => ?_, fun same later later' => ?_⟩
  · rw [chunks, chunks', Job.stored_congr (m.encode same)]
  · have width : (job.header raw).offsetWidth = 8 := Header.offsetWidth_later later
    have width' : (job'.header raw).offsetWidth = 8 := Header.offsetWidth_later later'
    rw [← Bytes.length_toText, ← Bytes.length_toText]
    exact bytes same (width'.trans width.symm)

/-- The files of two writers that were closed. -/
theorem ChunkWriter.Parted.files (h : Parted job job' w w' s s') :
    ∃ content content', s.volume.read job.path = .bytes content ∧
      s'.volume.read job'.path = .bytes content' ∧
      IndexFile.SameChunks inflate w.header w'.header content content' := by
  cases h with
  | bare raw jobs left right =>
    refine left.sameChunks undone undone' file file' jobs right
      (fun _ view => job.stores_of_unheaded view) (fun _ view => job'.stores_of_unheaded view)
      fun compression width => ?_
    rw [Job.unheaded, Job.unheaded, jobs.size width, Job.stored_congr (jobs.encode compression)]
    exact ⟨rfl, rfl⟩
  | whole raw jobs left right =>
    refine left.sameChunks undone undone' file file' jobs right
      (fun _ view => left.allows.stores view) (fun _ view => right.allows.stores view)
      fun compression width => ?_
    have later := Header.drop_toBytes (job.header raw) (job'.header raw) width
      (jobs.header compression width)
    have least : 4 ≤ job.blank.size := by
      rw [Header.size, Layout.fieldsSize]
      omega
    have length := left.allows.length_header
    have length' := right.allows.length_header.trans (jobs.size width)
    rw [Job.contents, Job.contents, Job.stored_congr (jobs.encode compression)]
    refine ⟨by rw [List.length_append, List.length_append, length, length'], ?_⟩
    rw [List.drop_append_of_le_length (by omega), List.drop_append_of_le_length (by omega), later]

end Files

/-! ## Runs -/

open ChunkWriter (Abreast Going Done)

/-- A writer of variable-width values starts with the slots of the first chunk. -/
theorem VariableWriter.openAt_eq {w₀ w : VariableWriter} {path : Text} {compression : Compression}
    {totalDocs docsPerChunk longest version : Int32} {s₀ s : Session} {z : Deflater}
    (opened : w₀.openAt path compression totalDocs docsPerChunk longest version s₀ z =
      (.ok (), w, s)) :
    w = ⟨w.core, docsPerChunk.toInt.toNat * Layout.slotWidth, 0,
      docsPerChunk.toInt.toNat * Layout.slotWidth⟩ := by
  have core := openAt_core opened
  unfold openAt at opened
  simp only [core] at opened
  exact (congrArg (fun r => r.2.1) opened).symm

theorem ChunkWriter.openBuiltin_docsPerChunk {w₀ w : ChunkWriter} {path : Text}
    {params : Parameters} {s₀ s : Session} {z : Deflater}
    (opened : w₀.openBuiltin path params s₀ z = (.ok (), w, s)) :
    w.header.docsPerChunk = params.docsPerChunk := by
  obtain ⟨e, refused⟩ | ⟨c, -, -, same⟩ := w₀.openBuiltin_cases path params s₀ z
  · cases opened.symm.trans refused
  · rw [openWith_header (same.symm.trans opened)]
    rfl

namespace Encoder

section Run

variable {W V : Type} (E : Encoder W V)

/-- The close behind puts, whatever each of them reports. -/
def finished (w : W) (s : Session) (puts : List V) : Outcome × W × Session :=
  E.close (E.after w s puts).1 (E.after w s puts).2

/-- No put of a run and not its close reports that the system failed or an offset is too large. -/
def Undisturbed (w : W) (s : Session) : List V → Prop
  | [] => (E.close w s).1.Quiet
  | v :: rest => (E.put w v s).1.Quiet ∧ Undisturbed (E.put w v s).2.1 (E.put w v s).2.2 rest

instance decidableUndisturbed (w : W) (s : Session) :
    (puts : List V) → Decidable (E.Undisturbed w s puts)
  | [] => inferInstanceAs (Decidable (E.close w s).1.Quiet)
  | v :: rest =>
    let _ := decidableUndisturbed (E.put w v s).2.1 (E.put w v s).2.2 rest
    inferInstanceAs (Decidable ((E.put w v s).1.Quiet ∧ _))

/-- Two writers answer every put of a run and the close alike, and are level behind each. -/
def Alike (w w' : W) (s s' : Session) : List V → Prop
  | [] => (E.close w s).1.status = (E.close w' s').1.status ∧
    (E.core (E.close w s).2.1).Level (E.core (E.close w' s').2.1)
  | v :: rest => (E.put w v s).1.status = (E.put w' v s').1.status ∧
    (E.core (E.put w v s).2.1).Level (E.core (E.put w' v s').2.1) ∧
    Alike (E.put w v s).2.1 (E.put w' v s').2.1 (E.put w v s).2.2 (E.put w' v s').2.2 rest

/-- Two writers that were opened for the same documents are level, and the same puts and a close
keep them so. Where they write to files, the files hold the same chunks in the end. -/
structure Twins (inflate : Bytes → Option Bytes) (path path' : Text) (v v' : Volume) (w w' : W)
    (s s' : Session) (puts : List V) : Prop where
  level : (E.core w).Level (E.core w')
  calls : E.Alike w w' s s' puts
  files : v.LeadsToFile path → v'.LeadsToFile path' → ∃ content content',
    (E.finished w s puts).2.2.volume.read path = .bytes content ∧
    (E.finished w' s' puts).2.2.volume.read path' = .bytes content' ∧
    IndexFile.SameChunks inflate (E.core (E.finished w s puts).2.1).header
      (E.core (E.finished w' s' puts).2.1).header content content'

end Run

variable {W V : Type} {E : Encoder W V} {job job' : Job} {Like : W → W → Prop} {w w' : W}
  {s s' : Session}

/-- An encoder whose writers stay abreast. -/
abbrev Paces (E : Encoder W V) (Like : W → W → Prop) : Prop :=
  ∀ job job' : Job, E.Follows (Going job job') (Done job job') Outcome.Quiet
    (fun outcome outcome' => outcome.status = outcome'.status) Like

/-- Writers that are abreast stay so until they are closed; by induction on the puts. -/
theorem Paces.run (paces : E.Paces Like) (puts : List V)
    (h : E.Both (Going job job') Like (w, s) (w', s'))
    (quiet : E.Undisturbed w s puts) (quiet' : E.Undisturbed w' s' puts) :
    E.Alike w w' s s' puts ∧
      (E.core (E.finished w s puts).2.1).Parted job job' (E.core (E.finished w' s' puts).2.1)
        (E.finished w s puts).2.2 (E.finished w' s' puts).2.2 := by
  induction puts generalizing w w' s s' with
  | nil =>
    obtain ⟨status, parted, -⟩ := (paces job job').close h quiet quiet'
    exact ⟨⟨status, parted.level⟩, parted⟩
  | cons v rest ih =>
    obtain ⟨status, ⟨raw, b, abreast⟩, like⟩ := (paces job job').put v h quiet.1 quiet'.1
    obtain ⟨calls, parted⟩ := ih ⟨⟨raw, b, abreast⟩, like⟩ quiet.2 quiet'.2
    exact ⟨⟨status, abreast.level, calls⟩, parted⟩

/-- Two openings whose parameters differ in the version and the compression alone. -/
theorem Paces.twins {core₀ core₀' : ChunkWriter} {path path' : Text} {p p' : Parameters}
    {s₀ s₀' : Session} {z : Deflater} {inflate : Bytes → Option Bytes} (paces : E.Paces Like)
    (puts : List V) (opened : core₀.openBuiltin path p s₀ z = (.ok (), E.core w, s))
    (opened' : core₀'.openBuiltin path' p' s₀' z = (.ok (), E.core w', s'))
    (doc : p.compression = .gzip ∨ p'.compression = .gzip → z.Documented)
    (undone : p.compression = .gzip ∨ p'.compression = .gzip → z.UndoneBy inflate)
    (same : p' = { p with compression := p'.compression, version := p'.version })
    (like : Like w w') (quiet : E.Undisturbed w s puts) (quiet' : E.Undisturbed w' s' puts) :
    E.Twins inflate path path' s₀.volume s₀'.volume w w' s s' puts := by
  obtain ⟨job, opens, left⟩ := ChunkWriter.openBuiltin_steady opened fun gzip => doc (.inl gzip)
  obtain ⟨job', opens', right⟩ := ChunkWriter.openBuiltin_steady opened' fun gzip => doc (.inr gzip)
  have room : job'.capacity = job.capacity := by rw [opens.capacity, opens'.capacity, same]
  have jobs : job.Matches job' := by
    refine ⟨room, by rw [opens.blank, opens'.blank, same]; rfl, fun compression => ?_⟩
    have compression : p'.compression = p.compression := by
      rw [opens.blank, opens'.blank] at compression
      exact compression
    rw [opens.encode, opens'.encode, same, Parameters.encode, Parameters.encode, compression]
  have h : Abreast job job' [] (.new job.capacity) (E.core w) (E.core w') s s' :=
    ⟨jobs, left, room ▸ right⟩
  obtain ⟨calls, parted⟩ := paces.run puts ⟨⟨_, _, h⟩, like⟩ quiet quiet'
  refine ⟨h.level, calls, fun file file' => ?_⟩
  have files := parted.files (opens.undoneBy fun gzip => undone (.inl gzip))
    (opens'.undoneBy fun gzip => undone (.inr gzip)) (opens.isSome file) (opens'.isSome file')
  rwa [opens.path, opens'.path] at files

/-- Two runs of an encoder on writers that were opened for the same documents, of the same size and
as many in a chunk, with the same puts and a close. Whatever the versions and the compressions are,
if neither run is disturbed the writers answer every call alike and store the same chunks. -/
theorem runs_alike :
    (∀ {w₀ w w₀' w' : FixedWriter} {path path' : Text} {compression compression' : Compression}
      {totalDocs docsPerChunk docsPerChunk' entrySize version version' : Int32}
      {s₀ s s₀' s' : Session} {z : Deflater} {inflate : Bytes → Option Bytes}
      (puts : List FixedValue),
      w₀.openAt path compression totalDocs docsPerChunk entrySize version s₀ z = (.ok (), w, s) →
      w₀'.openAt path' compression' totalDocs docsPerChunk' entrySize version' s₀' z =
        (.ok (), w', s') →
      (compression = .gzip ∨ compression' = .gzip → z.Documented) →
      (compression = .gzip ∨ compression' = .gzip → z.UndoneBy inflate) →
      w'.core.header.docsPerChunk = w.core.header.docsPerChunk →
      FixedWriter.encoder.Undisturbed w s puts → FixedWriter.encoder.Undisturbed w' s' puts →
      FixedWriter.encoder.Twins inflate path path' s₀.volume s₀'.volume w w' s s' puts) ∧
    ∀ {w₀ w w₀' w' : VariableWriter} {path path' : Text} {compression compression' : Compression}
      {totalDocs docsPerChunk docsPerChunk' longest version version' : Int32}
      {s₀ s s₀' s' : Session} {z : Deflater} {inflate : Bytes → Option Bytes} (puts : List Bytes),
      w₀.openAt path compression totalDocs docsPerChunk longest version s₀ z = (.ok (), w, s) →
      w₀'.openAt path' compression' totalDocs docsPerChunk' longest version' s₀' z =
        (.ok (), w', s') →
      (compression = .gzip ∨ compression' = .gzip → z.Documented) →
      (compression = .gzip ∨ compression' = .gzip → z.UndoneBy inflate) →
      w'.core.header.docsPerChunk = w.core.header.docsPerChunk →
      VariableWriter.encoder.Undisturbed w s puts → VariableWriter.encoder.Undisturbed w' s' puts →
      VariableWriter.encoder.Twins inflate path path' s₀.volume s₀'.volume w w' s s' puts := by
  constructor
  · intro w₀ w w₀' w' path path' compression compression' totalDocs docsPerChunk docsPerChunk'
      entrySize version version' s₀ s s₀' s' z inflate puts opened opened' doc undone docs quiet quiet'
    have core := FixedWriter.openAt_core opened
    have core' := FixedWriter.openAt_core opened'
    rw [ChunkWriter.openBuiltin_docsPerChunk core, ChunkWriter.openBuiltin_docsPerChunk core'] at docs
    refine Paces.twins (fun job job' => FixedWriter.follows (ChunkWriter.lockstep job job')) puts
      core core' doc undone ?_ trivial quiet quiet'
    simp only [FixedWriter.parameters] at docs ⊢
    rw [docs]
  · intro w₀ w w₀' w' path path' compression compression' totalDocs docsPerChunk docsPerChunk'
      longest version version' s₀ s s₀' s' z inflate puts opened opened' doc undone docs quiet quiet'
    have core := VariableWriter.openAt_core opened
    have core' := VariableWriter.openAt_core opened'
    rw [ChunkWriter.openBuiltin_docsPerChunk core, ChunkWriter.openBuiltin_docsPerChunk core'] at docs
    obtain rfl : docsPerChunk' = docsPerChunk := docs
    refine Paces.twins (fun job job' => VariableWriter.follows (ChunkWriter.lockstep job job')) puts
      core core' doc undone rfl ?_ quiet quiet'
    rw [VariableWriter.openAt_eq opened, VariableWriter.openAt_eq opened']
    exact ⟨rfl, rfl, rfl⟩

/-- A new writer, opened for two numbers in a chunk. -/
def openedPair (compression : Compression) (version : Int32) : Outcome × FixedWriter × Session :=
  FixedWriter.openAt {} [102] compression 2 2 4 version {} .builtin

/-- A new writer, opened for four texts of at most one byte, two in a chunk, in version 3. -/
def openedWide : Outcome × VariableWriter × Session :=
  VariableWriter.openAt {} [102] .passThrough 4 2 1 3 {} .builtin

/-- Two numbers, and one of another width between them. -/
def twoNumbers : List FixedValue := [.int 0x01020304, .long 0, .int 0x05060708]

/-- Two numbers are stored alike in the first version and compressed in the last, and a value of
another width is refused alike. Five texts, one more than there is room for, are refused alike with
tables of both widths. -/
theorem runs_alike_pair :
    FixedWriter.encoder.Twins Zlib.decompress [102] [102] .initial .initial
        (openedPair .passThrough 2).2.1 (openedPair .gzip 5).2.1 (openedPair .passThrough 2).2.2
        (openedPair .gzip 5).2.2 twoNumbers ∧
      VariableWriter.encoder.Twins Zlib.decompress [102] [102] .initial .initial openedTexts.2.1
        openedWide.2.1 openedTexts.2.2 openedWide.2.2 fiveTexts :=
  ⟨runs_alike.1 twoNumbers
      (show FixedWriter.openAt {} [102] .passThrough 2 2 4 2 {} .builtin =
        (.ok (), (openedPair .passThrough 2).2) from rfl)
      (show FixedWriter.openAt {} [102] .gzip 2 2 4 5 {} .builtin =
        (.ok (), (openedPair .gzip 5).2) from rfl)
      (fun _ => Deflater.builtin_documented) (fun _ => Deflater.builtin_undoneBy) rfl (by decide)
      (by decide +kernel),
    runs_alike.2 fiveTexts
      (show VariableWriter.openAt {} [102] .passThrough 4 2 1 2 {} .builtin = (.ok (), openedTexts.2)
        from rfl)
      (show VariableWriter.openAt {} [102] .passThrough 4 2 1 3 {} .builtin = (.ok (), openedWide.2)
        from rfl)
      (fun _ => Deflater.builtin_documented) (fun _ => Deflater.builtin_undoneBy) rfl (by decide)
      (by decide)⟩

end Encoder
end ForwardIndex
