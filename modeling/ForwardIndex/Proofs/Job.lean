import ForwardIndex.Proofs.IndexFile
import ForwardIndex.Proofs.Layout

/-!
# Jobs

A job is a path opened with a compressor that encodes. Its raw chunks determine everything: the
header, the stored chunks and the file with or without its header, what the rules of the format
allow, what a reader makes of the file, and what a close reports.
-/
set_option autoImplicit false
namespace ForwardIndex

/-- As many pieces as there are take no more than as many longest ones. -/
theorem Bytes.length_joined_le {longest : Nat} {pieces : List Bytes}
    (small : ∀ piece ∈ pieces, piece.size ≤ longest) :
    (joined pieces).length ≤ pieces.length * longest := by
  induction pieces with
  | nil => exact Nat.zero_le _
  | cons piece pieces ih =>
    have first := small piece List.mem_cons_self
    have rest := ih fun other among => small other (List.mem_cons_of_mem _ among)
    rw [length_joined_cons, List.length_cons, Nat.succ_mul]
    omega

/-- Where the chunks of raw chunks start, in a file with a header. An encoding gives the stored form
of a raw chunk by its number. -/
def Header.chunkStarts (h : Header) (encode : Nat → Bytes → Bytes) (raw : List Bytes) : List Nat :=
  Layout.starts h.size (raw.mapIdx encode)

/-- What is in a file behind the room for a header: the chunks of raw chunks back to back. -/
def Header.Stores (h : Header) (encode : Nat → Bytes → Bytes) (raw : List Bytes)
    (content : Bytes) : Prop :=
  content.toText.drop h.size = Bytes.joined (raw.mapIdx encode)

/-- The encoding of the chunks of a file with parameters. -/
def Parameters.encode (p : Parameters) (z : Deflater) : Nat → Bytes → Bytes :=
  Compressor.encoding z p.compression p.chunkSize.toInt.toNat

/-! ## Files without a header -/

/-- What is in a file whose header is still to come: nothing before the first chunk, and then zeros
in the room of the header. -/
def Layout.unheaded (size : Nat) (chunks : List Bytes) : Text :=
  if chunks = [] then [] else List.replicate size 0 ++ Bytes.joined chunks

namespace Layout

theorem drop_unheaded (size : Nat) (chunks : List Bytes) :
    (unheaded size chunks).drop size = Bytes.joined chunks := by
  unfold unheaded
  split
  · next none => simp [none]
  · exact List.drop_left' List.length_replicate

theorem take_unheaded (size : Nat) (chunks : List Bytes) :
    ∀ byte ∈ (unheaded size chunks).take size, byte = 0 := by
  unfold unheaded
  split
  · simp
  · rw [List.take_left' List.length_replicate]
    exact fun byte among => List.eq_of_mem_replicate among

/-- A chunk that is written at the end is one more. -/
theorem patch_unheaded {size : Nat} {chunks : List Bytes} {content out : Bytes}
    (view : content.toText = unheaded size chunks) (some : out.size ≠ 0) :
    (content.patch (size + (Bytes.joined chunks).length) out).toText =
      unheaded size (chunks ++ [out]) := by
  have length : content.size = (unheaded size chunks).length := by
    rw [← view, Bytes.length_toText]
  have more : unheaded size (chunks ++ [out]) =
      List.replicate size 0 ++ (Bytes.joined chunks ++ out.toText) := by
    simp [unheaded, Bytes.joined_concat]
  rw [more, Bytes.patch, if_neg some, Bytes.toText_writeAt, view]
  by_cases none : chunks = []
  · rw [unheaded, if_pos none] at length ⊢
    simp [none, length]
  · rw [unheaded, if_neg none] at length ⊢
    have whole : (List.replicate size 0 ++ Bytes.joined chunks).length =
        size + (Bytes.joined chunks).length := by simp
    rw [length, whole, Nat.sub_self, List.replicate_zero, List.append_nil,
      List.take_of_length_le (Nat.le_of_eq whole), List.drop_of_length_le (by omega),
      List.append_nil, List.append_assoc]

end Layout

/-! ## Jobs -/

/-- What a writer works on from its opening until its end. -/
structure Job where
  path : Text
  /-- The place of its file, if the path leads to one. -/
  place : Option Place
  /-- The volume right after the opening. -/
  start : Volume
  /-- The header before the first chunk. -/
  blank : Header
  /-- The room for a raw chunk. -/
  capacity : Nat
  compressor : Compressor
  encode : Nat → Bytes → Bytes
  small : capacity ≤ Layout.maxInt32
  encodes : compressor.Encodes capacity encode
  regular : ∀ p ∈ place, start.find path = .ok p ∧ ∃ content, start.node? p = some (.file content)

namespace Job

/-- The writes to the file of the job go well. -/
structure Calm (job : Job) : Prop where
  file : job.place.isSome
  writes : job.start.WritesGoOn

/-- The chunks in the file for raw chunks. -/
def stored (job : Job) (raw : List Bytes) : List Bytes := raw.mapIdx job.encode

/-- Where the chunk after raw chunks goes. -/
def cursor (job : Job) (raw : List Bytes) : Nat :=
  job.blank.size + (Bytes.joined (job.stored raw)).length

/-- The header for raw chunks. -/
def header (job : Job) (raw : List Bytes) : Header :=
  { job.blank with offsets := (job.blank.chunkStarts job.encode raw).toArray }

/-- The file of raw chunks whose header is still to come. -/
def unheaded (job : Job) (raw : List Bytes) : Text :=
  Layout.unheaded job.blank.size (job.stored raw)

/-- The file of raw chunks. -/
def contents (job : Job) (raw : List Bytes) : Text :=
  (job.header raw).toBytes.toText ++ Bytes.joined (job.stored raw)

/-- What a close reports behind raw chunks: all declared chunks must be there. -/
def closing (job : Job) (raw : List Bytes) : Outcome :=
  if raw.length < job.blank.capacity then .error (.closedShort raw.length job.blank.chunkCount)
  else .ok ()

theorem closing_ok {job : Job} {raw : List Bytes} (all : raw.length = job.blank.capacity) :
    job.closing raw = .ok () :=
  if_neg (by omega)

@[simp] theorem length_stored (job : Job) (raw : List Bytes) :
    (job.stored raw).length = raw.length := List.length_mapIdx

theorem stored_append (job : Job) (raw : List Bytes) (chunk : Bytes) :
    job.stored (raw ++ [chunk]) = job.stored raw ++ [job.encode raw.length chunk] :=
  List.mapIdx_concat

theorem recorded_header (job : Job) (raw : List Bytes) :
    (job.header raw).recorded = raw.length := by
  simp [Header.recorded, header, Header.chunkStarts]

/-- The most that a stored chunk takes. -/
theorem size_encode_le (job : Job) (call : Nat) {chunk : Bytes} (h : chunk.size ≤ job.capacity) :
    (job.encode call chunk).size ≤ 2 ^ 31 + 2 ^ 20 :=
  (job.encodes.size_le call h).trans job.encodes.bound_le

theorem length_joined_stored_le (job : Job) {raw : List Bytes}
    (h : ∀ chunk ∈ raw, chunk.size ≤ job.capacity) :
    (Bytes.joined (job.stored raw)).length ≤ raw.length * (2 ^ 31 + 2 ^ 20) := by
  rw [← job.length_stored raw]
  refine Bytes.length_joined_le fun chunk among => ?_
  obtain ⟨call, within, rfl⟩ := List.mem_mapIdx.1 among
  exact job.size_encode_le call (h _ (List.getElem_mem within))

/-! ## What the format allows -/

/-- Behind raw chunks the header has a place for one more, and its table can tell its start. -/
def HasRoom (job : Job) (raw : List Bytes) : Prop :=
  raw.length < job.blank.capacity ∧ job.blank.checkOffset (job.cursor raw) = .ok ()

/-- The rules of the format let raw chunks be stored: they fit the buffer, the header declares them,
and in version 2 the table can tell where each starts. -/
structure Allows (job : Job) (raw : List Bytes) : Prop where
  small : ∀ chunk ∈ raw, chunk.size ≤ job.capacity
  within : raw.length ≤ job.blank.capacity
  reaches : job.blank.version = 2 →
    ∀ start ∈ job.blank.chunkStarts job.encode raw, start ≤ Layout.maxInt32

theorem allows_nil (job : Job) : job.Allows [] := ⟨nofun, Nat.zero_le _, fun _ => nofun⟩

/-- Where more chunks are allowed there is room for the next one. -/
theorem Allows.next {job : Job} {raw after : List Bytes} {chunk : Bytes}
    (h : job.Allows (raw ++ chunk :: after)) : job.HasRoom raw := by
  have within := h.within
  rw [List.length_append, List.length_cons] at within
  refine ⟨by omega, if_neg ?_⟩
  rintro ⟨narrow, far⟩
  refine Nat.not_le.2 far (h.reaches (job.blank.offsetWidth_eq_four.1 narrow) _ ?_)
  rw [Header.chunkStarts, List.mapIdx_append, Layout.starts_append, List.mapIdx_cons, Layout.starts]
  exact List.mem_append_right _ List.mem_cons_self

/-- Where there is room one more chunk is allowed. -/
theorem Allows.concat {job : Job} {raw : List Bytes} (h : job.Allows raw) (room : job.HasRoom raw)
    {chunk : Bytes} (small : chunk.size ≤ job.capacity) : job.Allows (raw ++ [chunk]) where
  small := List.forall_mem_append.2 ⟨h.small, List.forall_mem_singleton.2 small⟩
  within := by
    rw [List.length_append, List.length_singleton]
    exact room.1
  reaches narrow := by
    rw [Header.chunkStarts, List.mapIdx_concat, Layout.starts_concat]
    exact List.forall_mem_append.2 ⟨h.reaches narrow,
      List.forall_mem_singleton.2 (Header.checkOffset_ok room.2 narrow)⟩

section Allows

variable {job : Job} {raw : List Bytes} (h : job.Allows raw)
include h

/-- As many chunks as a header can declare stay far below the greatest offset. -/
theorem Allows.cursor_lt : job.cursor raw + 2 ^ 32 < Volume.offsetBound := by
  have chunks := job.length_joined_stored_le h.small
  have most := job.blank.capacity_lt
  have within := h.within
  have fewer : raw.length * (2 ^ 31 + 2 ^ 20) ≤ (2 ^ 31 - 1) * (2 ^ 31 + 2 ^ 20) :=
    Nat.mul_le_mul_right _ (by omega)
  have size := job.blank.size_le
  unfold cursor Volume.offsetBound
  omega

theorem Allows.fits : (job.header raw).Fits := by
  intro start hs
  have hs : start ∈ job.blank.chunkStarts job.encode raw := by simpa [header] using hs
  have bound := h.cursor_lt
  have most : start ≤ job.cursor raw := Layout.le_of_mem_starts hs
  have same : (job.header raw).offsetWidth = job.blank.offsetWidth := rfl
  rw [same]
  obtain four | eight := job.blank.offsetWidth_cases
  · have := h.reaches (job.blank.offsetWidth_eq_four.1 four) start hs
    rw [four]
    unfold Layout.maxInt32 at this
    omega
  · rw [eight]
    unfold Volume.offsetBound at bound
    omega

/-- The header takes the same room however many of the declared chunks are there. -/
theorem Allows.length_header : (job.header raw).toBytes.toText.length = job.blank.size :=
  Header.size_toBytes _ ((Nat.le_of_eq (job.recorded_header raw)).trans h.within)

/-- The file of raw chunks ends where the next chunk goes. -/
theorem Allows.length_contents : (job.contents raw).length = job.cursor raw := by
  rw [contents, List.length_append, h.length_header, cursor]

/-- The stored chunks follow the header. -/
theorem Allows.drop_contents :
    (job.contents raw).drop job.blank.size = Bytes.joined (job.stored raw) :=
  List.drop_left' h.length_header

theorem Allows.stores {content : Bytes} (view : content.toText = job.contents raw) :
    job.blank.Stores job.encode raw content := by
  rw [Header.Stores, view, h.drop_contents]
  rfl

end Allows

theorem stores_of_unheaded {job : Job} {raw : List Bytes} {content : Bytes}
    (view : content.toText = job.unheaded raw) : job.blank.Stores job.encode raw content := by
  rw [Header.Stores, view, unheaded, Layout.drop_unheaded]
  rfl

/-! ## Reading -/

/-- A reader that inflates with a function gets raw chunks back from their stored form. -/
def UndoneBy (job : Job) (inflate : Bytes → Option Bytes) : Prop :=
  ∀ f : IndexFile, f.compression = job.blank.compression.code → ∀ call chunk,
    chunk.size ≤ job.capacity → f.rawChunk? inflate (job.encode call chunk) = some chunk

/-- A file read as that of a job with raw chunks. -/
structure ReadsAs (job : Job) (inflate : Bytes → Option Bytes) (raw : List Bytes) (f : IndexFile) :
    Prop where
  version : f.version = job.blank.version
  chunkCount : f.chunkCount = job.blank.chunkCount
  docsPerChunk : f.docsPerChunk = job.blank.docsPerChunk
  entrySize : f.entrySize = job.blank.entrySize
  totalDocs : f.totalDocs = job.blank.totalDocs
  chunks : f.rawChunks? inflate = some raw

section Undone

variable {job : Job} {inflate : Bytes → Option Bytes} (undone : job.UndoneBy inflate)
  {raw : List Bytes}
include undone

/-- Stored chunks are read as the raw chunks. -/
theorem UndoneBy.rawChunks? {f : IndexFile} (type : f.compression = job.blank.compression.code)
    (small : ∀ chunk ∈ raw, chunk.size ≤ job.capacity) (chunks : f.storedChunks = job.stored raw) :
    f.rawChunks? inflate = some raw := by
  rw [IndexFile.rawChunks?, chunks, stored, List.mapIdx_eq_zipIdx_map, List.mapM_map]
  refine (IndexFile.mapM_some fun x among => ?_).trans (congrArg some (List.zipIdx_map_fst 0 raw))
  exact undone f type x.2 x.1 (small _ (List.fst_mem_of_mem_zipIdx among))

/-- Files that differ in the last raw chunk differ. -/
theorem UndoneBy.contents_inj {chunk other : Bytes} (allows : job.Allows (raw ++ [chunk]))
    (allows' : job.Allows (raw ++ [other]))
    (h : job.contents (raw ++ [chunk]) = job.contents (raw ++ [other])) : chunk = other := by
  have bodies := congrArg (List.drop job.blank.size) h
  rw [allows.drop_contents, allows'.drop_contents, job.stored_append, job.stored_append,
    Bytes.joined_concat, Bytes.joined_concat] at bodies
  have same := Bytes.ext (List.append_cancel_left bodies)
  let f : IndexFile := ⟨0, 0, 0, 0, 0, job.blank.compression.code, 0, [], ByteArray.empty⟩
  have decoded := undone f rfl raw.length chunk (allows.small chunk (by simp))
  rw [same, undone f rfl raw.length other (allows'.small other (by simp))] at decoded
  exact (Option.some.inj decoded).symm

/-- The file of all declared chunks is read as those chunks. -/
theorem UndoneBy.parse_contents {content : Bytes} (allows : job.Allows raw)
    (all : raw.length = job.blank.capacity) (view : content.toText = job.contents raw) :
    ∃ f, IndexFile.parse content = some f ∧ job.ReadsAs inflate raw f := by
  have recorded : (job.header raw).recorded = (job.header raw).capacity :=
    (job.recorded_header raw).trans all
  have table : (job.header raw).table = Layout.starts job.blank.size (job.stored raw) := by
    rw [Header.table, recorded, Nat.sub_self, List.replicate_zero, List.append_nil]
    rfl
  have least : job.blank.size ≤ content.size := by
    rw [← Bytes.length_toText, view, contents, List.length_append, allows.length_header]
    exact Nat.le_add_right _ _
  refine ⟨_, IndexFile.parse_header (Nat.le_of_eq recorded) allows.fits view, rfl, rfl, rfl, rfl,
    rfl, undone.rawChunks? rfl allows.small ?_⟩
  rw [IndexFile.storedChunks, table]
  exact IndexFile.slices_starts least (allows.stores view)

end Undone

/-! ## The end of a job -/

/-- A job that is over: what stands in its file, and nothing else has changed. -/
structure Ended (job : Job) (raw : List Bytes) (text : Text) (w : ChunkWriter) (v : Volume) :
    Prop where
  closed : w.stage = .closed
  header : w.header = job.header raw
  cursor : w.cursor = job.cursor raw
  allows : job.Allows raw
  nonempty : ∀ chunk ∈ raw, chunk.size ≠ 0
  file : ∀ p ∈ job.place, ∃ content, v.node? p = some (.file content) ∧ content.toText = text
  others : ∀ p ∈ job.place, ∀ q, q ≠ p → v.node? q = job.start.node? q

/-- A job that is over with its chunks in the file, behind the header that tells of them. -/
def Finished (job : Job) (raw : List Bytes) (w : ChunkWriter) (v : Volume) : Prop :=
  job.Ended raw (job.contents raw) w v

section Ended

variable {job : Job} {raw : List Bytes} {text : Text} {w : ChunkWriter} {v : Volume}

/-- The path reads as the file. -/
theorem Ended.read (h : job.Ended raw text w v) (file : job.place.isSome) :
    ∃ content, v.read job.path = .bytes content ∧ content.toText = text := by
  obtain ⟨p, place⟩ := Option.isSome_iff_exists.1 file
  obtain ⟨found, old, regular⟩ := job.regular p place
  obtain ⟨content, node, view⟩ := h.file p place
  exact ⟨content, Volume.read_changed found regular node (h.others p place), view⟩

theorem Ended.find (h : job.Ended raw text w v) {p : Place} (place : p ∈ job.place) :
    v.find job.path = .ok p := by
  obtain ⟨found, old, regular⟩ := job.regular p place
  obtain ⟨content, node, -⟩ := h.file p place
  rw [(Volume.touches_of_nodes regular node (h.others p place)).find_eq, found]

end Ended

/-- What closing with raw chunks comes to: the file is finished unless the system fails. -/
structure Closed (job : Job) (raw : List Bytes) (outcome : Outcome) (w : ChunkWriter) (v : Volume) :
    Prop where
  reports : outcome = job.closing raw ∨ ∃ e, outcome = .error e ∧ e.kind = .io
  finished : outcome = job.closing raw → job.Finished raw w v
  calm : job.Calm → job.Finished raw w v
  closes : job.Calm → job.start.Closes → outcome = job.closing raw

/-- A close that the system fails, which it does only where something befalls the file. -/
theorem Closed.of_io {job : Job} {raw : List Bytes} {e : Failure} {w : ChunkWriter} {v : Volume}
    (io : e.kind = .io) (disturbed : ¬ job.Calm) : job.Closed raw (.error e) w v where
  reports := .inr ⟨e, rfl, io⟩
  finished same := by
    unfold closing at same
    split at same <;> cases same
    cases io
  calm still := absurd still disturbed
  closes still := absurd still disturbed

/-- A close that succeeds has stored all declared chunks. -/
theorem Closed.of_ok {job : Job} {raw : List Bytes} {w : ChunkWriter} {v : Volume}
    (h : job.Closed raw (.ok ()) w v) (within : raw.length ≤ job.blank.capacity) :
    raw.length = job.blank.capacity ∧ job.Finished raw w v := by
  obtain same | ⟨e, failed, -⟩ := h.reports
  · refine ⟨?_, h.finished same⟩
    unfold closing at same
    split at same
    · cases same
    · omega
  · cases failed

end Job

end ForwardIndex
