import ForwardIndex.Proofs.Encoder

/-!
# Writing and reading fixed-width values

Values put one after the other fill windows of as many documents as a chunk holds. A window that is
full is stored at once; the rest is in the buffer until the writer is closed. So the raw chunks of
the file are the windows, and the reader gets the values back.
-/
set_option autoImplicit false
namespace ForwardIndex.FixedWriter

open ChunkWriter (Steady)
open Encoder (Fills)

/-- The raw chunk of some values. -/
def rawChunk (values : List FixedValue) : Bytes := Bytes.ofText (values.flatMap FixedValue.bytes)

@[simp] theorem rawChunk_nil : rawChunk [] = ByteArray.empty := rfl

theorem rawChunk_append (values : List FixedValue) (v : FixedValue) :
    rawChunk (values ++ [v]) = rawChunk values ++ Bytes.ofText v.bytes := by
  simp [rawChunk, Bytes.ofText_append]

theorem size_rawChunk {width : Nat} {values : List FixedValue}
    (widths : ∀ v ∈ values, v.width = width) : (rawChunk values).size = values.length * width := by
  rw [rawChunk, Bytes.size_ofText]
  exact Text.length_pieces fun v hv => v.length_bytes.trans (widths v hv)

/-- A buffer with values in it is not empty. -/
theorem isEmpty_rawChunk {width : Nat} (width_pos : 0 < width) {values : List FixedValue}
    (widths : ∀ v ∈ values, v.width = width) (some : values ≠ []) {b : Buffer}
    (filled : b.filled = rawChunk values) : b.isEmpty = false := by
  have := Nat.mul_pos (List.length_pos_iff.2 some) width_pos
  rw [Buffer.isEmpty_eq, filled, size_rawChunk widths]
  exact decide_eq_false (Nat.ne_of_gt this)

/-! ## Filling -/

/-- A job whose chunks hold so many values of a width. -/
structure Shape (job : Job) (width docs : Nat) : Prop where
  capacity : job.capacity = docs * width
  entrySize : job.blank.entrySize.toInt = width
  width_pos : 0 < width
  docs_pos : 0 < docs

/-- Full windows are stored, and the values after them are in the buffer. -/
structure Filling (job : Job) (width docs : Nat) (full : List (List FixedValue))
    (pending : List FixedValue) (w : FixedWriter) (s : Session) : Prop where
  lengths : ∀ g ∈ full, g.length = docs
  short : pending.length < docs
  widths : ∀ v ∈ pending, v.width = width
  steady : ∃ b, Steady job (full.map rawChunk) b w.core s ∧ b.filled = rawChunk pending

section Filling

variable {job : Job} {width docs : Nat} {full : List (List FixedValue)}
  {pending : List FixedValue} {w : FixedWriter} {s : Session}

/-- A value goes behind the values in the buffer. -/
theorem Filling.append (shape : Shape job width docs) (h : Filling job width docs full pending w s)
    {v : FixedValue} (hv : v.width = width) :
    ∃ b core, w.core.onBuffer (·.append (Bytes.ofText v.bytes)) = (true, core) ∧
      Steady job (full.map rawChunk) b core s ∧ b.filled = rawChunk (pending ++ [v]) := by
  obtain ⟨b, steady, filled⟩ := h.steady
  have size : b.position = pending.length * width := by
    rw [← b.size_filled, filled, size_rawChunk h.widths]
  have room : (pending.length + 1) * width ≤ docs * width := Nat.mul_le_mul_right _ h.short
  rw [Nat.succ_mul] at room
  have fits : b.position + (Bytes.ofText v.bytes).size ≤ b.capacity := by
    rw [size, Bytes.size_ofText, v.length_bytes, hv, steady.room, shape.capacity]
    exact room
  obtain ⟨b', append, filled', capacity⟩ := Buffer.append_ok fits
  obtain ⟨core, stored, steady'⟩ := steady.onBuffer (·.append (Bytes.ofText v.bytes))
    (by rw [append, capacity])
  rw [append] at stored steady'
  exact ⟨b', core, stored, steady', by rw [filled', filled, rawChunk_append]⟩

/-- A put of the declared width on a writer that is filling is an append, and a flush of the full
buffer. -/
theorem Filling.put_eq (shape : Shape job width docs)
    (h : Filling job width docs full pending w s) {v : FixedValue} (hv : v.width = width) :
    ∃ b core, Steady job (full.map rawChunk) b core s ∧ b.filled = rawChunk (pending ++ [v]) ∧
      w.put v s =
        if pending.length + 1 = docs then
          ((core.flush s).1, ⟨(core.flush s).2.1⟩, (core.flush s).2.2)
        else (.ok (), ⟨core⟩, s) := by
  obtain ⟨b, core, stored, steady, filled⟩ := h.append shape hv
  obtain ⟨_, before, _⟩ := h.steady
  have isOpen : w.core.isOpen := before.isOpen
  have widths : ∀ u ∈ pending ++ [v], u.width = width :=
    List.forall_mem_append.2 ⟨h.widths, by simpa using hv⟩
  have entry : w.core.header.entrySize.toInt = v.width := by
    rw [before.header, hv]
    exact shape.entrySize
  have isFull : core.buffer.isFull = decide (pending.length + 1 = docs) := by
    rw [steady.buffer, Buffer.isFull, ← b.size_filled, filled, size_rawChunk widths, steady.room,
      shape.capacity, List.length_append, List.length_singleton]
    exact decide_eq_decide.2 (Nat.mul_left_inj (Nat.ne_of_gt shape.width_pos))
  refine ⟨b, core, steady, filled, ?_⟩
  rw [put, isOpen, stored]
  simp only [Bool.not_true, Bool.false_eq_true, if_false, entry, ne_eq, not_true, isFull,
    decide_eq_true_eq]

/-- A put that is taken makes the values in the buffer more, or stores the window it completes. -/
theorem Filling.took (shape : Shape job width docs) (h : Filling job width docs full pending w s)
    {v : FixedValue} (hv : v.width = width) {w' : FixedWriter} {s' : Session}
    (ok : w.put v s = (.ok (), w', s')) :
    ∃ full' pending', Filling job width docs full' pending' w' s' ∧
      full'.flatten ++ pending' = full.flatten ++ pending ++ [v] := by
  obtain ⟨b, core, steady, filled, put⟩ := h.put_eq shape hv
  have length : (pending ++ [v]).length = pending.length + 1 := List.length_append
  rw [put] at ok
  by_cases complete : pending.length + 1 = docs
  · rw [if_pos complete] at ok
    rcases flush : core.flush s with ⟨outcome, core', s''⟩
    rw [flush] at ok
    cases ok
    obtain ⟨-, -, steady'⟩ := steady.flush_ok flush
    refine ⟨full ++ [pending ++ [v]], [], ⟨?_, shape.docs_pos, by simp, _, ?_,
      Buffer.filled_clear b⟩, by simp⟩
    · exact List.forall_mem_append.2 ⟨h.lengths, by simpa using complete⟩
    · rw [List.map_append, List.map_singleton, ← filled]
      exact steady'
  · have short := h.short
    rw [if_neg complete] at ok
    cases ok
    exact ⟨full, pending ++ [v], ⟨h.lengths, by omega,
      List.forall_mem_append.2 ⟨h.widths, by simpa using hv⟩, b, steady, filled⟩, by simp⟩

/-- A put is taken where nothing befalls the file and there is room for the window it completes. -/
theorem Filling.takes (shape : Shape job width docs) (h : Filling job width docs full pending w s)
    {v : FixedValue} (hv : v.width = width) (calm : job.Calm)
    (room : pending.length + 1 = docs → job.HasRoom (full.map rawChunk)) :
    (w.put v s).1 = .ok () := by
  obtain ⟨b, core, steady, filled, put⟩ := h.put_eq shape hv
  rw [put]
  by_cases complete : pending.length + 1 = docs
  · have some : b.isEmpty = false := isEmpty_rawChunk shape.width_pos
      (List.forall_mem_append.2 ⟨h.widths, by simpa using hv⟩) (by simp) filled
    obtain ⟨core', s', flush, -⟩ := steady.flush_calm calm some (room complete)
    rw [if_pos complete, flush]
  · rw [if_neg complete]

/-- With what is in the buffer the windows are those of all values. -/
theorem Filling.filledUp (shape : Shape job width docs)
    (h : Filling job width docs full pending w s) {b : Buffer}
    (filled : b.filled = rawChunk pending) :
    ChunkWriter.filledUp (full.map rawChunk) b =
      Layout.chunked docs rawChunk (full.flatten ++ pending) := by
  rw [Layout.chunked_append shape.docs_pos h.lengths]
  by_cases none : pending = []
  · have empty : b.isEmpty := by
      rw [Buffer.isEmpty_eq, filled, none]
      rfl
    rw [ChunkWriter.filledUp_empty empty, none, Layout.chunked_nil shape.docs_pos, List.append_nil]
  · rw [ChunkWriter.filledUp_some (isEmpty_rawChunk shape.width_pos h.widths none filled), filled,
      Layout.chunked_of_short none (Nat.le_of_lt h.short)]

/-- Closing stores the values that are left. -/
theorem Filling.close (shape : Shape job width docs) (h : Filling job width docs full pending w s)
    (allows : job.Allows (Layout.chunked docs rawChunk (full.flatten ++ pending))) :
    job.Closed (Layout.chunked docs rawChunk (full.flatten ++ pending)) (w.close s).1
      (w.close s).2.1.core (w.close s).2.2.volume := by
  obtain ⟨b, steady, filled⟩ := h.steady
  rw [← h.filledUp shape filled] at allows ⊢
  exact steady.close (steady.allows_filledUp.1 allows)

/-- A close that succeeds was allowed to store them. -/
theorem Filling.closed (shape : Shape job width docs) (h : Filling job width docs full pending w s)
    (ok : (w.close s).1 = .ok ()) :
    job.Allows (Layout.chunked docs rawChunk (full.flatten ++ pending)) := by
  obtain ⟨b, steady, filled⟩ := h.steady
  rw [← h.filledUp shape filled]
  exact steady.allows_filledUp.2 (steady.close_ok ok)

end Filling

/-- The windows stored and the values in the buffer are these values. -/
def Filled (job : Job) (width docs : Nat) (values : List FixedValue) (w : FixedWriter)
    (s : Session) : Prop :=
  ∃ full pending, Filling job width docs full pending w s ∧ full.flatten ++ pending = values

theorem fills {job : Job} {width docs : Nat} (shape : Shape job width docs) :
    Fills encoder (·.width = width) rawChunk job docs (Filled job width docs) where
  took h hv ok := by
    obtain ⟨full, pending, filling, rfl⟩ := h
    exact filling.took shape hv ok
  takes {_ rest w s v} calm h hv allows := by
    obtain ⟨full, pending, filling, rfl⟩ := h
    refine filling.takes shape hv calm fun complete => ?_
    have length : (pending ++ [v]).length = docs := by simpa using complete
    rw [List.append_assoc, List.append_cons pending, Layout.chunked_append shape.docs_pos
      filling.lengths, Layout.chunked_cons shape.docs_pos length] at allows
    exact allows.next
  close h allows := by
    obtain ⟨full, pending, filling, rfl⟩ := h
    exact filling.close shape allows
  closed h ok := by
    obtain ⟨full, pending, filling, rfl⟩ := h
    exact filling.closed shape ok

/-! ## Opening -/

section Opening

variable {path : Text} {compression : Compression}
  {totalDocs docsPerChunk entrySize version : Int32} {z : Deflater}

/-- A job that was opened has chunks of so many values, and not of none. -/
theorem shape_of_opens {job : Job} {v : Volume}
    (opens : job.Opens path (parameters compression totalDocs docsPerChunk entrySize version) z v) :
    Shape job entrySize.toNatClampNeg job.blank.docsPerChunk.toNatClampNeg := by
  have admitted := opens.admitted
  have positive := admitted.chunkSize_pos
  obtain ⟨d, hd⟩ := Int.eq_ofNat_of_zero_le (Int.le_of_lt admitted.docs_pos)
  obtain ⟨e, he⟩ := Int.eq_ofNat_of_zero_le (show 0 ≤ entrySize.toInt from admitted.entrySize)
  have docs : job.blank.docsPerChunk.toNatClampNeg = d := by
    rw [← Int32.toNat_toInt, opens.blank]
    exact (congrArg Int.toNat hd).trans (Int.toNat_natCast d)
  have width : entrySize.toNatClampNeg = e := by
    rw [← Int32.toNat_toInt, he, Int.toNat_natCast]
  have size : (parameters compression totalDocs docsPerChunk entrySize version).chunkSize.toInt =
      (e * d : Nat) := by
    refine (Layout.toInt_fixedChunkSize _ _).trans ?_
    rw [he, Int.natCast_mul]
    exact congrArg _ hd
  have capacity := opens.capacity
  rw [size] at capacity positive
  have room : 0 < e * d := Int.natCast_pos.1 positive
  rw [docs, width]
  refine ⟨?_, ?_, Nat.pos_of_mul_pos_right room, Nat.pos_of_mul_pos_left room⟩
  · rw [capacity, Int.toNat_natCast, Nat.mul_comm]
  · rw [opens.blank]
    exact he

variable {w₀ w : FixedWriter} {s₀ s : Session}

/-- A writer that is opened has a job whose windows are empty. -/
theorem openAt_filling
    (opened : w₀.openAt path compression totalDocs docsPerChunk entrySize version s₀ z =
      (.ok (), w, s))
    (doc : compression = .gzip → z.Documented) :
    ∃ job : Job,
      job.Opens path (parameters compression totalDocs docsPerChunk entrySize version) z s₀.volume ∧
      Filling job entrySize.toNatClampNeg job.blank.docsPerChunk.toNatClampNeg [] [] w s := by
  obtain ⟨job, opens, steady⟩ := ChunkWriter.openBuiltin_steady (openAt_core opened) doc
  have shape := shape_of_opens opens
  exact ⟨job, opens, by simp, shape.docs_pos, by simp, _, steady, by simp⟩

/-- From version 3 on a chunk is opened for a power of two of values. -/
theorem docs_eq_two_pow
    (opened : w₀.openAt path compression totalDocs docsPerChunk entrySize version s₀ z =
      (.ok (), w, s))
    (later : 3 ≤ version) :
    ∃ k, (Layout.roundedDocs version docsPerChunk).toNatClampNeg = 2 ^ k := by
  have small : ¬ maxRoundable < docsPerChunk := fun large => by
    rw [openAt, if_pos ⟨large, later⟩] at opened
    cases opened
  obtain ⟨e, refused⟩ | ⟨c, check, -⟩ := w₀.core.openBuiltin_cases path
    (parameters compression totalDocs docsPerChunk entrySize version) s₀ z
  · cases (openAt_core opened).symm.trans refused
  exact Layout.roundedDocs_eq_two_pow later (Int32.le_iff_toInt_le.1 (Int32.not_lt.1 small))
    (Parameters.check_ok check).docs_pos

end Opening

/-! ## Reading -/

/-- A raw chunk is cut into the forms of its values. -/
theorem cut?_rawChunk {width : Nat} (positive : 0 < width) {values : List FixedValue}
    (widths : ∀ v ∈ values, v.width = width) :
    IndexFile.cut? width (rawChunk values).toText = some (values.map FixedValue.bytes) := by
  have length : (rawChunk values).toText.length = values.length * width := size_rawChunk widths
  unfold IndexFile.cut?
  rw [if_neg (Nat.ne_of_gt positive), length, Nat.mul_mod_left, if_pos rfl,
    Nat.mul_div_cancel _ positive]
  congr 1
  apply List.ext_getElem?
  intro i
  rw [List.getElem?_map, List.getElem?_map]
  by_cases within : i < values.length
  · have piece := Text.piece (fun v hv => v.length_bytes.trans (widths v hv))
      (List.getElem?_eq_getElem within) []
    rw [List.append_nil] at piece
    rw [List.getElem?_range within, List.getElem?_eq_getElem within, Option.map_some,
      Option.map_some, rawChunk, Bytes.toText_ofText, piece]
  · rw [List.getElem?_eq_none (by simpa using within),
      List.getElem?_eq_none (by simpa using within)]
    rfl

/-- The reader gets the forms of all values from the raw chunks. -/
theorem fixedEntries?_chunked {f : IndexFile} {inflate : Bytes → Option Bytes} {docs : Nat}
    {values : List FixedValue} (docs_pos : 0 < docs) (width_pos : 0 < f.entrySize.toNatClampNeg)
    (widths : ∀ v ∈ values, v.width = f.entrySize.toNatClampNeg)
    (count : f.totalDocs.toInt = values.length)
    (chunks : f.rawChunks? inflate = some (Layout.chunked docs rawChunk values)) :
    f.fixedEntries? inflate = some (values.map FixedValue.bytes) := by
  have pieces : (Layout.chunked docs rawChunk values).mapM
      (fun c => IndexFile.cut? f.entrySize.toNatClampNeg c.toText) =
        some ((Layout.groups docs values).map (List.map FixedValue.bytes)) := by
    rw [Layout.chunked, List.mapM_map]
    exact IndexFile.mapM_some fun g hg =>
      cut?_rawChunk width_pos fun v hv => widths v (Layout.mem_of_mem_groups hg hv)
  have entries : ((Layout.groups docs values).map (List.map FixedValue.bytes)).flatten =
      values.map FixedValue.bytes := by
    rw [← List.map_flatten, Layout.flatten_groups docs_pos]
  unfold IndexFile.fixedEntries?
  rw [chunks]
  simp only [Option.bind_eq_bind, Option.bind_some, pieces, entries, List.length_map, count,
    if_true]
  rfl

/-- A document is found in its chunk by the remainder of its number. -/
theorem slice_chunked {docs width : Nat} (positive : 0 < docs) {values : List FixedValue}
    (widths : ∀ v ∈ values, v.width = width) {i : Nat} {v : FixedValue} (h : values[i]? = some v) :
    ∃ chunk, (Layout.chunked docs rawChunk values)[i / docs]? = some chunk ∧
      chunk.slice (i % docs * width) (i % docs * width + width) = Bytes.ofText v.bytes := by
  obtain ⟨g, hg, found⟩ := Layout.groups_getElem? positive h
  have piece := Text.piece (fun u hu => u.length_bytes.trans
    (widths u (Layout.mem_of_mem_groups (List.mem_of_getElem? hg) hu))) found []
  rw [List.append_nil] at piece
  refine ⟨rawChunk g, by rw [Layout.chunked, List.getElem?_map, hg]; rfl, Bytes.ext ?_⟩
  rw [Bytes.toText_slice, Nat.add_sub_cancel_left, rawChunk, Bytes.toText_ofText,
    Bytes.toText_ofText, piece]

/-- Chunks stored as they are hold the values of the column one after the other. -/
theorem joined_chunked {docs : Nat} (positive : 0 < docs) (values : List FixedValue) :
    Bytes.joined (Layout.chunked docs rawChunk values) = values.flatMap FixedValue.bytes := by
  have text : (fun g => (rawChunk g).toText) = fun g => g.flatMap FixedValue.bytes :=
    funext fun g => Bytes.toText_ofText _
  calc Bytes.joined (Layout.chunked docs rawChunk values)
      = (Layout.groups docs values).flatMap fun g => g.flatMap FixedValue.bytes := by
        rw [Bytes.joined, Layout.chunked, List.flatMap_map, text]
    _ = ((Layout.groups docs values).flatMap id).flatMap FixedValue.bytes :=
        List.flatMap_assoc.symm
    _ = values.flatMap FixedValue.bytes := by rw [List.flatMap_id, Layout.flatten_groups positive]

/-! ## Round trip -/

/-- A file is read as a column of values of a width: as a whole, by chunk and remainder, and, where
chunks are stored as they are, by position. -/
structure ReadsBack (inflate : Bytes → Option Bytes) (header : Header) (width : Nat)
    (values : List FixedValue) (content : Bytes) (f : IndexFile) : Prop where
  parsed : IndexFile.parse content = some f
  docsPerChunk : f.docsPerChunk = header.docsPerChunk
  entries : f.fixedEntries? inflate = some (values.map FixedValue.bytes)
  document : ∀ i v, values[i]? = some v →
    ∃ raw chunk, f.rawChunks? inflate = some raw ∧
      raw[i / header.docsPerChunk.toNatClampNeg]? = some chunk ∧
      chunk.slice (i % header.docsPerChunk.toNatClampNeg * width)
        (i % header.docsPerChunk.toNatClampNeg * width + width) = Bytes.ofText v.bytes
  position : header.compression = .passThrough → ∀ i v, values[i]? = some v →
    content.slice (header.size + i * width) (header.size + i * width + width) =
      Bytes.ofText v.bytes

/-- The file of the windows of values is read as the values. -/
theorem readsBack {job : Job} {inflate : Bytes → Option Bytes} {width : Nat}
    {values : List FixedValue} {content : Bytes}
    (shape : Shape job width job.blank.docsPerChunk.toNatClampNeg) (undone : job.UndoneBy inflate)
    (plain : job.blank.compression = .passThrough → ∀ raw, job.stored raw = raw)
    (widths : ∀ v ∈ values, v.width = width) (count : job.blank.totalDocs.toInt = values.length)
    (allows : job.Allows (Layout.chunked job.blank.docsPerChunk.toNatClampNeg rawChunk values))
    (all : (Layout.chunked job.blank.docsPerChunk.toNatClampNeg rawChunk values).length =
      job.blank.capacity)
    (view : content.toText =
      job.contents (Layout.chunked job.blank.docsPerChunk.toNatClampNeg rawChunk values)) :
    ∃ f, ReadsBack inflate job.blank width values content f := by
  obtain ⟨f, parsed, reads⟩ := undone.parse_contents allows all view
  have entry : f.entrySize.toNatClampNeg = width := by
    rw [reads.entrySize, ← Int32.toNat_toInt, shape.entrySize, Int.toNat_natCast]
  refine ⟨f, parsed, reads.docsPerChunk, ?_, fun i v h => ?_, fun passThrough i v h => ?_⟩
  · refine fixedEntries?_chunked shape.docs_pos ?_ ?_ ?_ reads.chunks
    · rw [entry]
      exact shape.width_pos
    · rwa [entry]
    · rw [reads.totalDocs, count]
  · obtain ⟨chunk, found, slice⟩ := slice_chunked shape.docs_pos widths h
    exact ⟨_, chunk, reads.chunks, found, slice⟩
  · have body : Bytes.joined (job.stored (Layout.chunked job.blank.docsPerChunk.toNatClampNeg
        rawChunk values)) = values.flatMap FixedValue.bytes := by
      rw [plain passThrough, joined_chunked shape.docs_pos]
    have piece := Text.piece (fun u hu => u.length_bytes.trans (widths u hu)) h []
    rw [List.append_nil] at piece
    apply Bytes.ext
    rw [Bytes.toText_slice, Nat.add_sub_cancel_left, view, ← List.drop_drop,
      allows.drop_contents, body, piece, Bytes.toText_ofText]

/-- The raw chunks of values have room in the buffer. -/
theorem Shape.small {job : Job} {width docs : Nat} (shape : Shape job width docs)
    {values : List FixedValue} (widths : ∀ v ∈ values, v.width = width) :
    ∀ chunk ∈ Layout.chunked docs rawChunk values, chunk.size ≤ job.capacity := by
  intro chunk hc
  obtain ⟨g, hg, rfl⟩ := List.mem_map.1 hc
  rw [size_rawChunk fun v hv => widths v (Layout.mem_of_mem_groups hg hv), shape.capacity]
  exact Nat.mul_le_mul_right _ (Layout.length_le_of_mem_groups hg)

section RoundTrip

variable {w₀ w₁ : FixedWriter} {path : Text} {compression : Compression}
  {totalDocs docsPerChunk entrySize version : Int32} {s₀ s₁ : Session}
  {values : List FixedValue} {z : Deflater}

/-- A writer that is opened for as many values of its width is at their start. -/
theorem openAt_starts
    (opened : w₀.openAt path compression totalDocs docsPerChunk entrySize version s₀ z =
      (.ok (), w₁, s₁))
    (doc : compression = .gzip → z.Documented) (count : totalDocs.toNatClampNeg = values.length)
    (widths : ∀ v ∈ values, v.width = entrySize.toNatClampNeg) :
    let params := parameters compression totalDocs docsPerChunk entrySize version
    ∃ job, encoder.Starts job path params z s₀.volume values
      (Layout.chunked params.docsPerChunk.toNatClampNeg rawChunk values) w₁ s₁ := by
  intro params
  obtain ⟨job, opens, filling⟩ := openAt_filling opened doc
  have shape := shape_of_opens opens
  rw [opens.blank] at shape filling
  refine ⟨job, opens, ⟨_, _, _, _, fills shape, ⟨[], [], filling, rfl⟩, widths, rfl⟩,
    shape.small widths, ?_⟩
  rw [opens.blank]
  exact Layout.length_chunked_all opens.admitted.totalDocs shape.docs_pos count rawChunk

/-- A writer that is opened for as many values as are put, on a file where writes and the close go
well, takes all of them and closes; the file is read as the values. In version 2 the starts of the
chunks must fit the table. -/
theorem fixed_round_trip {inflate : Bytes → Option Bytes}
    (opened : w₀.openAt path compression totalDocs docsPerChunk entrySize version s₀ z =
      (.ok (), w₁, s₁))
    (doc : compression = .gzip → z.Documented) (undone : compression = .gzip → z.UndoneBy inflate)
    (file : s₀.volume.LeadsToFile path) (calm : s₀.volume.WritesGoOn)
    (closes : s₀.volume.Closes) (count : totalDocs.toInt = values.length)
    (widths : ∀ v ∈ values, (v.width : Int) = entrySize.toInt) :
    let params := parameters compression totalDocs docsPerChunk entrySize version
    let header := params.header compression
    let docs := header.docsPerChunk.toNatClampNeg
    (version = 2 → ∀ start ∈ header.chunkStarts (params.encode z)
      (Layout.chunked docs rawChunk values), start ≤ Layout.maxInt32) →
    ∃ w₂ s₂ w₃ s₃ content f, w₁.putAll values s₁ = (.ok (), w₂, s₂) ∧
      w₂.close s₂ = (.ok (), w₃, s₃) ∧ s₃.volume.read path = .bytes content ∧
      ReadsBack inflate header entrySize.toNatClampNeg values content f ∧
      (3 ≤ version → ∃ k, docs = 2 ^ k) := by
  intro params header docs reaches
  have widths : ∀ v ∈ values, v.width = entrySize.toNatClampNeg := by
    intro v hv
    rw [← Int32.toNat_toInt, ← widths v hv, Int.toNat_natCast]
  have n : totalDocs.toNatClampNeg = values.length := by
    rw [← Int32.toNat_toInt, count, Int.toNat_natCast]
  obtain ⟨job, start⟩ := openAt_starts opened doc n widths
  obtain ⟨w₂, s₂, w₃, s₃, put, closed, opens, all, finished⟩ :=
    start.succeeds file calm closes reaches
  have blank : job.blank = header := opens.blank
  obtain ⟨content, read, view⟩ := finished.read (opens.isSome file)
  have readsBack := @readsBack job inflate _ values content (shape_of_opens opens)
    (opens.undoneBy undone) (fun plain => opens.stored (by rw [blank] at plain; exact plain)) widths
  rw [blank] at readsBack
  obtain ⟨f, reads⟩ := readsBack count finished.allows (all.trans (by rw [blank])) view
  rw [opens.path] at read
  rw [← putAll_eq] at put
  exact ⟨w₂, s₂, w₃, s₃, content, f, put, closed, read, reads, docs_eq_two_pow opened⟩

end RoundTrip

/-- A new writer, opened for three numbers, two in a compressed chunk. -/
def openedThree : Outcome × FixedWriter × Session := openAt {} [102] .gzip 3 2 4 3 {} .builtin

theorem fixed_round_trip_three :
    ∃ w₂ s₂ w₃ s₃ content f,
      openedThree.2.1.putAll [.int 0x01020304, .int 0x05060708, .int 0x090A0B0C] openedThree.2.2 =
        (.ok (), w₂, s₂) ∧
      w₂.close s₂ = (.ok (), w₃, s₃) ∧ s₃.volume.read [102] = .bytes content ∧
      IndexFile.parse content = some f ∧
      f.fixedEntries? Zlib.decompress = some [[1, 2, 3, 4], [5, 6, 7, 8], [9, 10, 11, 12]] := by
  have opened : openAt {} [102] .gzip 3 2 4 3 {} .builtin = (.ok (), openedThree.2) := rfl
  have file : ({} : Session).volume.LeadsToFile [102] := by
    intro p h
    cases h
  have calm : ({} : Session).volume.WritesGoOn := fun _ => List.forall_mem_nil _
  have count : (3 : Int32).toInt =
      ([.int 0x01020304, .int 0x05060708, .int 0x090A0B0C] : List FixedValue).length := rfl
  obtain ⟨w₂, s₂, w₃, s₃, content, f, put, closed, read, readsBack, _⟩ :=
    fixed_round_trip opened (fun _ => Deflater.builtin_documented)
      (fun _ => Deflater.builtin_undoneBy) file calm (fun _ => rfl) count (by decide)
      fun narrow => absurd narrow (by decide)
  exact ⟨w₂, s₂, w₃, s₃, content, f, put, closed, read, readsBack.parsed, readsBack.entries⟩

end ForwardIndex.FixedWriter
