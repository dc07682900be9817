import ForwardIndex.Proofs.VariableWriter

/-!
# Variable-width values are read back

The raw chunks of a file are the windows of the column, each encoded by itself: whatever the buffer
held before, nothing of it is left. The reader finds every value between its slot and the next.
-/
set_option autoImplicit false
namespace ForwardIndex.VariableWriter

open Layout (slotWidth)

/-! ## Reading a chunk -/

section RawChunk

variable {docs : Nat} {values : List Bytes}

theorem toText_rawChunk (docs : Nat) (values : List Bytes) :
    (rawChunk docs values).toText = slotBytes (slots docs values) ++
      (slotBytes (List.replicate (docs - values.length) 0) ++ Bytes.joined values) :=
  toText_chunkWith _ _ _

/-- Slots at the front of some bytes tell where the values start, as far as a slot can tell it. -/
theorem numbersAt_slots {b : Bytes} {rest : Text}
    (view : b.toText = slotBytes (slots docs values) ++ rest)
    (small : docs * slotWidth + (Bytes.joined values).length < 2 ^ 32) :
    IndexFile.numbersAt b slotWidth 0 values.length = Layout.starts (docs * slotWidth) values := by
  have read := IndexFile.numbersAt_pieces (fun slot _ => Bytes.length_word32 slot)
    (show b.toText.drop 0 = _ from view)
  rw [length_slots] at read
  rw [show slotWidth = 4 from rfl, read, slots, List.map_map]
  refine (List.map_congr_left fun start hs => ?_).trans (List.map_id _)
  have bound := Layout.le_of_mem_starts hs
  rw [Function.comp_apply, Bytes.bigEndian_word32, UInt32.toNat_ofNat',
    Nat.mod_eq_of_lt (by omega)]
  rfl

/-- The slots of a raw chunk that is small enough tell where its values start. -/
theorem numbersAt_rawChunk (small : docs * slotWidth + (Bytes.joined values).length < 2 ^ 32) :
    IndexFile.numbersAt (rawChunk docs values) slotWidth 0 values.length =
      Layout.starts (docs * slotWidth) values :=
  numbersAt_slots (toText_rawChunk docs values) small

/-- The values lie behind all slots, those of absent documents included. -/
theorem drop_rawChunk (short : values.length ≤ docs) :
    (rawChunk docs values).toText.drop (docs * slotWidth) = Bytes.joined values := by
  have front : (slotBytes (slots docs values) ++
      slotBytes (List.replicate (docs - values.length) 0)).length = docs * slotWidth := by
    rw [List.length_append, length_slotBytes, length_slotBytes, length_slots, ← Nat.add_mul,
      List.length_replicate, Nat.add_sub_cancel' short]
  rw [toText_rawChunk, ← List.append_assoc, List.drop_left' front]

/-- The values of a raw chunk are read from its slots. -/
theorem chunkValues?_rawChunk (short : values.length ≤ docs)
    (small : (rawChunk docs values).size < 2 ^ 32) :
    IndexFile.chunkValues? values.length (rawChunk docs values) =
      some (values.map Bytes.toText) := by
  have size := size_rawChunk short
  have least : ¬ (rawChunk docs values).size < values.length * slotWidth := by
    have := Nat.mul_le_mul_right slotWidth short
    omega
  unfold IndexFile.chunkValues?
  rw [if_neg least, numbersAt_rawChunk (size ▸ small)]
  calc
    (IndexFile.spans (rawChunk docs values).size (Layout.starts (docs * slotWidth) values)).mapM _
      = some ((IndexFile.spans (rawChunk docs values).size
          (Layout.starts (docs * slotWidth) values)).map fun x =>
            ((rawChunk docs values).slice x.1 x.2).toText) :=
        IndexFile.mapM_some fun _ hs => if_pos (IndexFile.mem_spans_starts size hs)
    _ = some (values.map Bytes.toText) := by
        have texts := congrArg (List.map Bytes.toText)
          (IndexFile.slices_starts (by omega) (drop_rawChunk short))
        rw [List.map_map] at texts
        exact congrArg some texts

end RawChunk

/-- A raw chunk of a column is read by its number, the last one as far as there are documents. -/
theorem chunkValues?_chunked {docs i : Nat} {values : List Bytes} {chunk : Bytes}
    (found : (Layout.chunked docs (rawChunk docs) values)[i]? = some chunk)
    (small : chunk.size < 2 ^ 32) :
    IndexFile.chunkValues? (min docs (values.length - i * docs)) chunk =
      some ((Layout.group docs values i).map Bytes.toText) := by
  obtain ⟨g, hg, rfl⟩ := Option.map_eq_some_iff.1 (List.getElem?_map.symm.trans found)
  have short := Layout.length_le_of_mem_groups (List.mem_of_getElem? hg)
  rw [← Layout.length_group, ← Layout.eq_group_of_getElem? hg]
  exact chunkValues?_rawChunk short small

/-- The reader gets all values from the raw chunks. -/
theorem variableValues?_chunked {f : IndexFile} {inflate : Bytes → Option Bytes} {docs : Nat}
    {values : List Bytes} (positive : 0 < docs) (window : f.docsPerChunk.toInt = docs)
    (count : f.totalDocs.toInt = values.length)
    (small : ∀ chunk ∈ Layout.chunked docs (rawChunk docs) values, chunk.size < 2 ^ 32)
    (chunks : f.rawChunks? inflate = some (Layout.chunked docs (rawChunk docs) values)) :
    f.variableValues? inflate = some (values.map Bytes.toText) := by
  have pieces : (Layout.chunked docs (rawChunk docs) values).zipIdx.mapM (fun x =>
      IndexFile.chunkValues? (min f.docsPerChunk.toInt
        (f.totalDocs.toInt - x.2 * f.docsPerChunk.toInt)).toNat x.1) =
      some ((Layout.chunked docs (rawChunk docs) values).zipIdx.map fun x =>
        (Layout.group docs values x.2).map Bytes.toText) := by
    refine IndexFile.mapM_some fun x hx => ?_
    have found := List.mem_zipIdx_iff_getElem?.1 hx
    have left : (min (docs : Int) (values.length - x.2 * docs)).toNat =
        min docs (values.length - x.2 * docs) := by
      rw [← Int.natCast_mul]
      omega
    rw [window, count, left]
    exact chunkValues?_chunked found (small x.1 (List.mem_of_getElem? found))
  have flat : ((Layout.groups docs values).map (List.map Bytes.toText)).flatten =
      values.map Bytes.toText := by
    rw [← List.map_flatten, Layout.flatten_groups positive]
  rw [Layout.zipIdx_chunked (List.map Bytes.toText)] at pieces
  unfold IndexFile.variableValues?
  rw [chunks]
  simp only [Option.bind_eq_bind, Option.bind_some, pieces, flat]
  rfl

/-! ## Round trip -/

/-- The raw chunk of a window has room in the buffer. -/
theorem size_rawChunk_le {docs longest : Nat} {values : List Bytes} (short : values.length ≤ docs)
    (small : ∀ v ∈ values, v.size ≤ longest) :
    (rawChunk docs values).size ≤ docs * (slotWidth + longest) := by
  calc (rawChunk docs values).size
      = docs * slotWidth + (Bytes.joined values).length := size_rawChunk short
    _ ≤ docs * slotWidth + docs * longest :=
        Nat.add_le_add_left
          ((Bytes.length_joined_le small).trans (Nat.mul_le_mul_right longest short)) _
    _ = docs * (slotWidth + longest) := (Nat.mul_add docs slotWidth longest).symm

/-- The raw chunks of values have room in the buffer. -/
theorem Shape.small {job : Job} {docs longest : Nat} (shape : Shape job docs longest)
    {values : List Bytes} (small : ∀ v ∈ values, v.size ≤ longest) :
    ∀ chunk ∈ Layout.chunked docs (rawChunk docs) values, chunk.size ≤ job.capacity := by
  intro chunk hc
  obtain ⟨g, hg, rfl⟩ := List.mem_map.1 hc
  rw [shape.capacity]
  exact size_rawChunk_le (Layout.length_le_of_mem_groups hg) fun v hv =>
    small v (Layout.mem_of_mem_groups hg hv)

section RoundTrip

variable {w₀ w₁ : VariableWriter} {path : Text} {compression : Compression}
  {totalDocs docsPerChunk longest version : Int32} {s₀ s₁ : Session} {values : List Text}
  {z : Deflater}

/-- A writer that is opened for as many values of at most the longest length is at their start. -/
theorem openAt_starts
    (opened : w₀.openAt path compression totalDocs docsPerChunk longest version s₀ z =
      (.ok (), w₁, s₁))
    (doc : compression = .gzip → z.Documented) (count : totalDocs.toNatClampNeg = values.length)
    (short : ∀ v ∈ values, v.length ≤ longest.toNatClampNeg) :
    let params := parameters compression totalDocs docsPerChunk longest version
    let docs := docsPerChunk.toNatClampNeg
    ∃ job, encoder.Starts job path params z s₀.volume (values.map Bytes.ofText)
      (Layout.chunked docs (rawChunk docs) (values.map Bytes.ofText)) w₁ s₁ := by
  intro params docs
  obtain ⟨job, opens, filling⟩ := openAt_filling opened doc
  have shape := shape_of_opens opens
  have small : ∀ v ∈ values.map Bytes.ofText, v.size ≤ longest.toNatClampNeg :=
    List.forall_mem_map.2 fun v hv => (Bytes.size_ofText v).trans_le (short v hv)
  refine ⟨job, opens, ⟨_, _, _, _, fills shape, ⟨[], [], filling, shape.docs_pos, rfl⟩, small, rfl⟩,
    shape.small small, ?_⟩
  rw [opens.blank]
  exact Layout.length_chunked_all opens.admitted.totalDocs shape.docs_pos
    (by rw [List.length_map]; exact count) _

/-- A writer that is opened for as many values as are put, on a file where writes and the close go
well, takes all of them and closes. The raw chunks of the file are those of the windows alone, and
the file is read as the values. In version 2 the starts of the chunks must fit the table. -/
theorem variable_round_trip {inflate : Bytes → Option Bytes}
    (opened : w₀.openAt path compression totalDocs docsPerChunk longest version s₀ z =
      (.ok (), w₁, s₁))
    (doc : compression = .gzip → z.Documented) (undone : compression = .gzip → z.UndoneBy inflate)
    (file : s₀.volume.LeadsToFile path) (calm : s₀.volume.WritesGoOn)
    (closes : s₀.volume.Closes) (count : totalDocs.toInt = values.length)
    (lengths : ∀ v ∈ values, (v.length : Int) ≤ longest.toInt) :
    let params := parameters compression totalDocs docsPerChunk longest version
    let docs := docsPerChunk.toNatClampNeg
    let raw := Layout.chunked docs (rawChunk docs) (values.map Bytes.ofText)
    (version = 2 → ∀ start ∈ (params.header compression).chunkStarts (params.encode z) raw,
      start ≤ Layout.maxInt32) →
    ∃ w₂ s₂ w₃ s₃ content f, w₁.putAll values s₁ = (.ok (), w₂, s₂) ∧
      w₂.close s₂ = (.ok (), w₃, s₃) ∧ s₃.volume.read path = .bytes content ∧
      IndexFile.parse content = some f ∧ f.rawChunks? inflate = some raw ∧
      f.variableValues? inflate = some values := by
  intro params docs raw reaches
  have short : ∀ v ∈ values, v.length ≤ longest.toNatClampNeg := by
    intro v hv
    have := lengths v hv
    rw [← Int32.toNat_toInt]
    omega
  have n : totalDocs.toNatClampNeg = values.length := by
    rw [← Int32.toNat_toInt, count, Int.toNat_natCast]
  obtain ⟨job, start⟩ := openAt_starts opened doc n short
  obtain ⟨w₂, s₂, w₃, s₃, put, closed, opens, all, finished⟩ :=
    start.succeeds file calm closes reaches
  have docs_pos := (shape_of_opens opens).docs_pos
  obtain ⟨content, read, view⟩ := finished.read (opens.isSome file)
  obtain ⟨f, parsed, reads⟩ := (opens.undoneBy undone).parse_contents finished.allows all view
  have texts : (values.map Bytes.ofText).map Bytes.toText = values := by
    rw [List.map_map]
    exact (List.map_congr_left fun v _ => Bytes.toText_ofText v).trans (List.map_id _)
  have read_back : f.variableValues? inflate =
      some ((values.map Bytes.ofText).map Bytes.toText) := by
    refine variableValues?_chunked docs_pos ?_ ?_ ?_ reads.chunks
    · rw [reads.docsPerChunk, opens.blank]
      exact Layout.toInt_eq_natCast docs_pos
    · rw [reads.totalDocs, opens.blank, List.length_map]
      exact count
    · intro chunk hc
      exact Nat.lt_of_le_of_lt ((finished.allows.small chunk hc).trans job.small) (by decide)
  rw [texts] at read_back
  rw [opens.path] at read
  rw [← putAll_eq] at put
  exact ⟨w₂, s₂, w₃, s₃, content, f, put, closed, read, parsed, reads.chunks, read_back⟩

end RoundTrip

/-- A new writer, opened for three values of at most two bytes, one in a compressed chunk. -/
def openedThree : Outcome × VariableWriter × Session := openAt {} [102] .gzip 3 1 2 3 {} .builtin

theorem variable_round_trip_three :
    ∃ w₂ s₂ w₃ s₃ content f, openedThree.2.1.putAll [[97], [], [98, 99]] openedThree.2.2 =
        (.ok (), w₂, s₂) ∧
      w₂.close s₂ = (.ok (), w₃, s₃) ∧ s₃.volume.read [102] = .bytes content ∧
      IndexFile.parse content = some f ∧
      f.rawChunks? Zlib.decompress = some [Bytes.ofText [0, 0, 0, 4, 97],
        Bytes.ofText [0, 0, 0, 4], Bytes.ofText [0, 0, 0, 4, 98, 99]] ∧
      f.variableValues? Zlib.decompress = some [[97], [], [98, 99]] := by
  have opened : openAt {} [102] .gzip 3 1 2 3 {} .builtin = (.ok (), openedThree.2) := rfl
  have file : ({} : Session).volume.LeadsToFile [102] := by
    intro p h
    cases h
  have calm : ({} : Session).volume.WritesGoOn := fun _ => List.forall_mem_nil _
  have count : (3 : Int32).toInt = ([[97], [], [98, 99]] : List Text).length := rfl
  obtain ⟨w₂, s₂, w₃, s₃, content, f, put, closed, read, parsed, chunks, values⟩ :=
    variable_round_trip opened (fun _ => Deflater.builtin_documented)
      (fun _ => Deflater.builtin_undoneBy) file calm (fun _ => rfl) count (by decide)
      fun narrow => absurd narrow (by decide)
  exact ⟨w₂, s₂, w₃, s₃, content, f, put, closed, read, parsed, chunks, values⟩

end ForwardIndex.VariableWriter
