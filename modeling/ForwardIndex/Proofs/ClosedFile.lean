import ForwardIndex.Proofs.ChunkWriter

/-!
# The file of a closed writer

A writer may be filled and flushed in any order, by calls that are accepted or refused, with any
compressor. When it is closed its file is the header and the stored chunks back to back, and the
offsets in the header tell where each chunk starts.
-/
set_option autoImplicit false
namespace ForwardIndex.ChunkWriter

/-- An opening that is accepted, with a compressor of the caller's or with a built-in one. -/
inductive Opens (w : ChunkWriter) (path : Text) (params : Parameters) (s : Session)
    (w' : ChunkWriter) (s' : Session) : Prop where
  | handed (c : Compressor) (h : w.openWith path params (some c) s = (.ok (), w', s'))
  | builtin (z : Deflater) (h : w.openBuiltin path params s z = (.ok (), w', s'))

/-- A built-in compressor is handed over like any other. -/
theorem Opens.exists_compressor {w w' : ChunkWriter} {path : Text} {params : Parameters}
    {s s' : Session} (h : Opens w path params s w' s') :
    ∃ c, w.openWith path params (some c) s = (.ok (), w', s') := by
  cases h with
  | handed c h => exact ⟨c, h⟩
  | builtin z h =>
    unfold openBuiltin at h
    split at h
    · cases h
    split at h
    · cases h
    split at h
    · cases h
    · next c _ => exact ⟨c, h⟩

/-- The calls of a run, with the flush that a close after them starts with. -/
def withPending (x : ChunkWriter × Session) (calls : List Call) : List Call :=
  calls ++ (run x calls).1.pending

/-- Everything is written that a run and the close after it ask of the file: the chunks and the
header. -/
structure AllWritten (x : ChunkWriter × Session) (calls : List Call) : Prop where
  chunks : ChunksWritten x (withPending x calls)
  header : ((run x (withPending x calls)).1.writeHeader (run x (withPending x calls)).2).1 = .ok ()

/-- Whatever the compressor, the calls and the file before: if writes succeed and the flush of what
is pending does, a closed writer leaves its header followed by the stored chunks, and each recorded
offset is where its chunk starts. -/
theorem closed_file {w₀ w₁ : ChunkWriter} {path : Text} {params : Parameters} {s₀ s₁ : Session}
    (opened : Opens w₀ path params s₀ w₁ s₁) (file : s₀.volume.LeadsToFile path)
    (calls : List Call) (written : AllWritten (w₁, s₁) calls)
    (flushed : ((run (w₁, s₁) calls).1.flushPending (run (w₁, s₁) calls).2).1 = .ok ()) :
    let x := run (w₁, s₁) calls
    let w := (x.1.close x.2).2.1
    let chunks := stored (w₁, s₁) (withPending (w₁, s₁) calls)
    w.isClosed ∧ w.header.recorded = chunks.length ∧
      ∃ content, (x.1.close x.2).2.2.volume.read path = .bytes content ∧
        content.toText = w.header.toBytes.toText ++ Bytes.joined chunks ∧ content.size = w.cursor ∧
        ∀ i chunk, chunks[i]? = some chunk →
          ∃ start, w.header.offsets[i]? = some start ∧
            start = w.header.size + (Bytes.joined (chunks.take i)).length ∧
            content.slice start (start + chunk.size) = chunk := by
  intro x w chunks
  obtain ⟨c, opened⟩ := opened.exists_compressor
  obtain ⟨p, found, _, works₁, stands₁⟩ := openWith_stands file opened
  obtain ⟨_, ⟨_, _, _, before⟩, _⟩ := stands₁.file
  obtain ⟨_, _, stands₂, follows₂⟩ := run_stands works₁ stands₁ written.chunks
  obtain ⟨_, works, _, _⟩ :=
    run_stands works₁ stands₁ ((chunksWritten_append _ _ _).1 written.chunks).1
  rw [List.nil_append] at stands₂
  -- the run with its pending flush ends where the close has flushed
  rcases hy : run (w₁, s₁) (withPending (w₁, s₁) calls) with ⟨w₂, s₂⟩
  have closing : x.1.flushPending x.2 = (.ok (), w₂, s₂) := by
    refine Prod.ext flushed ?_
    rw [flushPending_eq_run, ← hy, withPending, run_append]
  have header := written.header
  rw [hy] at stands₂ follows₂ header
  rcases hv : w₂.file.writeAll w₂.header.toBytes 0 s₂.volume with ⟨outcome, v⟩
  rw [writeHeader, hv] at header
  obtain rfl : outcome = .ok () := header
  obtain ⟨content, ⟨d, hd, isOpen, node⟩, follows₃, view⟩ := stands₂.finish hv
  obtain ⟨w₃, s₃, hc, stage, header, cursor, volume⟩ :=
    close_spec (w := x.1) (s := x.2) works closing hv
  have recorded := stands₂.recorded
  have size : w₂.header.size = (params.header c.type).size := by rw [stands₂.header]; rfl
  simp only [w, hc]
  rw [header, cursor, recorded]
  refine ⟨by simp [isClosed, stage], rfl, content, ?_, view, ?_, fun i chunk hi => ?_⟩
  · refine Volume.read_changed found before ?_ fun q hq => ?_
    · rw [volume, FileHandle.close_node?, node]
    · rw [volume, FileHandle.close_node?, follows₃.others q hq, follows₂.others q hq]
  · rw [stands₂.cursor, ← Bytes.length_toText, view, List.length_append, Bytes.length_toText,
      stands₂.size_header]
  · refine ⟨_, stands₂.offset (List.getElem?_eq_some_iff.1 hi).1, by rw [size], Bytes.ext ?_⟩
    rw [Bytes.toText_slice, view, Nat.add_sub_cancel_left, List.drop_append,
      List.drop_of_length_le (by rw [Bytes.length_toText, stands₂.size_header]; omega),
      List.nil_append, Bytes.length_toText, stands₂.size_header, Nat.add_sub_cancel_left,
      Bytes.joined_piece hi]

/-- A compressor that loses all but two bytes of a chunk. -/
def keepTwo : Compressor :=
  .ofFunction ⟨9⟩ (fun _ => 2) fun _ chunk _ => (chunk.first 2, .ok (chunk.first 2).size)

/-- A flush that is refused, a chunk of three bytes, and a byte that is left for the close. -/
def threeAndOne : List Call :=
  [.flush, .buffer (.append (Bytes.ofText [1, 2, 3])), .flush,
    .buffer (.append (Bytes.ofText [4]))]

def twoChunks : Parameters := { totalDocs := 2, docsPerChunk := 1, chunkSize := 4, entrySize := 4 }

/-- A new writer, opened for two chunks with the lossy compressor. -/
def openedTwo : Outcome × ChunkWriter × Session := openWith {} [102] twoChunks (some keepTwo) {}

theorem closed_file_keepTwo :
    AllWritten openedTwo.2 threeAndOne ∧ ∃ content,
      ((run openedTwo.2 threeAndOne).1.close (run openedTwo.2 threeAndOne).2).2.2.volume.read
        [102] = .bytes content ∧
      content.toText.drop 36 = [1, 2, 4] := by
  have opened : Opens {} [102] twoChunks {} openedTwo.2.1 openedTwo.2.2 := .handed keepTwo rfl
  have file : ({} : Session).volume.LeadsToFile [102] := by
    intro p h
    cases h
  have written : AllWritten openedTwo.2 threeAndOne := by
    refine ⟨?_, rfl⟩
    change ChunksWritten _ [.flush, .buffer (.append (Bytes.ofText [1, 2, 3])), .flush,
      .buffer (.append (Bytes.ofText [4])), .flush]
    -- the first flush hands over nothing, the other two a chunk each
    refine ⟨fun _ out h => ?_, ⟨nofun, fun _ out h => ?_, nofun, fun _ out h => ?_, trivial⟩⟩
    · cases h
    · cases h
      rfl
    · cases h
      rfl
  obtain ⟨_, _, content, read, view, _⟩ := closed_file opened file threeAndOne written rfl
  refine ⟨written, content, read, ?_⟩
  rw [view]
  rfl

end ForwardIndex.ChunkWriter
