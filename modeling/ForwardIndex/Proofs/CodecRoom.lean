import ForwardIndex.Proofs.Release
import ForwardIndex.Proofs.Unheaded

/-!
# Room for a compressed chunk

GZIP chunks are made by a deflate library. What the writer relies on is little: a stream ends within
the library's own bound when it is given as much room. The staging buffer is made once, for a full
chunk; that it is large enough for every fill level, that no number is too large for the words in
which the library is told of it, and that the trailer has its place behind the stream, follows for
every state that a writer comes to.
-/
set_option autoImplicit false
namespace ForwardIndex

namespace Compressor

/-- A compressor with a staging buffer that was made for chunks of a capacity: it is large enough
for every fill level, and every size fits the word in which a library is told of it. -/
structure StagesFor (c : Compressor) (capacity : Nat) (staging : Bytes) : Prop where
  size : staging.size = c.bound capacity
  bound_le (n : Nat) : n ≤ capacity → c.bound n ≤ staging.size
  input (n : Nat) : n ≤ capacity → (UInt32.ofNat n).toNat = n
  output : (UInt32.ofNat (staging.size - Gzip.trailerSize)).toNat =
    staging.size - Gzip.trailerSize

/-- A chunk is compressed without failure, within the staging buffer. A GZIP chunk is the stream of
the library for the whole chunk and, behind it, a trailer that tells the length of the chunk. -/
structure Delivers (z : Deflater) (c : Compressor) (call : Nat) (chunk staging : Bytes) (n : Nat) :
    Prop where
  ok : (c.compress call chunk staging).2 = .ok n
  size_le : n ≤ staging.size
  stored : c.type = .passThrough → (c.compress call chunk staging).1.first n = chunk
  zipped : c.type = .gzip → (c.compress call chunk staging).1.first n =
    (z.finish call Gzip.defaultLevel chunk (staging.size - Gzip.trailerSize)).1 ++
      Bytes.ofText (Bytes.word64 (UInt64.ofNat chunk.size))
  trailer : c.type = .gzip →
    Gzip.trailer? ((c.compress call chunk staging).1.first n) = some chunk.size

section OfType

variable {z : Deflater} {t : Compression} {c : Compressor} {capacity : Nat} {staging : Bytes}

theorem ofType_stages (h : ofType t z = .ok c) (most : capacity ≤ Layout.maxInt32)
    (size : staging.size = c.bound capacity) : StagesFor c capacity staging := by
  unfold Layout.maxInt32 at most
  have mono {n : Nat} (less : n ≤ capacity) : c.bound n ≤ c.bound capacity := by
    obtain ⟨-, rfl⟩ | ⟨-, -, rfl⟩ := ofType_cases h
    · exact less
    · exact Nat.add_le_add_right (Deflater.bound_mono less) _
  have small : c.bound capacity < 2 ^ 32 := by
    obtain ⟨-, rfl⟩ | ⟨-, -, rfl⟩ := ofType_cases h
    · exact Nat.lt_of_le_of_lt most (by decide)
    · simp only [gzip, ofFunction, Gzip.bound, Gzip.trailerSize, Deflater.bound]
      omega
  exact {
    size
    bound_le := fun n less => size ▸ mono less
    input := fun n less =>
      UInt32.toNat_ofNat_of_lt' (Nat.lt_of_le_of_lt (less.trans most) (by decide))
    output := UInt32.toNat_ofNat_of_lt' (by
      rw [size]
      exact Nat.lt_of_le_of_lt (Nat.sub_le _ _) small) }

theorem ofType_delivers (doc : z.Documented) (h : ofType t z = .ok c)
    (most : capacity ≤ Layout.maxInt32) (size : staging.size = c.bound capacity) {chunk : Bytes}
    (within : chunk.size ≤ capacity) (call : Nat) : ∃ n, Delivers z c call chunk staging n := by
  have encodes := ofType_encodes h most fun _ => doc
  have compress := encodes.compress call within size
  have below := encodes.size_le call within
  rw [← size] at below
  have front := stage_first below
  refine ⟨_, by rw [compress], below, fun stored => ?_, fun zipped => ?_, fun zipped => ?_⟩
  · obtain ⟨rfl, rfl⟩ | ⟨-, -, rfl⟩ := ofType_cases h
    · rw [compress, front, encoding, if_pos rfl]
    · cases stored
  · obtain ⟨-, rfl⟩ | ⟨rfl, -, rfl⟩ := ofType_cases h
    · cases zipped
    · have room : staging.size - Gzip.trailerSize = Deflater.bound capacity := by
        rw [size]
        exact Nat.add_sub_cancel _ _
      rw [compress, front, room, encoding, if_neg (by decide), Gzip.trailed]
  · obtain ⟨-, rfl⟩ | ⟨rfl, -, rfl⟩ := ofType_cases h
    · cases zipped
    · rw [compress, front, encoding, if_neg (by decide)]
      exact Gzip.trailer?_trailed _ (Nat.lt_of_le_of_lt (within.trans most) (by decide))

end OfType

end Compressor

namespace ChunkWriter

/-! ## A whole life -/

/-- A writer that was opened with a compressor for chunks of a capacity. While it is writing it has
both, and a staging buffer of the bound for a full chunk. -/
structure Carries (c : Compressor) (capacity : Nat) (w : ChunkWriter) : Prop where
  opened : w.isUnopened = false
  works : w.isOpen → ∃ b, w.Works c b (c.bound capacity) ∧ b.capacity = capacity

section Carries

variable {c : Compressor} {capacity : Nat} {w : ChunkWriter}

theorem Works.carries {b : Buffer} (h : w.Works c b (c.bound capacity))
    (size : b.capacity = capacity) : Carries c capacity w :=
  ⟨h.isUnopened, fun _ => ⟨b, h, size⟩⟩

theorem Carries.rejected (h : Carries c capacity w) {s : Session}
    {r : Outcome × ChunkWriter × Session} (rejected : Rejected w s r) : Carries c capacity r.2.1 := by
  obtain ⟨e, s', rfl, -⟩ := rejected
  exact h

theorem Carries.onBuffer (h : Carries c capacity w) (call : Buffer.Call) :
    Carries c capacity (w.onBuffer call.apply).2 := by
  by_cases isOpen : w.isOpen
  · obtain ⟨b, works, size⟩ := h.works isOpen
    exact (works.onBuffer call.apply).1.carries ((b.capacity_apply call).trans size)
  · obtain ⟨logger, header, file, cursor, stage⟩ := w
    cases stage with
    | unopened => exact h
    | closed => exact h
    | writing codec b staging => exact absurd rfl isOpen

theorem Carries.flush (h : Carries c capacity w) (s : Session) :
    Carries c capacity (w.flush s).2.1 := by
  by_cases isOpen : w.isOpen
  · obtain ⟨b, works, size⟩ := h.works isOpen
    rcases hf : w.flush s with ⟨outcome, w', s'⟩
    cases hf ▸ w.flushed s with
    | forbidden => exact h
    | uncompressed works₁ _ _ works' =>
      obtain ⟨rfl, rfl, rfl⟩ := works.unique works₁
      exact works'.carries size
    | unwritten works₁ _ _ works' =>
      obtain ⟨rfl, rfl, rfl⟩ := works.unique works₁
      exact works'.carries size
    | stored works₁ _ _ works' =>
      obtain ⟨rfl, rfl, rfl⟩ := works.unique works₁
      exact works'.carries size
  · exact h.rejected (flush_rejected (by simpa using isOpen) s)

theorem Carries.close (h : Carries c capacity w) (s : Session) :
    Carries c capacity (w.close s).2.1 := by
  by_cases isOpen : w.isOpen
  · obtain ⟨f, -, closed⟩ := close_writer isOpen s
    rw [closed]
    exact ⟨rfl, nofun⟩
  · rw [(close_idle (by simpa using isOpen) s).1]
    exact h

theorem Carries.act (h : Carries c capacity w) (history : History) (s : Session)
    (action : Action) : Carries c capacity (w.act history s action).1 := by
  cases action with
  | openWith path params compressor => exact h.rejected (openWith_rejected h.opened _ _ _ s)
  | openBuiltin path params z => exact h.rejected (openBuiltin_rejected h.opened _ _ s z)
  | call call =>
    cases call with
    | buffer call => exact h.onBuffer call
    | flush => exact h.flush s
  | close => exact h.close s

/-- By induction on the actions. -/
theorem Carries.live (h : Carries c capacity w) (history : History)
    (life : List (Action × Session)) : Carries c capacity (ChunkWriter.live w history life).1 := by
  induction life generalizing w history with
  | nil => exact h
  | cons event rest ih => exact ih (h.act history event.2 event.1) _

end Carries

/-- A built-in compressor never fails in a writer, on any library that does what it promises. After
any actions, on any volumes, a writer that was opened with one and is still open has a staging
buffer for every fill level of its chunk, whose sizes fit the words of the library; what its chunk
buffer holds is compressed into it, with the trailer behind the stream of a GZIP chunk; and no flush
reports a compressor's failure. -/
theorem builtin_compresses {z : Deflater} (doc : z.Documented) {w₀ w : ChunkWriter} {path : Text}
    {params : Parameters} {s₀ s₁ : Session}
    (opened : w₀.openBuiltin path params s₀ z = (.ok (), w, s₁))
    (life : List (Action × Session)) {codec : Codec} {b : Buffer} {staging : Bytes}
    (writing : (live w {} life).1.stage = .writing codec b staging) :
    0 < b.capacity ∧ b.capacity ≤ Layout.maxInt32 ∧ codec.compressor.type = params.compression ∧
      codec.compressor.StagesFor b.capacity staging ∧
      (∃ n, Compressor.Delivers z codec.compressor codec.calls b.filled staging n) ∧
      ∀ s e, ((live w {} life).1.flush s).1 = .error e → e.kind ≠ .compression := by
  obtain ⟨e, refused⟩ | ⟨c, check, builtin, same⟩ := w₀.openBuiltin_cases path params s₀ z
  · cases opened.symm.trans refused
  rw [same] at opened
  have admitted := Parameters.check_ok check
  have positive := admitted.chunkSize_pos
  have most := admitted.chunkSize_le
  have carries := ((openWith_works opened).carries (Buffer.capacity_new _)).live {} life
  obtain ⟨b', works, capacity⟩ := carries.works (by simp [isOpen, writing])
  obtain ⟨rfl, rfl, size⟩ : c = codec.compressor ∧ b' = b ∧
      c.bound params.chunkSize.toInt.toNat = staging.size :=
    Works.unique ⟨codec, staging, writing, rfl, rfl⟩ works
  rw [← capacity] at size
  have small : b'.capacity ≤ Layout.maxInt32 := by omega
  have stages := Compressor.ofType_stages builtin small size.symm
  have within : b'.filled.size ≤ b'.capacity := by
    rw [b'.size_filled]
    exact b'.position_le
  obtain ⟨n, compresses⟩ :=
    Compressor.ofType_delivers doc builtin small size.symm within codec.calls
  refine ⟨by omega, small, Compressor.ofType_type builtin, stages, ⟨n, compresses⟩,
    fun s e failed => ?_⟩
  · intro same
    obtain rfl | rfl | far | uncompressed | ⟨out, unwritten⟩ := flush_error writing failed
    · cases same
    · cases same
    · unfold Header.checkOffset at far
      split at far <;> cases far
      cases same
    · simp only [compressChunk, compresses.ok, codec.compressor.size_staging,
        Nat.not_lt.2 compresses.size_le, if_false] at uncompressed
      cases uncompressed
    · obtain io | ⟨rfl, -⟩ := FileHandle.writeAll_error (Prod.ext unwritten rfl)
      · rw [io] at same
        cases same
      · cases same

/-- Chunks of two words, zipped. -/
def twoWords : Parameters :=
  { compression := .gzip, totalDocs := 2, docsPerChunk := 2, chunkSize := 8, entrySize := 4 }

def openedTwoWords : Outcome × ChunkWriter × Session :=
  openBuiltin {} [102] twoWords {} .builtin

theorem builtin_compresses_oneWord :
    let w := (live openedTwoWords.2.1 {} [(.call (.buffer (.int32 0x01020304)), {})]).1
    ∃ codec b staging n, w.stage = .writing codec b staging ∧ b.position = 4 ∧
      staging.size = 29 ∧ n ≤ 29 ∧
      Gzip.trailer? ((codec.compressor.compress codec.calls b.filled staging).1.first n) = some 4 ∧
      ∀ s e, (w.flush s).1 = .error e → e.kind ≠ .compression := by
  intro w
  have opened : openBuiltin {} [102] twoWords {} .builtin =
      (.ok (), openedTwoWords.2.1, openedTwoWords.2.2) := rfl
  obtain ⟨codec, b, staging, writing, zips, position, capacity⟩ : ∃ codec b staging,
      w.stage = .writing codec b staging ∧
        codec.compressor = .gzip ⟨some Gzip.defaultLevel⟩ .builtin ∧ b.position = 4 ∧
        b.capacity = 8 := ⟨_, _, _, rfl, rfl, rfl, rfl⟩
  obtain ⟨-, -, -, stages, ⟨n, compresses⟩, flushes⟩ :=
    builtin_compresses Deflater.builtin_documented opened _ writing
  have size : staging.size = 29 := by
    rw [stages.size, zips, capacity]
    rfl
  have trailer := compresses.trailer (by rw [zips]; rfl)
  rw [b.size_filled, position] at trailer
  exact ⟨codec, b, staging, n, writing, position, size, size ▸ compresses.size_le, trailer, flushes⟩

end ChunkWriter
end ForwardIndex
