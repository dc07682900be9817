import ForwardIndex.ChunkWriter
import ForwardIndex.Proofs.Buffer
import ForwardIndex.Proofs.FileHandle
import ForwardIndex.Proofs.Header

/-!
# Chunk writers at work

What one call does to a writer that is writing, and what a run of calls leaves: `Stands` relates the
header, the cursor and the file to the chunks stored so far. A flush is refused before it writes,
fails in the write, or stores one chunk; `output?` tells what it hands to the file.
-/
set_option autoImplicit false
namespace ForwardIndex

/-- The bytes of chunks back to back. -/
def Bytes.joined (chunks : List Bytes) : Text := chunks.flatMap Bytes.toText

namespace Bytes

@[simp] theorem joined_nil : joined [] = [] := rfl

@[simp] theorem joined_cons (chunk : Bytes) (rest : List Bytes) :
    joined (chunk :: rest) = chunk.toText ++ joined rest := rfl

theorem length_joined_cons (chunk : Bytes) (rest : List Bytes) :
    (joined (chunk :: rest)).length = chunk.size + (joined rest).length := by
  rw [joined_cons, List.length_append, length_toText]

theorem joined_append (chunks more : List Bytes) :
    joined (chunks ++ more) = joined chunks ++ joined more := List.flatMap_append

theorem joined_concat (chunks : List Bytes) (chunk : Bytes) :
    joined (chunks ++ [chunk]) = joined chunks ++ chunk.toText := by
  rw [joined_append, joined_cons, joined_nil, List.append_nil]

/-- A chunk is found behind those before it. -/
theorem joined_piece {chunks : List Bytes} {i : Nat} {chunk : Bytes} (h : chunks[i]? = some chunk) :
    ((joined chunks).drop (joined (chunks.take i)).length).take chunk.size = chunk.toText := by
  obtain ⟨hi, rfl⟩ := List.getElem?_eq_some_iff.1 h
  have around : joined chunks =
      joined (chunks.take i) ++ (chunks[i].toText ++ joined (chunks.drop (i + 1))) := by
    conv_lhs => rw [← List.take_append_drop i chunks, List.drop_eq_getElem_cons hi, joined_append]
    rfl
  rw [around, List.drop_left, List.take_left' (length_toText _)]

end Bytes

/-- Where chunks start that lie back to back from a position on. -/
def Layout.starts (position : Nat) : List Bytes → List Nat
  | [] => []
  | chunk :: rest => position :: starts (position + chunk.size) rest

namespace Layout

@[simp] theorem length_starts (position : Nat) (chunks : List Bytes) :
    (starts position chunks).length = chunks.length := by
  induction chunks generalizing position with
  | nil => rfl
  | cons chunk rest ih => simp [starts, ih]

theorem starts_append (position : Nat) (chunks more : List Bytes) :
    starts position (chunks ++ more) =
      starts position chunks ++ starts (position + (Bytes.joined chunks).length) more := by
  induction chunks generalizing position with
  | nil => simp [starts]
  | cons first rest ih =>
    rw [List.cons_append, starts, ih, starts, List.cons_append, Bytes.length_joined_cons,
      Nat.add_assoc]

/-- One more chunk starts behind all others. -/
theorem starts_concat (position : Nat) (chunks : List Bytes) (chunk : Bytes) :
    starts position (chunks ++ [chunk]) =
      starts position chunks ++ [position + (Bytes.joined chunks).length] := by
  simp [starts_append, starts]

theorem le_of_mem_starts {position start : Nat} {chunks : List Bytes}
    (h : start ∈ starts position chunks) : start ≤ position + (Bytes.joined chunks).length := by
  induction chunks generalizing position with
  | nil => cases h
  | cons chunk rest ih =>
    rw [starts, List.mem_cons] at h
    rw [Bytes.length_joined_cons]
    obtain rfl | later := h
    · exact Nat.le_add_right _ _
    · have := ih later
      omega

theorem ge_of_mem_starts {position start : Nat} {chunks : List Bytes}
    (h : start ∈ starts position chunks) : position ≤ start := by
  induction chunks generalizing position with
  | nil => cases h
  | cons chunk rest ih =>
    rw [starts, List.mem_cons] at h
    obtain rfl | later := h
    · exact Nat.le_refl _
    · have := ih later
      omega

theorem starts_getElem? (position : Nat) (chunks : List Bytes) (i : Nat) :
    (starts position chunks)[i]? =
      if i < chunks.length then some (position + (Bytes.joined (chunks.take i)).length)
      else none := by
  induction chunks generalizing position i with
  | nil => simp [starts]
  | cons chunk rest ih =>
    cases i with
    | zero => simp [starts]
    | succ i => simp [starts, ih, Nat.add_assoc]

end Layout

namespace ChunkWriter

/-! ## Flushing -/

/-- What a flush of the chunk in the buffer hands to the file: the first bytes of the staging
buffer, as many as the compressor reports; `none` where the flush is refused before that. -/
def output? (w : ChunkWriter) : Option Bytes :=
  match w.stage with
  | .writing codec buffer staging =>
    if buffer.isEmpty ∨ w.header.isFull ∨ w.header.checkOffset w.cursor ≠ .ok () then none
    else
      match compressChunk codec buffer staging with
      | (.ok size, _, staging) => some (staging.first size)
      | (.error _, _, _) => none
  | _ => none

/-- The writer is at work with a compressor, a chunk buffer, and a staging buffer of a size. -/
def Works (w : ChunkWriter) (c : Compressor) (buffer : Buffer) (room : Nat) : Prop :=
  ∃ codec staging, w.stage = .writing codec buffer staging ∧ codec.compressor = c ∧
    staging.size = room

/-- A writer with the same header, cursor and file. -/
structure Alike (w w' : ChunkWriter) : Prop where
  header : w'.header = w.header
  file : w'.file = w.file
  cursor : w'.cursor = w.cursor

theorem Alike.refl (w : ChunkWriter) : Alike w w := ⟨rfl, rfl, rfl⟩

/-- A writer that is at work has one compressor, one chunk buffer and one staging buffer. -/
theorem Works.unique {w : ChunkWriter} {c c' : Compressor} {b b' : Buffer} {room room' : Nat}
    (h : w.Works c b room) (h' : w.Works c' b' room') : c' = c ∧ b' = b ∧ room' = room := by
  obtain ⟨codec, staging, hs, rfl, rfl⟩ := h
  obtain ⟨codec', staging', hs', rfl, rfl⟩ := h'
  rw [hs] at hs'
  cases hs'
  exact ⟨rfl, rfl, rfl⟩

theorem Works.buffer {w : ChunkWriter} {c : Compressor} {b : Buffer} {room : Nat}
    (h : w.Works c b room) : w.buffer = b := by
  obtain ⟨codec, staging, hs, -⟩ := h
  rw [ChunkWriter.buffer, hs]

theorem Works.isOpen {w : ChunkWriter} {c : Compressor} {b : Buffer} {room : Nat}
    (h : w.Works c b room) : w.isOpen := by
  obtain ⟨codec, staging, hs, -⟩ := h
  rw [ChunkWriter.isOpen, hs]

theorem Works.isUnopened {w : ChunkWriter} {c : Compressor} {b : Buffer} {room : Nat}
    (h : w.Works c b room) : w.isUnopened = false := by
  obtain ⟨codec, staging, hs, -⟩ := h
  rw [ChunkWriter.isUnopened, hs]

theorem Works.isClosed {w : ChunkWriter} {c : Compressor} {b : Buffer} {room : Nat}
    (h : w.Works c b room) : w.isClosed = false := by
  obtain ⟨codec, staging, hs, -⟩ := h
  rw [ChunkWriter.isClosed, hs]

/-- What leaves the buffer leaves the writer. -/
theorem Works.onBuffer_kept {α : Type} {w : ChunkWriter} {c : Compressor} {b : Buffer} {room : Nat}
    (h : w.Works c b room) {f : Buffer → α × Buffer} {result : α} (kept : f b = (result, b)) :
    w.onBuffer f = (result, w) := by
  obtain ⟨codec, staging, hs, -⟩ := h
  obtain ⟨logger, header, file, cursor, stage⟩ := w
  obtain rfl : stage = .writing codec b staging := hs
  simp only [onBuffer, kept]

section Flush

variable {w : ChunkWriter} {c : Compressor} {b : Buffer} {room : Nat}

/-- A flush that hands bytes to the file has a chunk to store, a place for its offset, and an offset
that fits it. -/
theorem output?_some {codec : Codec} {staging out : Bytes} (hs : w.stage = .writing codec b staging)
    (h : w.output? = some out) :
    b.isEmpty = false ∧ w.header.isFull = false ∧ w.header.checkOffset w.cursor = .ok () ∧
      ∃ n codec' staging', compressChunk codec b staging = (.ok n, codec', staging') ∧
        out = staging'.first n := by
  simp only [output?, hs] at h
  split at h
  · cases h
  next none =>
    simp only [not_or, Bool.not_eq_true, ne_eq, not_not] at none
    refine ⟨none.1, none.2.1, none.2.2, ?_⟩
    split at h
    · next n codec' staging' hx => exact ⟨n, codec', staging', hx, (Option.some.inj h).symm⟩
    · cases h

theorem compressChunk_kept {codec codec' : Codec} {b : Buffer} {staging staging' : Bytes}
    {result : Except Failure Nat} (h : compressChunk codec b staging = (result, codec', staging')) :
    codec'.compressor = codec.compressor ∧ staging'.size = staging.size := by
  obtain ⟨-, rfl, rfl⟩ : _ ∧ _ ∧ _ := by simpa [compressChunk] using h
  exact ⟨rfl, codec.compressor.size_staging _ _ _⟩

/-- Every compression is counted. -/
theorem calls_compressChunk {codec codec' : Codec} {b : Buffer} {staging staging' : Bytes}
    {result : Except Failure Nat} (h : compressChunk codec b staging = (result, codec', staging')) :
    codec'.calls = codec.calls + 1 := by
  obtain ⟨-, rfl, -⟩ : _ ∧ _ ∧ _ := by simpa [compressChunk] using h
  rfl

/-- A reported size that is taken lies inside the staging buffer. -/
theorem le_of_compressChunk {codec codec' : Codec} {b : Buffer} {staging staging' : Bytes}
    {n : Nat} (h : compressChunk codec b staging = (.ok n, codec', staging')) :
    n ≤ staging'.size := by
  obtain ⟨hn, -, rfl⟩ : _ ∧ _ ∧ _ := by simpa [compressChunk] using h
  split at hn
  · cases hn
  · split at hn
    · cases hn
    · next fits =>
      cases hn
      omega

theorem record_ok {header : Header} {offset : Nat} (full : header.isFull = false)
    (check : header.checkOffset offset = .ok ()) :
    header.record offset = (.ok (), { header with offsets := header.offsets.push offset }) := by
  simp [Header.record, full, check]

/-- A flush of an empty buffer is refused, and nothing else is looked at. -/
theorem Works.flush_empty (h : w.Works c b room) (none : b.isEmpty) (s : Session) :
    w.flush s = (.error .flushEmpty, w, s) := by
  obtain ⟨codec, staging, hs, -⟩ := h
  obtain ⟨logger, header, file, cursor, stage⟩ := w
  obtain rfl : stage = .writing codec b staging := hs
  rw [flush, if_pos none]

/-- With all declared chunks stored a flush is refused before anything is done. -/
theorem Works.flush_full (h : w.Works c b room) (some : b.isEmpty = false)
    (full : w.header.isFull) (s : Session) :
    w.flush s = (.error (.allChunksWritten w.file.path w.header.chunkCount), w, s) := by
  obtain ⟨codec, staging, hs, -⟩ := h
  obtain ⟨logger, header, file, cursor, stage⟩ := w
  obtain rfl : stage = .writing codec b staging := hs
  rw [flush, some, if_neg Bool.false_ne_true, if_pos full]

/-- So is one that the table cannot tell the start of. -/
theorem Works.flush_far (h : w.Works c b room) (some : b.isEmpty = false)
    (free : w.header.isFull = false) {e : Failure}
    (check : w.header.checkOffset w.cursor = .error e) (s : Session) :
    ∃ log, w.flush s = (.error e, w, { s with log }) := by
  obtain ⟨codec, staging, hs, -⟩ := h
  obtain ⟨logger, header, file, cursor, stage⟩ := w
  obtain rfl : stage = .writing codec b staging := hs
  rw [flush, some, if_neg Bool.false_ne_true, if_neg (by simpa using free)]
  simp only [check]
  exact ⟨_, rfl⟩

/-- The compressor itself refuses the chunk in the buffer. -/
def CompressorRefuses (w : ChunkWriter) (e : Failure) : Prop :=
  ∃ codec buffer staging, w.stage = .writing codec buffer staging ∧
    (codec.compressor.compress codec.calls buffer.filled staging).2 = .error e

/-- A chunk is not compressed if the compressor refuses it or reports more than there is room
for. -/
theorem compressChunk_error {codec codec' : Codec} {b : Buffer} {staging staging' : Bytes}
    {e : Failure} (h : compressChunk codec b staging = (.error e, codec', staging')) :
    e.kind = .compression ∨
      (codec.compressor.compress codec.calls b.filled staging).2 = .error e := by
  obtain ⟨failed, -, -⟩ : _ ∧ _ ∧ _ := by simpa [compressChunk] using h
  split at failed
  · next own =>
    cases failed
    exact .inr own
  · split at failed
    · cases failed
      exact .inl rfl
    · cases failed

/-- What a flush can come to. The rules of the writer or the compressor refuse the chunk, or it is
handed to the file, where the write fails or succeeds. -/
inductive Flushed (w : ChunkWriter) (s : Session) : Outcome × ChunkWriter × Session → Prop
  | forbidden {e : Failure} (log : Text) (none : w.output? = none)
      (rule : e.kind = .usage ∨ w.header.checkOffset w.cursor = .error e) :
      Flushed w s (.error e, w, { s with log })
  | uncompressed {e : Failure} {w' : ChunkWriter} {s' : Session} {c : Compressor} {b : Buffer}
      {room : Nat} (works : w.Works c b room) (none : w.output? = none)
      (fails : e.kind = .compression ∨ w.CompressorRefuses e) (works' : w'.Works c b room)
      (alike : Alike w w') (volume : s'.volume = s.volume) : Flushed w s (.error e, w', s')
  | unwritten {e : Failure} {w' : ChunkWriter} {s' : Session} {c : Compressor} {b : Buffer}
      {room : Nat} {out : Bytes} (works : w.Works c b room) (some : w.output? = some out)
      (write : w.file.writeAll out w.cursor s.volume = (.error e, s'.volume))
      (works' : w'.Works c b room) (alike : Alike w w') : Flushed w s (.error e, w', s')
  | stored {w' : ChunkWriter} {s' : Session} {c : Compressor} {b : Buffer} {room : Nat}
      {out : Bytes} (works : w.Works c b room) (some : w.output? = some out)
      (write : w.file.writeAll out w.cursor s.volume = (.ok (), s'.volume))
      (works' : w'.Works c b.clear room)
      (header : w'.header = { w.header with offsets := w.header.offsets.push w.cursor })
      (file : w'.file = w.file) (cursor : w'.cursor = w.cursor + out.size)
      (calls : w'.calls = w.calls + 1) : Flushed w s (.ok (), w', s')

/-- Every flush comes to one of these; by the branches of `flush`, in their order. -/
theorem flushed (w : ChunkWriter) (s : Session) : Flushed w s (w.flush s) := by
  obtain ⟨logger, header, file, cursor, stage⟩ := w
  cases stage with
  | unopened => exact .forbidden s.log rfl (.inl rfl)
  | closed => exact .forbidden s.log rfl (.inl rfl)
  | writing codec b staging =>
    rw [flush]
    by_cases empty : b.isEmpty
    · rw [if_pos empty]
      exact .forbidden s.log (by simp [output?, empty]) (.inl rfl)
    rw [if_neg empty]
    by_cases full : header.isFull
    · rw [if_pos full]
      exact .forbidden s.log (by simp [output?, full]) (.inl rfl)
    rw [if_neg full]
    cases check : header.checkOffset cursor with
    | error e => exact .forbidden _ (by simp [output?, check]) (.inr check)
    | ok u =>
      rcases hx : compressChunk codec b staging with ⟨result, codec', staging'⟩
      obtain ⟨hc, hr⟩ := compressChunk_kept hx
      have works : Works ⟨logger, header, file, cursor, .writing codec b staging⟩ codec.compressor b
          staging.size := ⟨codec, staging, rfl, rfl, rfl⟩
      cases result with
      | error e =>
        refine .uncompressed works (by simp [output?, hx]) ?_ ⟨codec', staging', rfl, hc, hr⟩
          ⟨rfl, rfl, rfl⟩ rfl
        exact (compressChunk_error hx).imp_right fun own => ⟨codec, b, staging, rfl, own⟩
      | ok n =>
        have some : output? ⟨logger, header, file, cursor, .writing codec b staging⟩ =
            .some (staging'.first n) := by
          simp [output?, hx, empty, full, check]
        dsimp only
        rcases write : file.writeAll (staging'.first n) cursor s.volume with ⟨outcome, v⟩
        cases outcome with
        | error e =>
          exact .unwritten works some write ⟨codec', staging', rfl, hc, hr⟩ ⟨rfl, rfl, rfl⟩
        | ok u =>
          rw [record_ok (by simpa using full) check]
          refine .stored works some write ⟨codec', staging', rfl, hc, hr⟩ rfl rfl ?_ ?_
          · rw [Bytes.size_first, Nat.min_eq_left (le_of_compressChunk hx)]
          · exact calls_compressChunk hx

/-- A flush that is refused before it writes changes nothing but what compressors are told. -/
theorem flush_refused (h : w.Works c b room) (none : w.output? = none) (s : Session) :
    ∃ e w' s', w.flush s = (.error e, w', s') ∧ w'.Works c b room ∧ Alike w w' ∧
      s'.volume = s.volume := by
  rcases hf : w.flush s with ⟨outcome, w', s'⟩
  cases hf ▸ w.flushed s with
  | forbidden log => exact ⟨_, _, _, rfl, h, .refl w, rfl⟩
  | uncompressed works _ _ works' alike volume =>
    obtain ⟨rfl, rfl, rfl⟩ := h.unique works
    exact ⟨_, _, _, rfl, works', alike, volume⟩
  | unwritten _ some => cases none.symm.trans some
  | stored _ some => cases none.symm.trans some

/-- A flush whose write succeeds records where the chunk is, moves on, and empties the buffer. -/
theorem flush_stored (h : w.Works c b room) {out : Bytes} (some : w.output? = some out)
    {s : Session} {v' : Volume} (write : w.file.writeAll out w.cursor s.volume = (.ok (), v')) :
    ∃ w' s', w.flush s = (.ok (), w', s') ∧ w'.Works c b.clear room ∧
      w'.header = { w.header with offsets := w.header.offsets.push w.cursor } ∧
      w'.file = w.file ∧ w'.cursor = w.cursor + out.size ∧ s'.volume = v' := by
  rcases hf : w.flush s with ⟨outcome, w', s'⟩
  cases hf ▸ w.flushed s with
  | forbidden log none => cases none.symm.trans some
  | uncompressed _ none => cases none.symm.trans some
  | unwritten _ some' write' =>
    cases some.symm.trans some'
    cases write.symm.trans write'
  | stored works some' write' works' header file cursor =>
    obtain ⟨rfl, rfl, rfl⟩ := h.unique works
    cases some.symm.trans some'
    cases write.symm.trans write'
    exact ⟨_, _, rfl, works', header, file, cursor, rfl⟩

/-- What a flush of a writer at work can fail with, step by step. -/
theorem flush_error {codec : Codec} {b : Buffer} {staging : Bytes}
    (hs : w.stage = .writing codec b staging) {s : Session} {e : Failure}
    (failed : (w.flush s).1 = .error e) :
    e = .flushEmpty ∨ e = .allChunksWritten w.file.path w.header.chunkCount ∨
      w.header.checkOffset w.cursor = .error e ∨ (compressChunk codec b staging).1 = .error e ∨
      ∃ out, (w.file.writeAll out w.cursor s.volume).1 = .error e := by
  obtain ⟨logger, header, file, cursor, stage⟩ := w
  obtain rfl : stage = .writing codec b staging := hs
  rw [flush] at failed
  by_cases empty : b.isEmpty
  · rw [if_pos empty] at failed
    cases failed
    exact .inl rfl
  rw [if_neg empty] at failed
  by_cases full : header.isFull
  · rw [if_pos full] at failed
    cases failed
    exact .inr (.inl rfl)
  rw [if_neg full] at failed
  cases check : header.checkOffset cursor with
  | error far =>
    rw [check] at failed
    cases failed
    exact .inr (.inr (.inl rfl))
  | ok u =>
    rw [check] at failed
    rcases hx : compressChunk codec b staging with ⟨refused | n, codec', staging'⟩
    · rw [hx] at failed
      cases failed
      exact .inr (.inr (.inr (.inl rfl)))
    · simp only [hx] at failed
      rcases write : file.writeAll (staging'.first n) cursor s.volume with ⟨unwritten | u, v⟩
      · simp only [write] at failed
        cases failed
        exact .inr (.inr (.inr (.inr ⟨_, congrArg Prod.fst write⟩)))
      · simp only [write, record_ok (by simpa using full) check] at failed
        cases failed

end Flush

/-! ## Runs -/

/-- What an owner does with a writer between opening and closing it. -/
inductive Call where
  | buffer (call : Buffer.Call)
  | flush

/-- A writer and what it shares after a call, whatever the call reports. -/
def perform (x : ChunkWriter × Session) : Call → ChunkWriter × Session
  | .buffer call => ((x.1.onBuffer call.apply).2, x.2)
  | .flush => (x.1.flush x.2).2

def run (x : ChunkWriter × Session) : List Call → ChunkWriter × Session
  | [] => x
  | call :: rest => run (perform x call) rest

/-- What a call stores: the chunk of a flush that is accepted. -/
def storedBy (x : ChunkWriter × Session) : Call → List Bytes
  | .buffer _ => []
  | .flush => if (x.1.flush x.2).1 = .ok () then x.1.output?.toList else []

/-- The chunks that a run stores, in order. -/
def stored (x : ChunkWriter × Session) : List Call → List Bytes
  | [] => []
  | call :: rest => storedBy x call ++ stored (perform x call) rest

/-- Every chunk that the run hands to the file is written. -/
def ChunksWritten (x : ChunkWriter × Session) : List Call → Prop
  | [] => True
  | call :: rest =>
    (call = .flush → ∀ out, x.1.output? = some out →
      (x.1.file.writeAll out x.1.cursor x.2.volume).1 = .ok ()) ∧
    ChunksWritten (perform x call) rest

theorem run_append (x : ChunkWriter × Session) (calls more : List Call) :
    run x (calls ++ more) = run (run x calls) more := by
  induction calls generalizing x with
  | nil => rfl
  | cons call rest ih => exact ih (perform x call)

theorem chunksWritten_append (x : ChunkWriter × Session) (calls more : List Call) :
    ChunksWritten x (calls ++ more) ↔ ChunksWritten x calls ∧ ChunksWritten (run x calls) more := by
  induction calls generalizing x with
  | nil => simp [ChunksWritten, run]
  | cons call rest ih =>
    rw [List.cons_append, ChunksWritten, ih, ChunksWritten, and_assoc]
    rfl

/-- The header, the cursor and the file of a writer that has stored chunks: the header knows where
each starts, and behind its room the file holds them back to back. What the room of the header holds
is left open, as the file may still be shorter. -/
structure Stands (p : Place) (blank : Header) (chunks : List Bytes) (w : ChunkWriter) (v : Volume) :
    Prop where
  header : w.header = { blank with offsets := (Layout.starts blank.size chunks).toArray }
  within : chunks.length ≤ blank.capacity
  cursor : w.cursor = blank.size + (Bytes.joined chunks).length
  file : ∃ content, w.file.Holds v p content ∧
    content.toText.drop blank.size = Bytes.joined chunks

section Stands

variable {p : Place} {blank : Header} {chunks : List Bytes} {w w' : ChunkWriter} {v v' : Volume}

theorem Stands.of_alike (h : Stands p blank chunks w v) (a : Alike w w') :
    Stands p blank chunks w' v where
  header := a.header.trans h.header
  within := h.within
  cursor := a.cursor.trans h.cursor
  file := by rw [a.file]; exact h.file

theorem Stands.recorded (h : Stands p blank chunks w v) : w.header.recorded = chunks.length := by
  rw [h.header, Header.recorded]
  simp

/-- A chunk written at the cursor and recorded is one more chunk. -/
theorem Stands.stored (h : Stands p blank chunks w v) {out : Bytes}
    (room : w.header.isFull = false) (write : w.file.writeAll out w.cursor v = (.ok (), v'))
    (header : w'.header = { w.header with offsets := w.header.offsets.push w.cursor })
    (file : w'.file = w.file) (cursor : w'.cursor = w.cursor + out.size) :
    Stands p blank (chunks ++ [out]) w' v' := by
  obtain ⟨content, holds, body⟩ := h.file
  have joined := Bytes.joined_concat chunks out
  refine ⟨?_, ?_, ?_, ?_⟩
  · simp [header, h.header, h.cursor, Layout.starts_concat]
  · have := h.recorded
    simp only [Header.isFull, decide_eq_false_iff_not, Nat.not_le] at room
    have capacity : w.header.capacity = blank.capacity := by rw [h.header]; rfl
    rw [List.length_append, List.length_singleton]
    omega
  · rw [cursor, h.cursor, joined, List.length_append, Bytes.length_toText, Nat.add_assoc]
  · rw [file]
    rw [h.cursor] at write
    exact ⟨_, (holds.writeAll_ok write).1, joined ▸ Bytes.drop_patch_end body⟩

end Stands

/-- One call keeps a writer at work, and what it stores comes behind the chunks before. -/
theorem perform_stands {p : Place} {blank : Header} {chunks : List Bytes}
    {x : ChunkWriter × Session} {c : Compressor} {b : Buffer} {room : Nat} (call : Call)
    (works : x.1.Works c b room) (h : Stands p blank chunks x.1 x.2.volume)
    (written : call = .flush → ∀ out, x.1.output? = some out →
      (x.1.file.writeAll out x.1.cursor x.2.volume).1 = .ok ()) :
    ∃ b', (perform x call).1.Works c b' room ∧
      Stands p blank (chunks ++ storedBy x call) (perform x call).1 (perform x call).2.volume ∧
      FileHandle.Follows p x.2.volume (perform x call).2.volume := by
  obtain ⟨w, s⟩ := x
  cases call with
  | buffer call =>
    obtain ⟨codec, staging, hs, hc, hr⟩ := works
    obtain ⟨logger, header, file, cursor, stage⟩ := w
    obtain rfl : stage = .writing codec b staging := hs
    refine ⟨(call.apply b).2, ⟨codec, staging, rfl, hc, hr⟩, ?_, .refl _ _⟩
    rw [storedBy, List.append_nil]
    exact h.of_alike ⟨rfl, rfl, rfl⟩
  | flush =>
    dsimp only at written works h
    cases ho : w.output? with
    | none =>
      obtain ⟨e, w', s', hf, works', alike, volume⟩ := flush_refused works ho s
      refine ⟨b, ?_, ?_, ?_⟩
      · simpa [perform, hf] using works'
      · simpa [perform, storedBy, hf, volume] using h.of_alike alike
      · simpa [perform, hf, volume] using FileHandle.Follows.refl p s.volume
    | some out =>
      obtain ⟨content, holds, _⟩ := h.file
      have ok : w.file.writeAll out w.cursor s.volume =
          (.ok (), (w.file.writeAll out w.cursor s.volume).2) := Prod.ext (written rfl out ho) rfl
      obtain ⟨w', s', hf, works', header, file, cursor, volume⟩ := flush_stored works ho ok
      obtain ⟨codec, staging, hs, _⟩ := works
      have stands := h.stored (output?_some hs ho).2.1 ok header file cursor
      refine ⟨b.clear, ?_, ?_, ?_⟩
      · simpa [perform, hf] using works'
      · simpa [perform, storedBy, hf, ho, volume] using stands
      · simpa [perform, hf, volume] using (holds.writeAll_ok ok).2

/-- A run keeps a writer at work; by induction on the calls, with the chunks before it open. -/
theorem run_stands {p : Place} {blank : Header} {chunks : List Bytes} {x : ChunkWriter × Session}
    {c : Compressor} {b : Buffer} {room : Nat} {calls : List Call} (works : x.1.Works c b room)
    (h : Stands p blank chunks x.1 x.2.volume) (written : ChunksWritten x calls) :
    ∃ b', (run x calls).1.Works c b' room ∧
      Stands p blank (chunks ++ stored x calls) (run x calls).1 (run x calls).2.volume ∧
      FileHandle.Follows p x.2.volume (run x calls).2.volume := by
  induction calls generalizing x chunks b with
  | nil => exact ⟨b, works, by simpa [stored, run] using h, .refl _ _⟩
  | cons call rest ih =>
    obtain ⟨b', works', h', follows⟩ := perform_stands call works h written.1
    obtain ⟨b'', works'', h'', follows'⟩ := ih works' h' written.2
    exact ⟨b'', works'', by simpa [stored, run] using h'', follows.trans follows'⟩

/-! ## Opening and closing -/

/-- The built-in compressor of an opening is handed over like any other, unless the opening is
refused before there is one. -/
theorem openBuiltin_cases (w : ChunkWriter) (path : Text) (params : Parameters) (s : Session)
    (z : Deflater) :
    (∃ e, w.openBuiltin path params s z = (.error e, w, s)) ∨
      ∃ c, params.check = .ok () ∧ Compressor.ofType params.compression z = .ok c ∧
        w.openBuiltin path params s z = w.openWith path params (some c) s := by
  unfold openBuiltin
  by_cases fresh : w.isUnopened
  · rw [fresh]
    cases check : params.check with
    | error e => exact .inl ⟨e, rfl⟩
    | ok u =>
      cases type : Compressor.ofType params.compression z with
      | error e => exact .inl ⟨e, rfl⟩
      | ok c => exact .inr ⟨c, rfl, rfl, rfl⟩
  · rw [Bool.not_eq_true] at fresh
    rw [fresh]
    exact .inl ⟨_, rfl⟩

/-- An opening that is accepted gives the writer the header of its parameters. -/
theorem openWith_header {w w' : ChunkWriter} {path : Text} {params : Parameters} {c : Compressor}
    {s s' : Session} (h : w.openWith path params (some c) s = (.ok (), w', s')) :
    w'.header = params.header c.type := by
  unfold openWith at h
  dsimp only [Session.handOver] at h
  split at h
  · cases h
  split at h
  · cases h
  rcases ho : w.file.openAt path s.volume with ⟨outcome, f, v⟩
  rw [ho] at h
  cases outcome with
  | error e => cases h
  | ok u =>
    cases h
    rfl

/-- A writer that is opened stands at the end of its header before the empty file that the path now
leads to. -/
theorem openWith_ok {w w' : ChunkWriter} {path : Text} {params : Parameters} {c : Compressor}
    {s s' : Session} (file : s.volume.LeadsToFile path)
    (h : w.openWith path params (some c) s = (.ok (), w', s')) :
    ∃ p, s'.volume.find path = .ok p ∧ FileHandle.Follows p s.volume s'.volume ∧
      w'.Works c (.new params.chunkSize.toInt.toNat) (c.bound params.chunkSize.toInt.toNat) ∧
      w'.header = params.header c.type ∧ w'.cursor = (params.header c.type).size ∧
      w'.file.Holds s'.volume p ByteArray.empty := by
  unfold openWith at h
  dsimp only [Session.handOver] at h
  split at h
  · cases h
  split at h
  · cases h
  cases ho : w.file.openAt path s.volume with
  | mk outcome rest =>
    obtain ⟨f, v⟩ := rest
    rw [ho] at h
    cases outcome with
    | error e => cases h
    | ok u =>
      obtain ⟨p, found, holds, follows⟩ := FileHandle.openAt_ok file ho
      cases h
      exact ⟨p, found, follows, ⟨_, _, rfl, rfl, by simp⟩, rfl, rfl, holds⟩

/-- A writer that is opened stands at the end of its header with no chunk in an empty file. -/
theorem openWith_stands {w w' : ChunkWriter} {path : Text} {params : Parameters} {c : Compressor}
    {s s' : Session} (file : s.volume.LeadsToFile path)
    (h : w.openWith path params (some c) s = (.ok (), w', s')) :
    ∃ p, s'.volume.find path = .ok p ∧ FileHandle.Follows p s.volume s'.volume ∧
      w'.Works c (.new params.chunkSize.toInt.toNat) (c.bound params.chunkSize.toInt.toNat) ∧
      Stands p (params.header c.type) [] w' s'.volume := by
  obtain ⟨p, found, follows, works, header, cursor, holds⟩ := openWith_ok file h
  refine ⟨p, found, follows, works, header, Nat.zero_le _, cursor, _, holds, ?_⟩
  simp [Bytes.joined]

/-- The flush that closing starts with, if anything is in the buffer. -/
def pending (w : ChunkWriter) : List Call := if w.buffer.isEmpty then [] else [.flush]

theorem flushPending_eq_run (w : ChunkWriter) (s : Session) :
    (w.flushPending s).2 = run (w, s) w.pending := by
  unfold flushPending pending
  split <;> rfl

/-- What a close reports whose pending flush and header write have succeeded. -/
def closingOutcome (w : ChunkWriter) (closing : Outcome) : Outcome :=
  match closing with
  | .error e => .error e
  | .ok () =>
    if w.header.recorded < w.header.capacity then
      .error (.closedShort w.header.recorded w.header.chunkCount)
    else .ok ()

/-- A close that is not refused flushes what is pending and writes the header, then releases all
that the writer holds; after a failure nothing but the release follows. -/
theorem close_of_isOpen {w : ChunkWriter} (h : w.isOpen) (s : Session) :
    w.close s =
      match w.flushPending s with
      | (.error e, w, s) => (.error e, (w.release (.error e) s).2)
      | (.ok (), w, s) =>
        match w.release (w.writeHeader s).1 (w.writeHeader s).2 with
        | (.error e, w, s) => (.error e, w, s)
        | (.ok (), w, s) => w.conclude s := by
  unfold close
  split
  · next stage => simp [isOpen, stage] at h
  · next stage => simp [isOpen, stage] at h
  · rcases w.flushPending s with ⟨outcome, w', s'⟩
    cases outcome <;> rfl

/-- Closing behind a pending flush and a header write that succeed only closes the file. -/
theorem close_spec {w : ChunkWriter} {c : Compressor} {b : Buffer} {room : Nat} {s s₁ : Session}
    {w₁ : ChunkWriter} {v : Volume} (works : w.Works c b room)
    (flushed : w.flushPending s = (.ok (), w₁, s₁))
    (written : w₁.file.writeAll w₁.header.toBytes 0 s₁.volume = (.ok (), v)) :
    ∃ w' s', w.close s = (w₁.closingOutcome (w₁.file.close v).1, w', s') ∧ w'.stage = .closed ∧
      w'.header = w₁.header ∧ w'.cursor = w₁.cursor ∧ s'.volume = (w₁.file.close v).2.2 := by
  obtain ⟨codec, staging, hs, _⟩ := works
  unfold close
  simp only [hs, flushed, writeHeader, written, release]
  rcases hc : w₁.file.close v with ⟨closing, file, volume⟩
  unfold closingOutcome
  cases closing with
  | error e =>
    refine ⟨_, _, rfl, rfl, rfl, rfl, ?_⟩
    cases w₁.stage <;> rfl
  | ok u =>
    simp only [conclude]
    split
    · refine ⟨_, _, rfl, rfl, rfl, rfl, ?_⟩
      cases w₁.stage <;> rfl
    · refine ⟨_, _, rfl, rfl, rfl, rfl, ?_⟩
      cases w₁.stage <;> rfl

/-- Closing behind a pending flush that fails reports its failure and only closes the file. -/
theorem close_failed {w w₁ : ChunkWriter} {c : Compressor} {b : Buffer} {room : Nat}
    {s s₁ : Session} {e : Failure} (works : w.Works c b room)
    (flushed : w.flushPending s = (.error e, w₁, s₁)) :
    ∃ w' s', w.close s = (.error e, w', s') ∧ w'.stage = .closed ∧ w'.header = w₁.header ∧
      w'.cursor = w₁.cursor ∧ s'.volume = (w₁.file.close s₁.volume).2.2 := by
  rw [close_of_isOpen works.isOpen, flushed]
  simp only [release]
  refine ⟨_, _, rfl, rfl, rfl, rfl, ?_⟩
  cases w₁.stage <;> rfl

/-- The recorded offset of a chunk is its place behind the header and the chunks before. -/
theorem Stands.offset {p : Place} {blank : Header} {chunks : List Bytes} {w : ChunkWriter}
    {v : Volume} (h : Stands p blank chunks w v) {i : Nat} (hi : i < chunks.length) :
    w.header.offsets[i]? = some (blank.size + (Bytes.joined (chunks.take i)).length) := by
  rw [h.header, List.getElem?_toArray, Layout.starts_getElem?, if_pos hi]

/-- The header that is written takes the room that was left for it. -/
theorem Stands.size_header {p : Place} {blank : Header} {chunks : List Bytes} {w : ChunkWriter}
    {v : Volume} (h : Stands p blank chunks w v) : w.header.toBytes.size = blank.size := by
  have recorded : w.header.recorded ≤ w.header.capacity := by
    rw [h.recorded, h.header]
    exact h.within
  rw [Header.size_toBytes _ recorded, h.header]
  rfl

/-- The header written into its room makes the file whole: header, then chunks. -/
theorem Stands.finish {p : Place} {blank : Header} {chunks : List Bytes} {w : ChunkWriter}
    {v v' : Volume} (h : Stands p blank chunks w v)
    (write : w.file.writeAll w.header.toBytes 0 v = (.ok (), v')) :
    ∃ content, w.file.Holds v' p content ∧ FileHandle.Follows p v v' ∧
      content.toText = w.header.toBytes.toText ++ Bytes.joined chunks := by
  obtain ⟨content, holds, body⟩ := h.file
  obtain ⟨after, follows⟩ := holds.writeAll_ok write
  refine ⟨_, after, follows, ?_⟩
  rw [Bytes.toText_patch_front (by rw [h.size_header]; exact blank.size_pos), h.size_header, body]

end ChunkWriter
end ForwardIndex
