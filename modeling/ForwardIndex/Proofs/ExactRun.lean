import ForwardIndex.Proofs.Encoder
import ForwardIndex.Proofs.FixedWriter
import ForwardIndex.Proofs.VariableRoundTrip

/-!
# Exact runs

Both encoders count: as long as there is room each is filling a window, and once the window after
the last declared chunk is full it is stuck with it. So all that a run of puts and a close reports
follows from the number of values that fit.
-/
set_option autoImplicit false
namespace ForwardIndex

open ChunkWriter (Steady)
open Encoder (Allowed Counts)

namespace FixedWriter

variable {job : Job} {width docs : Nat} {w : FixedWriter} {s : Session}

/-- All declared chunks are stored, and the buffer is full with another. -/
def Stuck (job : Job) (w : FixedWriter) (s : Session) : Prop :=
  ∃ raw b, Steady job raw b w.core s ∧ job.blank.capacity ≤ raw.length ∧ b.isFull

/-- So far these values were put that have the declared width. -/
inductive Counted (job : Job) (width docs : Nat) : List FixedValue → FixedWriter → Session → Prop
  | filling {full : List (List FixedValue)} {pending : List FixedValue} {w : FixedWriter}
      {s : Session} (h : Filling job width docs full pending w s) :
      Counted job width docs (full.flatten ++ pending) w s
  | stuck {values : List FixedValue} {w : FixedWriter} {s : Session} (h : Stuck job w s)
      (many : (job.blank.capacity + 1) * docs ≤ values.length) : Counted job width docs values w s

theorem Counted.steady {values : List FixedValue} (h : Counted job width docs values w s) :
    ∃ raw b, Steady job raw b w.core s := by
  cases h with
  | filling h =>
    obtain ⟨b, steady, -⟩ := h.steady
    exact ⟨_, b, steady⟩
  | stuck h =>
    obtain ⟨raw, b, steady, -⟩ := h
    exact ⟨raw, b, steady⟩

/-- A value of another width is refused and changes nothing. -/
theorem put_unfit {raw : List Bytes} {b : Buffer} (steady : Steady job raw b w.core s)
    (shape : Shape job width docs) {v : FixedValue} (hv : v.width ≠ width) :
    ∃ e, e.kind = .usage ∧ w.put v s = (.error e, w, s) := by
  have entry : w.core.header.entrySize.toInt ≠ v.width := by
    rw [steady.header]
    intro same
    exact hv (Int.ofNat_inj.1 (same.symm.trans shape.entrySize))
  refine ⟨.widthMismatch v.width w.core.header.entrySize, rfl, ?_⟩
  rw [put, steady.isOpen]
  simp only [Bool.not_true, Bool.false_eq_true, if_false]
  rw [if_pos entry]

/-- A writer that is stuck refuses every value and does not change. -/
theorem Stuck.put (h : Stuck job w s) (shape : Shape job width docs) {v : FixedValue}
    (hv : v.width = width) : ∃ e, e.kind = .usage ∧ w.put v s = (.error e, w, s) := by
  obtain ⟨raw, b, steady, all, full⟩ := h
  have entry : w.core.header.entrySize.toInt = v.width := by
    rw [steady.header, hv]
    exact shape.entrySize
  have far : b.capacity < b.position + (Bytes.ofText v.bytes).size := by
    have full : b.position = b.capacity := of_decide_eq_true full
    have positive := shape.width_pos
    rw [Bytes.size_ofText, v.length_bytes, hv]
    omega
  have stored := steady.works.onBuffer_kept (f := (·.append (Bytes.ofText v.bytes)))
    (Buffer.append_refused far)
  refine ⟨.chunkFull, rfl, ?_⟩
  rw [FixedWriter.put, steady.isOpen, stored]
  simp only [Bool.not_true, Bool.false_eq_true, if_false, entry, ne_eq, not_true]

theorem Filling.length {full : List (List FixedValue)} {pending : List FixedValue}
    (h : Filling job width docs full pending w s) :
    (full.flatten ++ pending).length = full.length * docs + pending.length := by
  rw [List.length_append, Layout.length_flatten_full h.lengths]

theorem Filling.within {full : List (List FixedValue)} {pending : List FixedValue}
    (h : Filling job width docs full pending w s) : full.length ≤ job.blank.capacity := by
  obtain ⟨b, steady, -⟩ := h.steady
  simpa using steady.within

/-- A value that fits is one more. It is refused where it completes a window too many. -/
theorem Filling.count {full : List (List FixedValue)} {pending rest : List FixedValue}
    (shape : Shape job width docs) (calm : job.Calm)
    (h : Filling job width docs full pending w s) {v : FixedValue} (hv : v.width = width)
    (allowed : Allowed job docs rawChunk (full.flatten ++ pending ++ v :: rest)) :
    Counted job width docs (full.flatten ++ pending ++ [v]) (w.put v s).2.1 (w.put v s).2.2 ∧
      if (full.flatten ++ pending).length + 1 < (job.blank.capacity + 1) * docs then
        (w.put v s).1 = .ok ()
      else (w.put v s).1.Misused := by
  have within := Nat.mul_le_mul_right docs h.within
  have short := h.short
  by_cases many : pending.length + 1 = docs ∧ job.blank.capacity ≤ full.length
  · obtain ⟨complete, all⟩ := many
    obtain ⟨b, core, steady, filled, put⟩ := h.put_eq shape hv
    have widths : ∀ u ∈ pending ++ [v], u.width = width :=
      List.forall_mem_append.2 ⟨h.widths, by simpa using hv⟩
    have some : b.isEmpty = false := isEmpty_rawChunk shape.width_pos widths (by simp) filled
    obtain ⟨e, usage, flush⟩ := steady.flush_full some (by simpa using all)
    have declared : full.length = job.blank.capacity := Nat.le_antisymm h.within all
    have stuck : Stuck job ⟨core⟩ s := by
      refine ⟨_, b, steady, by simpa using all, decide_eq_true ?_⟩
      rw [← b.size_filled, filled, size_rawChunk widths, List.length_append, List.length_singleton,
        complete, steady.room, shape.capacity]
    rw [put, if_pos complete, flush, List.length_append, Layout.length_flatten_full h.lengths,
      declared, Nat.succ_mul, if_neg (by omega)]
    refine ⟨.stuck stuck ?_, e, usage, rfl⟩
    rw [List.length_append, h.length, declared, Nat.succ_mul, List.length_singleton]
    omega
  · have room (complete : pending.length + 1 = docs) : job.HasRoom (full.map rawChunk) := by
      rw [List.append_assoc] at allowed
      exact allowed.hasRoom shape.docs_pos h.lengths (by simp) (by omega)
    have ok := h.takes shape hv calm room
    rcases put : w.put v s with ⟨outcome, w', s'⟩
    rw [put] at ok
    obtain rfl : outcome = .ok () := ok
    obtain ⟨full', pending', filling, sum⟩ := h.took shape hv put
    refine ⟨sum ▸ .filling filling, ?_⟩
    rw [h.length, Nat.succ_mul, if_pos]
    by_cases complete : pending.length + 1 = docs
    · have few : full.length < job.blank.capacity := by omega
      have more := Nat.mul_le_mul_right docs (Nat.succ_le_of_lt few)
      rw [Nat.succ_mul] at more
      omega
    · omega

/-- A close with a chunk too many in the buffer is refused, and the file stays as it is. -/
theorem close_full {raw : List Bytes} {b : Buffer} (steady : Steady job raw b w.core s)
    (some : b.isEmpty = false) (all : job.blank.capacity ≤ raw.length) :
    (w.close s).1.Misused ∧ ∀ q, (w.close s).2.2.volume.node? q = s.volume.node? q := by
  obtain ⟨e, usage, misused⟩ := steady.flush_full some all
  obtain ⟨e', core, s', failed, closed, -, same⟩ :=
    steady.close_refused some fun room => Nat.not_lt.2 all room.1
  rw [misused] at failed
  cases failed
  rw [FixedWriter.close, closed]
  exact ⟨⟨e, usage, rfl⟩, same⟩

/-- Closing stores what is pending, unless that is a chunk too many. -/
theorem Filling.ends {full : List (List FixedValue)} {pending : List FixedValue}
    (shape : Shape job width docs) (h : Filling job width docs full pending w s)
    (allowed : Allowed job docs rawChunk (full.flatten ++ pending)) :
    Encoder.Ends encoder job (Layout.chunked docs rawChunk (full.flatten ++ pending)) w s := by
  refine ⟨fun within => ?_, fun beyond => ?_⟩
  · rw [Allowed, List.take_of_length_le within] at allowed
    exact h.close shape allowed
  · obtain ⟨b, steady, filled⟩ := h.steady
    have within := h.within
    rw [Layout.chunked_append shape.docs_pos h.lengths, List.length_append, List.length_map]
      at beyond
    have some : pending ≠ [] := by
      rintro rfl
      rw [Layout.chunked_nil shape.docs_pos, List.length_nil] at beyond
      omega
    rw [Layout.chunked_of_short some (Nat.le_of_lt h.short), List.length_singleton] at beyond
    exact close_full steady (isEmpty_rawChunk shape.width_pos h.widths some filled)
      (by rw [List.length_map]; omega)

theorem Stuck.ends (shape : Shape job width docs) (h : Stuck job w s) {values : List FixedValue}
    (many : (job.blank.capacity + 1) * docs ≤ values.length) :
    Encoder.Ends encoder job (Layout.chunked docs rawChunk values) w s := by
  obtain ⟨raw, b, steady, all, full⟩ := h
  have some : b.isEmpty = false := by
    have full : b.position = b.capacity := of_decide_eq_true full
    have := Nat.mul_pos shape.docs_pos shape.width_pos
    rw [steady.room, shape.capacity] at full
    exact decide_eq_false (by omega)
  refine ⟨fun within => ?_, fun _ => close_full steady some all⟩
  exact absurd within (Nat.not_le.2 (Layout.lt_length_chunked shape.docs_pos many))

theorem counts (shape : Shape job width docs) (calm : job.Calm) :
    Counts encoder (fun v => v.width = width) rawChunk job docs (Counted job width docs) where
  docs_pos := shape.docs_pos
  small widths := shape.small fun v hv => of_decide_eq_true (widths v hv)
  steady h := h.steady
  unfit h hv := by
    obtain ⟨raw, b, steady⟩ := h.steady
    exact put_unfit steady shape (of_decide_eq_false hv)
  fit h hv allowed := by
    have hv := of_decide_eq_true hv
    cases h with
    | filling h => exact h.count shape calm hv allowed
    | stuck h many =>
      obtain ⟨e, usage, refused⟩ := h.put shape hv
      simp only [encoder, refused]
      refine ⟨.stuck h ?_, ?_⟩
      · rw [List.length_append]
        omega
      · rw [if_neg (by omega)]
        exact ⟨e, usage, rfl⟩
  close h allowed := by
    cases h with
    | filling h => exact h.ends shape allowed
    | stuck h many => exact h.ends shape many

end FixedWriter

namespace VariableWriter

variable {job : Job} {docs longest : Nat} {full : List (List Bytes)} {pending : List Bytes}
  {w : VariableWriter} {s : Session}

/-- So far these values were put that are not too long. -/
inductive Counted (job : Job) (docs longest : Nat) : List Bytes → VariableWriter → Session → Prop
  | filling {full : List (List Bytes)} {pending : List Bytes} {w : VariableWriter} {s : Session}
      (h : Filling job docs longest full pending w s) (free : pending.length < docs) :
      Counted job docs longest (full.flatten ++ pending) w s
  | stuck {full : List (List Bytes)} {pending values : List Bytes} {w : VariableWriter}
      {s : Session} (h : Filling job docs longest full pending w s)
      (complete : pending.length = docs) (all : job.blank.capacity ≤ full.length)
      (many : (job.blank.capacity + 1) * docs ≤ values.length) : Counted job docs longest values w s

theorem Counted.exists_filling {values : List Bytes} (h : Counted job docs longest values w s) :
    ∃ full pending, Filling job docs longest full pending w s := by
  cases h with
  | filling h => exact ⟨_, _, h⟩
  | stuck h => exact ⟨_, _, h⟩

theorem Filling.length (h : Filling job docs longest full pending w s) :
    (full.flatten ++ pending).length = full.length * docs + pending.length := by
  rw [List.length_append, Layout.length_flatten_full h.lengths]

theorem Filling.within (h : Filling job docs longest full pending w s) :
    full.length ≤ job.blank.capacity := by
  obtain ⟨b, steady, -⟩ := h.steady
  simpa using steady.within

/-- A window too many is refused. -/
theorem Filling.finish_misused (shape : Shape job docs longest)
    (h : Filling job docs longest full pending w s) (all : job.blank.capacity ≤ full.length) :
    (w.finishChunk s).1.Misused := by
  obtain ⟨b, core, completed, steady, filled, -⟩ := h.complete
  obtain ⟨e, usage, refused⟩ := steady.flush_full
    (isEmpty_rawChunk shape.docs_pos h.short filled) (by rw [List.length_map]; exact all)
  unfold finishChunk
  simp only [completed, refused]
  exact ⟨e, usage, rfl⟩

/-- A value that fits is one more. It is refused where it completes a window too many. -/
theorem Filling.count (shape : Shape job docs longest) (calm : job.Calm)
    (h : Filling job docs longest full pending w s) (free : pending.length < docs)
    {v : Bytes} (hv : v.size ≤ longest) {rest : List Bytes}
    (allowed : Allowed job docs (rawChunk docs) (full.flatten ++ pending ++ v :: rest)) :
    Counted job docs longest (full.flatten ++ pending ++ [v]) (w.put v s).2.1 (w.put v s).2.2 ∧
      if (full.flatten ++ pending).length + 1 < (job.blank.capacity + 1) * docs then
        (w.put v s).1 = .ok ()
      else (w.put v s).1.Misused := by
  have within := Nat.mul_le_mul_right docs h.within
  by_cases many : pending.length + 1 = docs ∧ job.blank.capacity ≤ full.length
  · obtain ⟨complete, all⟩ := many
    obtain ⟨w', filling, put⟩ := h.put_eq shape hv free
    have length : (pending ++ [v]).length = docs := by simpa using complete
    have misused := filling.finish_misused shape all
    obtain ⟨e, w'', s'', finish, filling'⟩ := filling.finish_full_refused shape length
      fun room => Nat.not_lt.2 all (by simpa using room.1)
    have declared : full.length = job.blank.capacity := Nat.le_antisymm h.within all
    rw [finish] at misused
    rw [put, if_pos complete, finish, h.length, declared, Nat.succ_mul, if_neg (by omega)]
    refine ⟨.stuck filling' length all ?_, misused⟩
    rw [List.length_append, h.length, declared, Nat.succ_mul, List.length_singleton]
    omega
  · have room (complete : pending.length + 1 = docs) : job.HasRoom (full.map (rawChunk docs)) := by
      rw [List.append_assoc] at allowed
      exact allowed.hasRoom shape.docs_pos h.lengths (by simp) (by omega)
    have ok := h.takes shape free hv calm room
    rcases put : w.put v s with ⟨outcome, w', s'⟩
    rw [put] at ok
    obtain rfl : outcome = .ok () := ok
    obtain ⟨full', pending', filling, free', sum⟩ := h.took shape free hv put
    refine ⟨sum ▸ .filling filling free', ?_⟩
    rw [h.length, Nat.succ_mul, if_pos]
    by_cases complete : pending.length + 1 = docs
    · have few : full.length < job.blank.capacity := by omega
      have more := Nat.mul_le_mul_right docs (Nat.succ_le_of_lt few)
      rw [Nat.succ_mul] at more
      omega
    · omega

/-- Closing with a window too many is refused, and the file stays as it is. -/
theorem Filling.close_full (shape : Shape job docs longest)
    (h : Filling job docs longest full pending w s) (some : pending ≠ [])
    (all : job.blank.capacity ≤ full.length) :
    (w.close s).1.Misused ∧ ∀ q, (w.close s).2.2.volume.node? q = s.volume.node? q := by
  have none : ¬ job.HasRoom (full.map (rawChunk docs)) :=
    fun room => Nat.not_lt.2 all (by simpa using room.1)
  obtain ⟨e, usage, misused⟩ := h.finish_misused shape all
  obtain ⟨b, e', core, log, finish, -, steady, filled, -⟩ := h.finish_refused shape none
  obtain ⟨e'', core', s'', -, closed, -, same⟩ := (steady.logged log).close_refused
    (isEmpty_rawChunk shape.docs_pos h.short filled) none
  obtain ⟨e₁, kind, ended⟩ := h.close_unfinished some finish
  rw [finish] at misused
  cases misused
  rw [ended, closed]
  exact ⟨⟨e₁, kind.trans usage, rfl⟩, same⟩

/-- Closing stores what is pending, unless that is a chunk too many. -/
theorem Filling.close_ends (shape : Shape job docs longest)
    (h : Filling job docs longest full pending w s)
    (allowed : Allowed job docs (rawChunk docs) (full.flatten ++ pending)) :
    Encoder.Ends encoder job (Layout.chunked docs (rawChunk docs) (full.flatten ++ pending)) w s := by
  refine ⟨fun within => ?_, fun beyond => ?_⟩
  · rw [Allowed, List.take_of_length_le within] at allowed
    exact h.close shape allowed
  · have within := h.within
    rw [Layout.chunked_append shape.docs_pos h.lengths, List.length_append, List.length_map]
      at beyond
    have some : pending ≠ [] := by
      rintro rfl
      rw [Layout.chunked_nil shape.docs_pos, List.length_nil] at beyond
      omega
    rw [Layout.chunked_of_short some h.short, List.length_singleton] at beyond
    exact h.close_full shape some (by omega)

theorem counts (shape : Shape job docs longest) (calm : job.Calm) :
    Counts encoder (fun v => v.size ≤ longest) (rawChunk docs) job docs
      (Counted job docs longest) where
  docs_pos := shape.docs_pos
  small lengths := shape.small fun v hv => of_decide_eq_true (lengths v hv)
  steady h := by
    obtain ⟨full, pending, filling⟩ := h.exists_filling
    obtain ⟨b, steady, -⟩ := filling.steady
    exact ⟨_, b, steady⟩
  unfit h hv := by
    obtain ⟨full, pending, filling⟩ := h.exists_filling
    exact filling.put_refused shape (.inl (Nat.not_le.1 (of_decide_eq_false hv)))
  fit {values rest w s v} h hv allowed := by
    have hv := of_decide_eq_true hv
    cases h with
    | filling h free => exact h.count shape calm free hv allowed
    | stuck h complete all many =>
      obtain ⟨e, usage, refused⟩ := h.put_refused shape (v := v) (.inr complete)
      simp only [encoder, refused]
      refine ⟨.stuck h complete all ?_, ?_⟩
      · rw [List.length_append]
        omega
      · rw [if_neg (by omega)]
        exact ⟨e, usage, rfl⟩
  close h allowed := by
    cases h with
    | filling h => exact h.close_ends shape allowed
    | stuck h complete all many =>
      refine ⟨fun within => ?_, fun _ => h.close_full shape ?_ all⟩
      · exact absurd within (Nat.not_le.2 (Layout.lt_length_chunked shape.docs_pos many))
      · exact List.length_pos_iff.1 (complete ▸ shape.docs_pos)

end VariableWriter

/-! ## Runs -/

namespace Encoder

/-- A run of puts and a close on a writer that was opened, where writes and the close of the file go
well and, in version 2, the table can tell the starts of the chunks: the outcome of every call is
known from the number of values that fit, for both encoders. -/
theorem runs_exact :
    (∀ {w₀ w : FixedWriter} {path : Text} {compression : Compression}
      {totalDocs docsPerChunk entrySize version : Int32} {s₀ s : Session} {z : Deflater}
      (puts : List FixedValue),
      w₀.openAt path compression totalDocs docsPerChunk entrySize version s₀ z = (.ok (), w, s) →
      (compression = .gzip → z.Documented) →
      s₀.volume.LeadsToFile path → s₀.volume.WritesGoOn → s₀.volume.Closes →
      let params :=
        FixedWriter.parameters compression totalDocs docsPerChunk entrySize version
      let header := params.header compression
      let docs := header.docsPerChunk.toNatClampNeg
      let fits : FixedValue → Bool := fun v => v.width = entrySize.toNatClampNeg
      (version = 2 → ∀ start ∈ header.chunkStarts (params.encode z)
        ((Layout.chunked docs FixedWriter.rawChunk (puts.filter fits)).take header.capacity),
          start ≤ Layout.maxInt32) →
      Exact FixedWriter.encoder fits FixedWriter.rawChunk path header (params.encode z) docs w s
        puts) ∧
    ∀ {w₀ w : VariableWriter} {path : Text} {compression : Compression}
      {totalDocs docsPerChunk longest version : Int32} {s₀ s : Session} {z : Deflater}
      (puts : List Bytes),
      w₀.openAt path compression totalDocs docsPerChunk longest version s₀ z = (.ok (), w, s) →
      (compression = .gzip → z.Documented) →
      s₀.volume.LeadsToFile path → s₀.volume.WritesGoOn → s₀.volume.Closes →
      let params :=
        VariableWriter.parameters compression totalDocs docsPerChunk longest version
      let header := params.header compression
      let docs := header.docsPerChunk.toNatClampNeg
      let fits : Bytes → Bool := fun v => v.size ≤ longest.toNatClampNeg
      (version = 2 → ∀ start ∈ header.chunkStarts (params.encode z)
        ((Layout.chunked docs (VariableWriter.rawChunk docs) (puts.filter fits)).take
          header.capacity), start ≤ Layout.maxInt32) →
      Exact VariableWriter.encoder fits (VariableWriter.rawChunk docs) path header
        (params.encode z) docs w s puts := by
  constructor
  · intro w₀ w path compression totalDocs docsPerChunk entrySize version s₀ s z puts opened doc file
      calm closes params header docs fits reaches
    obtain ⟨job, opens, filling⟩ := FixedWriter.openAt_filling opened doc
    have shape := FixedWriter.shape_of_opens opens
    have calm := opens.calm file calm
    rw [opens.blank] at shape filling
    have run := (FixedWriter.counts shape calm).exact (.filling filling) calm
      (opens.closes file closes) puts (by rw [opens.blank, opens.encode]; exact reaches)
    rwa [opens.path, opens.blank, opens.encode] at run
  · intro w₀ w path compression totalDocs docsPerChunk longest version s₀ s z puts opened doc file
      calm closes params header docs fits reaches
    obtain ⟨job, opens, filling⟩ := VariableWriter.openAt_filling opened doc
    have shape := VariableWriter.shape_of_opens opens
    have calm := opens.calm file calm
    have run := (VariableWriter.counts shape calm).exact (.filling filling shape.docs_pos) calm
      (opens.closes file closes) puts (by rw [opens.blank, opens.encode]; exact reaches)
    rwa [opens.path, opens.blank, opens.encode] at run

/-- A new writer, opened for four numbers, two in a compressed chunk. -/
def openedNumbers : Outcome × FixedWriter × Session :=
  FixedWriter.openAt {} [102] .gzip 4 2 4 3 {} .builtin

/-- A new writer, opened for four texts of at most one byte, two in a chunk. -/
def openedTexts : Outcome × VariableWriter × Session :=
  VariableWriter.openAt {} [102] .passThrough 4 2 1 2 {} .builtin

/-- Four numbers, and one of another width among them. -/
def fourNumbers : List FixedValue :=
  [.int 0x01020304, .long 0, .int 0x05060708, .int 0x090A0B0C, .int 0x0D0E0F10]

/-- Five texts, and one that is too long among them. -/
def fiveTexts : List Bytes := [[97], [98, 98], [99], [], [], [100]].map Bytes.ofText

def numbersPut : FixedWriter × Session :=
  FixedWriter.encoder.after openedNumbers.2.1 openedNumbers.2.2 fourNumbers

def textsPut : VariableWriter × Session :=
  VariableWriter.encoder.after openedTexts.2.1 openedTexts.2.2 fiveTexts

/-- With room for four values a fifth put is still taken, and the close behind it is refused. -/
theorem runs_exact_five :
    (numbersPut.1.put (.int 5) numbersPut.2).1 = .ok () ∧
      (textsPut.1.close textsPut.2).1.Misused := by
  have file : ({} : Session).volume.LeadsToFile [102] := by
    intro p h
    cases h
  have calm : ({} : Session).volume.WritesGoOn := fun _ => List.forall_mem_nil _
  have numbers := runs_exact.1 (fourNumbers ++ [.int 5])
    (show FixedWriter.openAt {} [102] .gzip 4 2 4 3 {} .builtin = (.ok (), openedNumbers.2) from rfl)
    (fun _ => Deflater.builtin_documented) file calm (fun _ => rfl)
    fun narrow => absurd narrow (by decide)
  have texts := runs_exact.2 fiveTexts
    (show VariableWriter.openAt {} [102] .passThrough 4 2 1 2 {} .builtin = (.ok (), openedTexts.2)
      from rfl) nofun file calm (fun _ => rfl) fun _ => by decide
  exact ⟨numbers.taken fourNumbers (.int 5) List.prefix_rfl rfl (by decide),
    (texts.late (by decide)).1⟩

end Encoder
end ForwardIndex
