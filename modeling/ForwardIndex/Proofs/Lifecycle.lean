import ForwardIndex.Proofs.ChunkWriter
import ForwardIndex.Proofs.Compressor
import ForwardIndex.Proofs.Layout
import Mathlib.Algebra.Order.Floor.Div

/-!
# The life of a writer

What the operations of a writer can do, whatever the compressor reports and however the system
answers. A flush is all or nothing. Over a whole life, of openings, calls on the buffer, flushes and
closes in any order, accepted or refused, the writer agrees with its history: the parameters of the
opening that was accepted, and the chunks stored since.
-/
set_option autoImplicit false
namespace ForwardIndex

namespace ChunkWriter

/-! ## All or nothing -/

/-- What a flush that fails leaves as it was: the stage of the writer's life, the header with its
offsets, where the next chunk goes, and the chunk buffer. -/
structure Unmoved (w w' : ChunkWriter) : Prop extends Alike w w' where
  isUnopened : w'.isUnopened = w.isUnopened
  isOpen : w'.isOpen = w.isOpen
  isClosed : w'.isClosed = w.isClosed
  buffer : w'.buffer = w.buffer

theorem Unmoved.refl (w : ChunkWriter) : Unmoved w w := ⟨.refl w, rfl, rfl, rfl, rfl⟩

theorem Works.unmoved {w w' : ChunkWriter} {c : Compressor} {b : Buffer} {room : Nat}
    (h : w.Works c b room) (h' : w'.Works c b room) (alike : Alike w w') : Unmoved w w' :=
  ⟨alike, h'.isUnopened.trans h.isUnopened.symm, h'.isOpen.trans h.isOpen.symm,
    h'.isClosed.trans h.isClosed.symm, h'.buffer.trans h.buffer.symm⟩

/-- What a flush that succeeds makes of the writer: the place of the chunk is recorded, the next one
goes behind it, and the buffer is empty. -/
structure Advanced (w w' : ChunkWriter) (out : Bytes) : Prop where
  header : w'.header = { w.header with offsets := w.header.offsets.push w.cursor }
  file : w'.file = w.file
  cursor : w'.cursor = w.cursor + out.size
  isOpen : w'.isOpen
  buffer : w'.buffer = w.buffer.clear

/-- A flush that fails leaves the writer where it was; one that succeeds moves it behind a chunk
that the table has a place for. -/
theorem flush_moves (w : ChunkWriter) (s : Session) :
    (∃ e, (w.flush s).1 = .error e ∧ Unmoved w (w.flush s).2.1) ∨
      ∃ out, (w.flush s).1 = .ok () ∧ w.output? = some out ∧ w.isOpen ∧ w.header.isFull = false ∧
        w.header.checkOffset w.cursor = .ok () ∧ Advanced w (w.flush s).2.1 out := by
  rcases hf : w.flush s with ⟨outcome, w', s'⟩
  cases hf ▸ w.flushed s with
  | forbidden log => exact .inl ⟨_, rfl, .refl w⟩
  | uncompressed works _ _ works' alike => exact .inl ⟨_, rfl, works.unmoved works' alike⟩
  | unwritten works _ _ works' alike => exact .inl ⟨_, rfl, works.unmoved works' alike⟩
  | stored works some write works' header file cursor =>
    have advanced : Advanced w w' _ :=
      ⟨header, file, cursor, works'.isOpen, by rw [works'.buffer, works.buffer]⟩
    have isOpen := works.isOpen
    obtain ⟨codec, staging, hs, -⟩ := works
    obtain ⟨-, full, check, -⟩ := output?_some hs some
    exact .inr ⟨_, rfl, some, isOpen, full, check, advanced⟩

/-- No check that follows the write of a chunk fails: the place of the chunk has passed the same
checks before. -/
theorem flush_written {w : ChunkWriter} {s : Session} {out : Bytes} {v : Volume}
    (some : w.output? = some out)
    (write : w.file.writeAll out w.cursor s.volume = (.ok (), v)) :
    (w.header.record w.cursor).1 = .ok () ∧ (w.flush s).1 = .ok () := by
  rcases hf : w.flush s with ⟨outcome, w', s'⟩
  cases hf ▸ w.flushed s with
  | forbidden log none => cases none.symm.trans some
  | uncompressed works none => cases none.symm.trans some
  | unwritten works some' write' =>
    cases some.symm.trans some'
    cases write.symm.trans write'
  | stored works =>
    obtain ⟨codec, staging, hs, -⟩ := works
    obtain ⟨-, full, check, -⟩ := output?_some hs some
    rw [record_ok full check]
    exact ⟨rfl, rfl⟩

/-- A flush is all or nothing, in every state of a writer and with every compressor. One that fails
leaves the writer as it was, and the volume too unless it is the write of the chunk that fails; one
that succeeds stores one chunk. A failure of the kind `overflow` is the compressor's own, which is
to report the kind `compression`, or it comes from an offset beyond the table of version 2, and then
nothing has happened at all. Once the chunk is written nothing fails. -/
theorem flush_all_or_nothing (w : ChunkWriter) (s : Session) :
    (match w.flush s with
      | (.error e, w', s') =>
        Unmoved w w' ∧
        (s'.volume = s.volume ∨ e.kind = .io ∧ ∃ out, w.output? = some out ∧
          w.file.writeAll out w.cursor s.volume = (.error e, s'.volume)) ∧
        (e.kind = .overflow → w.CompressorRefuses e ∨
          w.header.version = 2 ∧ Layout.maxInt32 < w.cursor ∧ w' = w ∧ s'.events = s.events ∧
            s'.volume = s.volume)
      | (.ok (), w', s') => ∃ out, w.output? = some out ∧
          w.file.writeAll out w.cursor s.volume = (.ok (), s'.volume) ∧ Advanced w w' out) ∧
    ∀ out v, w.output? = some out → w.file.writeAll out w.cursor s.volume = (.ok (), v) →
      (w.header.record w.cursor).1 = .ok () ∧ (w.flush s).1 = .ok () := by
  refine ⟨?_, fun out v some write => flush_written some write⟩
  rcases hf : w.flush s with ⟨outcome, w', s'⟩
  cases hf ▸ w.flushed s with
  | forbidden log none rule =>
    refine ⟨.refl w, .inl rfl, fun overflow => ?_⟩
    obtain usage | check := rule
    · cases usage.symm.trans overflow
    · obtain ⟨narrow, far⟩ := Header.checkOffset_error check
      exact .inr ⟨narrow, far, rfl, rfl, rfl⟩
  | uncompressed works none fails works' alike volume =>
    refine ⟨works.unmoved works' alike, .inl volume, fun overflow => ?_⟩
    obtain compression | own := fails
    · cases compression.symm.trans overflow
    · exact .inl own
  | unwritten works some write works' alike =>
    obtain io | ⟨rfl, same⟩ := FileHandle.writeAll_error write
    · refine ⟨works.unmoved works' alike, .inr ⟨io, _, some, write⟩, fun overflow => ?_⟩
      cases io.symm.trans overflow
    · exact ⟨works.unmoved works' alike, .inl same, nofun⟩
  | stored works some write works' header file cursor =>
    refine ⟨_, some, write, header, file, cursor, works'.isOpen, ?_⟩
    rw [works.buffer, works'.buffer]

/-! ## Opening and closing -/

/-- What an opening can come to. One that is refused leaves the volume, and of the writer all but
the header of one that was never opened. -/
inductive Opening (w : ChunkWriter) (params : Parameters) (type : Compression) (s : Session) :
    Outcome × ChunkWriter × Session → Prop
  | refused {e : Failure} {w' : ChunkWriter} {s' : Session} (file : w'.file = w.file)
      (cursor : w'.cursor = w.cursor) (stage : w'.stage = w.stage)
      (header : w'.header = w.header ∨ w.isUnopened) (volume : s'.volume = s.volume) :
      Opening w params type s (.error e, w', s')
  | accepted {w' : ChunkWriter} {s' : Session} {c : Compressor} (fresh : w.isUnopened)
      (check : params.check = .ok ()) (header : w'.header = params.header type)
      (file : w'.file.isOpen) (cursor : w'.cursor = (params.header type).size)
      (works : w'.Works c (.new params.chunkSize.toInt.toNat)
        (c.bound params.chunkSize.toInt.toNat)) :
      Opening w params type s (.ok (), w', s')

theorem Opening.unchanged (w : ChunkWriter) (params : Parameters) (type : Compression)
    {s s' : Session} (e : Failure) (volume : s'.volume = s.volume) :
    Opening w params type s (.error e, w, s') :=
  .refused rfl rfl rfl (.inl rfl) volume

theorem openWith_opening (w : ChunkWriter) (path : Text) (params : Parameters) (c : Compressor)
    (s : Session) : Opening w params c.type s (w.openWith path params (some c) s) := by
  unfold openWith
  dsimp only [Session.handOver]
  by_cases fresh : w.isUnopened
  · rw [fresh]
    cases check : params.check with
    | error e => exact .unchanged w params c.type e rfl
    | ok u =>
      rcases ho : w.file.openAt path s.volume with ⟨outcome, f, v⟩
      cases outcome with
      | error e =>
        obtain ⟨rfl, rfl⟩ := FileHandle.openAt_refused ho
        exact .refused rfl rfl rfl (.inr fresh) rfl
      | ok u =>
        exact .accepted fresh check rfl (FileHandle.openAt_isOpen ho) rfl
          ⟨_, _, rfl, rfl, Bytes.size_zeros _⟩
  · rw [Bool.not_eq_true] at fresh
    rw [fresh]
    exact .unchanged w params c.type _ rfl

/-- A writer that is opened holds the compressor that was handed over. -/
theorem openWith_works {w w' : ChunkWriter} {path : Text} {params : Parameters} {c : Compressor}
    {s s' : Session} (opened : w.openWith path params (some c) s = (.ok (), w', s')) :
    w'.Works c (.new params.chunkSize.toInt.toNat) (c.bound params.chunkSize.toInt.toNat) := by
  unfold openWith at opened
  dsimp only [Session.handOver] at opened
  split at opened
  · cases opened
  split at opened
  · cases opened
  rcases ho : w.file.openAt path s.volume with ⟨_ | u, f, v⟩
  · simp [ho] at opened
  · rw [ho] at opened
    cases opened
    exact ⟨_, _, rfl, rfl, Bytes.size_zeros _⟩

theorem openBuiltin_opening (w : ChunkWriter) (path : Text) (params : Parameters) (s : Session)
    (z : Deflater) : Opening w params params.compression s (w.openBuiltin path params s z) := by
  unfold openBuiltin
  by_cases fresh : w.isUnopened
  · rw [fresh]
    cases check : params.check with
    | error e => exact .unchanged w params _ e rfl
    | ok u =>
      cases type : Compressor.ofType params.compression z with
      | error e => exact .unchanged w params _ e rfl
      | ok c =>
        rw [← Compressor.ofType_type type]
        exact w.openWith_opening path params c s
  · rw [Bool.not_eq_true] at fresh
    rw [fresh]
    exact .unchanged w params _ _ rfl

/-- An opening that is refused opens nothing. -/
theorem isOpen_openBuiltin {w : ChunkWriter} {path : Text} {params : Parameters} {s : Session}
    {z : Deflater} {e : Failure} (failed : (w.openBuiltin path params s z).1 = .error e) :
    (w.openBuiltin path params s z).2.1.isOpen = w.isOpen := by
  rcases h : w.openBuiltin path params s z with ⟨outcome, w', s'⟩
  rw [h] at failed
  cases failed
  cases h ▸ w.openBuiltin_opening path params s z with
  | refused file cursor stage => simp only [isOpen, stage]

@[simp] theorem conclude_writer (w : ChunkWriter) (s : Session) : (w.conclude s).2.1 = w := by
  unfold conclude
  dsimp only
  split <;> rfl

/-- A close that is not refused flushes what is pending; whatever comes of that, the file is closed
and the writer is at its end. -/
theorem close_writer {w : ChunkWriter} (h : w.isOpen) (s : Session) :
    ∃ f : FileHandle, f.isOpen = false ∧
      (w.close s).2.1 = { (w.flushPending s).2.1 with file := f, stage := .closed } := by
  rw [close_of_isOpen h]
  rcases w.flushPending s with ⟨outcome, w', s'⟩
  cases outcome with
  | error e => exact ⟨(w'.file.close s'.volume).2.1, FileHandle.close_isOpen _ _, rfl⟩
  | ok u =>
    refine ⟨(w'.file.close (w'.writeHeader s').2.volume).2.1, FileHandle.close_isOpen _ _, ?_⟩
    dsimp only
    rcases hr : w'.release (w'.writeHeader s').1 (w'.writeHeader s').2 with ⟨outcome, w₁, s₁⟩
    obtain rfl : _ = w₁ := congrArg (·.2.1) hr
    cases outcome with
    | error e => rfl
    | ok u => exact conclude_writer _ _

/-- No writer is open after a close. -/
theorem isOpen_close (w : ChunkWriter) (s : Session) : (w.close s).2.1.isOpen = false := by
  by_cases writing : w.isOpen
  · obtain ⟨f, -, closed⟩ := close_writer writing s
    rw [closed]
    rfl
  · obtain ⟨logger, header, file, cursor, stage⟩ := w
    cases stage with
    | unopened => rfl
    | closed => rfl
    | writing codec b staging => exact absurd rfl writing

/-! ## A whole life -/

/-- What an owner does with a writer. -/
inductive Action where
  | openWith (path : Text) (params : Parameters) (compressor : Option Compressor)
  | openBuiltin (path : Text) (params : Parameters) (z : Deflater)
  | call (call : Call)
  | close

/-- What has become of a writer: the parameters and the compression of the opening that was
accepted, and the chunks stored since. -/
structure History where
  opened : Option (Parameters × Compression) := none
  stored : List Bytes := []

/-- An opening is remembered if it is accepted. -/
def History.opening (h : History) (offered : Option (Parameters × Compression))
    (outcome : Outcome) : History :=
  if outcome = .ok () then { h with opened := offered } else h

def History.storing (h : History) (chunks : List Bytes) : History :=
  { h with stored := h.stored ++ chunks }

/-- A writer and its history after an action, whatever the action reports. -/
def act (w : ChunkWriter) (h : History) (s : Session) : Action → ChunkWriter × History
  | .openWith path params compressor =>
    let (outcome, w', _) := w.openWith path params compressor s
    (w', h.opening (compressor.map fun c => (params, c.type)) outcome)
  | .openBuiltin path params z =>
    let (outcome, w', _) := w.openBuiltin path params s z
    (w', h.opening (some (params, params.compression)) outcome)
  | .call call => ((perform (w, s) call).1, h.storing (storedBy (w, s) call))
  | .close => ((w.close s).2.1, h.storing (ChunkWriter.stored (w, s) w.pending))

/-- A life from some point on. Every action meets a session of its own: between two actions the
volume may change in any way. -/
def live (w : ChunkWriter) (h : History) : List (Action × Session) → ChunkWriter × History
  | [] => (w, h)
  | (action, s) :: rest => live (act w h s action).1 (act w h s action).2 rest

/-- A writer that has stored chunks since it was opened: the header knows where each starts, and the
cursor is behind them. -/
structure Records (params : Parameters) (type : Compression) (chunks : List Bytes)
    (w : ChunkWriter) : Prop where
  accepted : params.check = .ok ()
  header : w.header = { params.header type with
    offsets := (Layout.starts (params.header type).size chunks).toArray }
  within : chunks.length ≤ (params.header type).capacity
  cursor : w.cursor = (params.header type).size + (Bytes.joined chunks).length
  room : w.isOpen → w.buffer.capacity = params.chunkSize.toInt.toNat
  narrow : params.version = 2 →
    ∀ start ∈ Layout.starts (params.header type).size chunks, start ≤ Layout.maxInt32

/-- A writer that agrees with a history. -/
structure Agrees (w : ChunkWriter) (h : History) : Prop where
  file : w.file.isOpen = w.isOpen
  fresh : h.opened = none ↔ w.isUnopened
  nothing : h.opened = none → h.stored = []
  records : ∀ params type, h.opened = some (params, type) → Records params type h.stored w

section Life

variable {w w' : ChunkWriter} {h : History} {params : Parameters} {type : Compression}
  {chunks : List Bytes}

/-- The records of a writer are in its header and its cursor, and its buffer has the room. -/
theorem Records.of_alike (r : Records params type chunks w) (header : w'.header = w.header)
    (cursor : w'.cursor = w.cursor)
    (room : w'.isOpen → w.isOpen ∧ w'.buffer.capacity = w.buffer.capacity) :
    Records params type chunks w' where
  accepted := r.accepted
  header := header.trans r.header
  within := r.within
  cursor := cursor.trans r.cursor
  room opened := (room opened).2.trans (r.room (room opened).1)
  narrow := r.narrow

/-- A writer that has moved behind one more chunk has the records of one more chunk. -/
theorem Records.advance (r : Records params type chunks w) {out : Bytes} (isOpen : w.isOpen)
    (full : w.header.isFull = false) (check : w.header.checkOffset w.cursor = .ok ())
    (advanced : Advanced w w' out) : Records params type (chunks ++ [out]) w' := by
  refine ⟨r.accepted, ?_, ?_, ?_, fun _ => ?_, fun narrow start hs => ?_⟩
  · simp [advanced.header, r.header, r.cursor, Layout.starts_concat]
  · have within := r.within
    simp [Header.isFull, Header.recorded, r.header, Header.capacity] at full within ⊢
    omega
  · simp [advanced.cursor, r.cursor, Bytes.joined_concat, Nat.add_assoc]
  · simpa [advanced.buffer] using r.room isOpen
  · rw [Layout.starts_concat, List.mem_append, List.mem_singleton] at hs
    obtain before | rfl := hs
    · exact r.narrow narrow start before
    · rw [← r.cursor]
      exact Header.checkOffset_ok check (by rw [r.header]; exact narrow)

theorem isOpen_of_isUnopened (fresh : w.isUnopened) : w.isOpen = false := by
  unfold isUnopened at fresh
  unfold isOpen
  split at fresh
  · next stage => rw [stage]
  · cases fresh

/-- A writer that is open was opened. -/
theorem Agrees.opened_of_isOpen (a : Agrees w h) (isOpen : w.isOpen) : h.opened ≠ none := by
  intro none
  cases isOpen.symm.trans (isOpen_of_isUnopened (a.fresh.1 none))

/-- A close that is refused has nothing pending. -/
theorem close_idle (idle : w.isOpen = false) (s : Session) :
    (w.close s).2.1 = w ∧ w.pending = [] := by
  obtain ⟨logger, header, file, cursor, stage⟩ := w
  cases stage with
  | unopened => exact ⟨rfl, rfl⟩
  | writing codec b staging => cases idle
  | closed => exact ⟨rfl, rfl⟩

/-- A flush records the chunk that it stores, if it stores one. -/
theorem Agrees.flush (a : Agrees w h) (s : Session) :
    Agrees (w.flush s).2.1 (h.storing (storedBy (w, s) .flush)) := by
  obtain ⟨e, refused, unmoved⟩ | ⟨out, accepted, some, isOpen, full, check, advanced⟩ :=
    w.flush_moves s
  · have nothing : storedBy (w, s) .flush = [] := by simp [storedBy, refused]
    rw [nothing, History.storing, List.append_nil]
    refine ⟨?_, ?_, a.nothing, fun params type opened => ?_⟩
    · rw [unmoved.file, unmoved.isOpen, a.file]
    · rw [unmoved.isUnopened]
      exact a.fresh
    · refine (a.records params type opened).of_alike unmoved.header unmoved.cursor fun now => ?_
      exact ⟨unmoved.isOpen ▸ now, by rw [unmoved.buffer]⟩
  · have stored : storedBy (w, s) .flush = [out] := by simp [storedBy, accepted, some]
    have opened : h.opened ≠ none := a.opened_of_isOpen isOpen
    refine ⟨?_, iff_of_false opened ?_, fun none => absurd none opened,
      fun params type opened => ?_⟩
    · rw [advanced.file, advanced.isOpen, a.file, isOpen]
    · intro fresh
      cases advanced.isOpen.symm.trans (isOpen_of_isUnopened fresh)
    · rw [stored]
      exact (a.records params type opened).advance isOpen full check advanced

theorem Agrees.onBuffer (a : Agrees w h) (call : Buffer.Call) :
    Agrees (w.onBuffer call.apply).2 (h.storing []) := by
  obtain ⟨logger, header, file, cursor, stage⟩ := w
  rw [History.storing, List.append_nil]
  cases stage with
  | unopened => exact a
  | closed => exact a
  | writing codec b staging =>
    refine ⟨a.file, a.fresh, a.nothing, fun params type opened => ?_⟩
    refine (a.records params type opened).of_alike rfl rfl fun _ => ?_
    exact ⟨rfl, Buffer.capacity_apply call b⟩

/-- A close stores what is pending and moves the writer to the end of its life. -/
theorem Agrees.close (a : Agrees w h) (s : Session) :
    Agrees (w.close s).2.1 (h.storing (ChunkWriter.stored (w, s) w.pending)) := by
  by_cases open_ : w.isOpen
  · obtain ⟨f, shut, closed⟩ := close_writer open_ s
    have flushed : Agrees (w.flushPending s).2.1
        (h.storing (ChunkWriter.stored (w, s) w.pending)) := by
      unfold flushPending pending
      split
      · simpa [History.storing, ChunkWriter.stored] using a
      · simpa [ChunkWriter.stored] using a.flush s
    have opened := a.opened_of_isOpen open_
    rw [closed]
    refine ⟨shut, iff_of_false opened Bool.false_ne_true, fun none => absurd none opened,
      fun params type opened => ?_⟩
    refine (flushed.records params type opened).of_alike rfl rfl fun reopened => ?_
    exact absurd reopened Bool.false_ne_true
  · rw [Bool.not_eq_true] at open_
    obtain ⟨same, none⟩ := close_idle open_ s
    rw [same, none]
    simpa [History.storing, ChunkWriter.stored] using a

/-- An opening that is accepted starts a history, and one that is refused leaves the old one. -/
theorem Agrees.opening {s : Session} {r : Outcome × ChunkWriter × Session} (a : Agrees w h)
    (o : Opening w params type s r) : Agrees r.2.1 (h.opening (some (params, type)) r.1) := by
  cases o with
  | @refused e w' s' file cursor stage header =>
    have open_ : w'.isOpen = w.isOpen := by rw [isOpen, isOpen, stage]
    have unopened : w'.isUnopened = w.isUnopened := by rw [isUnopened, isUnopened, stage]
    have buffer : w'.buffer = w.buffer := by rw [ChunkWriter.buffer, ChunkWriter.buffer, stage]
    refine ⟨?_, ?_, a.nothing, fun params type opened => ?_⟩
    · rw [file, open_, a.file]
    · rw [unopened]
      exact a.fresh
    · obtain same | fresh := header
      · refine (a.records params type opened).of_alike same cursor fun now => ?_
        rw [buffer, ← open_]
        exact ⟨now, rfl⟩
      · cases (a.fresh.2 fresh).symm.trans opened
  | @accepted w' s' c fresh check header file cursor works =>
    have none := a.nothing (a.fresh.2 fresh)
    have remembered : some (params, type) ≠ Option.none := Option.some_ne_none _
    refine ⟨file.trans works.isOpen.symm, iff_of_false remembered ?_, fun now => ?_,
      fun params' type' opened => ?_⟩
    · simp [works.isUnopened]
    · exact absurd now remembered
    · cases opened
      show Records params type h.stored w'
      rw [none]
      refine ⟨check, header, Nat.zero_le _, cursor, fun _ => ?_, fun _ _ among => ?_⟩
      · rw [works.buffer, Buffer.capacity_new]
      · exact absurd among List.not_mem_nil

theorem Agrees.act (a : Agrees w h) (s : Session) (action : Action) :
    Agrees (ChunkWriter.act w h s action).1 (ChunkWriter.act w h s action).2 := by
  cases action with
  | openWith path params compressor =>
    cases compressor with
    | none => exact a
    | some c => exact a.opening (w.openWith_opening path params c s)
  | openBuiltin path params z => exact a.opening (w.openBuiltin_opening path params s z)
  | call call =>
    cases call with
    | buffer call => exact a.onBuffer call
    | flush => exact a.flush s
  | close => exact a.close s

/-- A life keeps the agreement; by induction on the actions. -/
theorem Agrees.live (a : Agrees w h) (actions : List (Action × Session)) :
    Agrees (ChunkWriter.live w h actions).1 (ChunkWriter.live w h actions).2 := by
  induction actions generalizing w h with
  | nil => exact a
  | cons first rest ih => exact ih (a.act first.2 first.1)

end Life

/-- The compressor that a writer holds. -/
def codec? (w : ChunkWriter) : Option Codec := match w.stage with
  | .writing codec _ _ => some codec
  | _ => none

/-- What can be seen of a writer that was opened with parameters and has stored chunks since. -/
structure Tells (params : Parameters) (type : Compression) (chunks : List Bytes)
    (w : ChunkWriter) : Prop where
  accepted : params.check = .ok ()
  header : w.header = { params.header type with offsets := w.header.offsets }
  declared : w.header.chunkCount.toInt =
    (params.totalDocs.toNatClampNeg ⌈/⌉ params.docsPerChunk.toNatClampNeg : Nat)
  recorded : w.header.recorded = chunks.length
  within : w.header.recorded ≤ w.header.capacity
  size : w.header.size = 28 + w.header.capacity * if params.version = 2 then 4 else 8
  first : chunks ≠ [] → w.header.offsets[0]? = some w.header.size
  next : ∀ i chunk, chunks[i]? = some chunk → i + 1 < chunks.length →
    ∃ start, w.header.offsets[i]? = some start ∧
      w.header.offsets[i + 1]? = some (start + chunk.size)
  cursor : w.cursor = w.header.size + (chunks.map ByteArray.size).sum
  narrow : params.version = 2 → ∀ start ∈ w.header.offsets, start ≤ Layout.maxInt32
  room : w.isOpen → w.buffer.capacity = params.chunkSize.toInt.toNat

/-- A writer whose parts fit each other and its history. -/
structure Consistent (w : ChunkWriter) (h : History) : Prop where
  file : w.file.isOpen = w.isOpen
  codec : w.codec?.isSome = w.isOpen
  position : w.buffer.position ≤ w.buffer.capacity
  empty : w.isOpen = false → w.buffer.capacity = 0
  opened : w.isUnopened = h.opened.isNone
  tells : ∀ params type, h.opened = some (params, type) → Tells params type h.stored w

/-- The bytes of chunks back to back are as many as those of all chunks. -/
theorem length_joined (chunks : List Bytes) :
    (Bytes.joined chunks).length = (chunks.map ByteArray.size).sum := by
  induction chunks with
  | nil => rfl
  | cons chunk rest ih => rw [Bytes.length_joined_cons, ih, List.map_cons, List.sum_cons]

theorem Records.tells {w : ChunkWriter} {params : Parameters} {type : Compression}
    {chunks : List Bytes} (r : Records params type chunks w) : Tells params type chunks w := by
  have admitted := Parameters.check_ok r.accepted
  have capacity : w.header.capacity = (params.header type).capacity := by rw [r.header]; rfl
  have size : w.header.size = (params.header type).size := by rw [r.header]; rfl
  have recorded : w.header.recorded = chunks.length := by rw [r.header]; simp [Header.recorded]
  have offset (i : Nat) : w.header.offsets[i]? =
      if i < chunks.length then
        some ((params.header type).size + (Bytes.joined (chunks.take i)).length)
      else none := by
    rw [r.header, List.getElem?_toArray, Layout.starts_getElem?]
  refine ⟨r.accepted, ?_, ?_, recorded, ?_, ?_, fun some => ?_, ?_, ?_, fun narrow start hs => ?_,
    r.room⟩
  · rw [r.header]
  · rw [r.header]
    exact Layout.toInt_chunkCount admitted.totalDocs admitted.docs_pos
  · rw [recorded, capacity]
    exact r.within
  · rw [size, capacity]
    rfl
  · rw [offset, if_pos (List.length_pos_iff.2 some), size]
    rfl
  · intro i chunk found more
    refine ⟨_, (offset i).trans (if_pos (by omega)), ?_⟩
    rw [offset, if_pos more, List.take_add_one, found, Option.toList_some, Bytes.joined_concat,
      List.length_append, Bytes.length_toText, Nat.add_assoc]
  · rw [r.cursor, size, length_joined]
  · rw [r.header] at hs
    exact r.narrow narrow start (by simpa using hs)

/-- Whatever is done with a new writer, in any order, with any parameters and compressors, on any
volume, and whatever it reports: its parts fit each other, the parameters it was opened with, and
the chunks it has stored. -/
theorem live_consistent (logger : Logger) (actions : List (Action × Session)) :
    Consistent (live { logger } {} actions).1 (live { logger } {} actions).2 := by
  have start : Agrees { logger } {} := ⟨rfl, ⟨fun _ => rfl, fun _ => rfl⟩, fun _ => rfl, nofun⟩
  have agrees := start.live actions
  generalize (live { logger } {} actions).1 = w at agrees
  generalize (live { logger } {} actions).2 = h at agrees
  refine ⟨agrees.file, ?_, w.buffer.position_le, fun idle => ?_, ?_,
    fun params type opened => (agrees.records params type opened).tells⟩
  · cases hs : w.stage <;> simp [codec?, isOpen, hs]
  · cases hs : w.stage with
    | unopened => simp [buffer, hs]
    | writing codec b staging => simp [isOpen, hs] at idle
    | closed => simp [buffer, hs]
  · rw [Bool.eq_iff_iff, ← agrees.fresh, Option.isNone_iff_eq_none]

end ChunkWriter
end ForwardIndex
