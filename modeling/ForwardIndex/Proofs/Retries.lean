import ForwardIndex.Proofs.Unheaded

/-!
# Retried failures leave no trace

A flush that fails is called again with the same chunk until it succeeds. Then nothing tells that it
ever failed: what a failed write has put into the file is a front of the bytes that the successful
one puts there. A run with such failures is followed by the run that leaves the failed flushes out,
with a compressor and a volume that do not fail.
-/
set_option autoImplicit false
namespace ForwardIndex

/-! ## The same tree -/

namespace Volume

/-- What a path reads as is told by the tree alone. -/
theorem read_eq {v v' : Volume} (tree : ∀ q, v'.node? q = v.node? q) (path : Text) :
    v'.read path = v.read path := by
  simp only [read, find_outline fun q => congrArg _ (tree q), tree]

/-- So is whether it can be opened for writing, and what is there then. -/
theorem openWrite_again {v v₁ u : Volume} {path : Text} {d : Nat}
    (tree : ∀ q, u.node? q = v.node? q) (ok : v.openWrite path = .ok (d, v₁)) :
    ∃ d' u₁, u.openWrite path = .ok (d', u₁) ∧ ∀ q, u₁.node? q = v₁.node? q := by
  have emptied (p q : Place) : ((u.put p (.file ByteArray.empty)).handOut p).2.node? q =
      ((v.put p (.file ByteArray.empty)).handOut p).2.node? q := by
    change (u.put p _).node? q = (v.put p _).node? q
    rw [node?_put, node?_put, tree]
  have leads : u.locate .create path = v.locate .create path := by
    simp only [locate, walk_outline fun q => congrArg _ (tree q)]
  unfold openWrite at ok ⊢
  rw [leads]
  cases arrives : v.locate .create path with
  | error e => simp [arrives] at ok
  | ok arrival =>
    rw [arrives] at ok
    cases arrival with
    | vacancy directory name =>
      cases ok
      exact ⟨_, _, rfl, emptied _⟩
    | entry p =>
      simp only [tree] at ok ⊢
      split at ok
      · cases ok
      · cases ok
        exact ⟨_, _, rfl, emptied _⟩
      · cases ok
        exact ⟨_, _, rfl, tree⟩

end Volume

/-! ## Writes that succeed -/

namespace FileHandle

/-- A path that was opened is opened where the tree is the same. -/
theorem openAt_again {f g : FileHandle} {v v₁ u : Volume} {path : Text}
    (ok : f.openAt path v = (.ok (), g, v₁)) (tree : ∀ q, u.node? q = v.node? q) :
    ∃ g' u₁, f.openAt path u = (.ok (), g', u₁) ∧ ∀ q, u₁.node? q = v₁.node? q := by
  unfold openAt at ok ⊢
  by_cases held : f.isOpen
  · simp [held] at ok
  rw [if_neg held] at ok ⊢
  rcases ho : v.openWrite path with e | ⟨d, v₂⟩
  · simp [ho] at ok
  · rw [ho] at ok
    obtain ⟨d', u₁, ho', tree'⟩ := Volume.openWrite_again tree ho
    rw [ho']
    cases ok
    exact ⟨_, u₁, rfl, tree'⟩

/-- A write that succeeds ends below the greatest offset, unless there is nothing to write. -/
theorem Holds.room_of_writeAll {f : FileHandle} {v v' : Volume} {p : Place} {content bytes : Bytes}
    {offset : Nat} (h : f.Holds v p content) (ok : f.writeAll bytes offset v = (.ok (), v')) :
    bytes.size = 0 ∨ offset + bytes.size < Volume.offsetBound := by
  obtain ⟨d, hd, isOpen, -⟩ := h
  by_contra no
  simp only [not_or, Nat.not_lt] at no
  have whole : (bytes.rest 0).size = bytes.size := by simp
  have beyond (fault : Option WriteFault) :
      v.write fault d (bytes.rest 0) offset = (.error .invalidArgument, v) := by
    unfold Volume.write
    rw [show v.descriptors[d]? = some (some p) from isOpen]
    simp only [whole, if_pos no.2]
  have some : ¬ bytes.size ≤ 0 := by omega
  rw [writeAll_eq hd isOpen] at ok
  cases faults : v.writeFaults p with
  | nil => simp [faults, writeRest, some, beyond] at ok
  | cons fault rest => simp [faults, writeRest, some, beyond] at ok

/-- Writes to a file leave every path where it leads. -/
theorem Holds.find_eq {f f' : FileHandle} {v v' : Volume} {p : Place} {content content' : Bytes}
    (h : f.Holds v p content) (h' : f'.Holds v' p content')
    (others : ∀ q, q ≠ p → v'.node? q = v.node? q) (path : Text) : v'.find path = v.find path := by
  obtain ⟨_, _, _, before⟩ := h
  obtain ⟨_, _, _, after⟩ := h'
  exact (Volume.touches_of_nodes before after others).find_eq path

/-- What was written once is written again where no fault is ahead. -/
theorem Holds.writeAll_again {f : FileHandle} {v : Volume} {p : Place} {content bytes : Bytes}
    {offset : Nat} (h : f.Holds v p content) (calm : v.WritesGoOn)
    (room : bytes.size = 0 ∨ offset + bytes.size < Volume.offsetBound) :
    ∃ v', f.writeAll bytes offset v = (.ok (), v') ∧ f.Holds v' p (content.patch offset bytes) ∧
      Follows p v v' := by
  obtain none | room := room
  · have ok : (f.writeAll bytes offset v).1 = .ok () := by
      obtain ⟨d, hd, isOpen, -⟩ := h
      rw [writeAll_eq hd isOpen]
      cases v.writeFaults p <;> simp [writeRest, none]
    have ok : f.writeAll bytes offset v = (.ok (), (f.writeAll bytes offset v).2) := Prod.ext ok rfl
    exact ⟨_, ok, h.writeAll_ok ok⟩
  · exact h.writeAll_succeeds calm room

end FileHandle

/-! ## Compressors -/

namespace Compressor

/-- Whenever a compressor succeeds, what it has put into the staging buffer is a function of the
chunk. -/
def Yields (c : Compressor) (encode : Bytes → Bytes) : Prop :=
  ∀ call chunk staging n, (c.compress call chunk staging).2 = .ok n → n ≤ staging.size →
    (c.compress call chunk staging).1.first n = encode chunk

/-- Some call compresses a chunk into a staging buffer of a size. -/
def Compresses (c : Compressor) (chunk : Bytes) (room : Nat) : Prop :=
  ∃ call staging n, (c.compress call chunk staging).2 = .ok n ∧ n ≤ staging.size ∧
    staging.size = room

/-- A compressor that takes the place of one that may fail: where the other may succeed it does,
with the same result. -/
structure StandsIn (clean c : Compressor) (encode : Bytes → Bytes) : Prop where
  type : clean.type = c.type
  bound : clean.bound = c.bound
  yields : clean.Yields encode
  succeeds (call : Nat) (chunk staging : Bytes) : c.Compresses chunk staging.size →
    ∃ n ≤ staging.size, (clean.compress call chunk staging).2 = .ok n

/-- A compressor without its failures. -/
def unfailing (c : Compressor) (encode : Bytes → Bytes) : Compressor :=
  ofFunction c.type c.bound fun _ chunk _ => (encode chunk, .ok (encode chunk).size)

theorem Yields.unfailing {c : Compressor} {encode : Bytes → Bytes} (yields : c.Yields encode) :
    (c.unfailing encode).StandsIn c encode where
  type := rfl
  bound := rfl
  yields call chunk staging n ok room := by
    obtain rfl : (encode chunk).size = n := by simpa [Compressor.unfailing, ofFunction] using ok
    exact stage_first room
  succeeds call chunk staging := by
    rintro ⟨call', staging', n, ok, fits, same⟩
    refine ⟨(encode chunk).size, ?_, rfl⟩
    rw [← yields call' chunk staging' n ok fits, Bytes.size_first, ← same,
      c.size_staging call' chunk staging']
    exact Nat.min_le_right _ _

end Compressor

namespace ChunkWriter

section Output

variable {w : ChunkWriter} {c : Compressor} {b : Buffer} {room : Nat} {encode : Bytes → Bytes}

/-- What is handed to the file is the encoding of the chunk, whichever call it is. -/
theorem Works.output_yields (works : w.Works c b room) (yields : c.Yields encode) {out : Bytes}
    (some : w.output? = some out) : out = encode b.filled ∧ c.Compresses b.filled room := by
  obtain ⟨codec, staging, hs, rfl, rfl⟩ := works
  obtain ⟨-, -, -, n, codec', staging', compressed, rfl⟩ := output?_some hs some
  have fits : n ≤ staging.size := by
    rw [← (compressChunk_kept compressed).2]
    exact le_of_compressChunk compressed
  simp only [compressChunk, Prod.mk.injEq] at compressed
  obtain ⟨reported, -, rfl⟩ := compressed
  have ok : (codec.compressor.compress codec.calls b.filled staging).2 = .ok n := by
    split at reported
    · cases reported
    · next size own =>
      split at reported
      · cases reported
      · rw [own, ← reported]
  exact ⟨yields codec.calls b.filled staging n ok fits, codec.calls, staging, n, ok, fits, rfl⟩

/-- A compressor that takes its place hands the same over, where the chunk has a place in the
file. -/
theorem Works.output_standsIn {clean : Compressor} (works : w.Works clean b room)
    (standsIn : clean.StandsIn c encode) (chunk : b.isEmpty = false)
    (place : w.header.isFull = false) (check : w.header.checkOffset w.cursor = .ok ())
    (compresses : c.Compresses b.filled room) : w.output? = some (encode b.filled) := by
  obtain ⟨codec, staging, hs, rfl, rfl⟩ := works
  obtain ⟨n, le, ok⟩ := standsIn.succeeds codec.calls b.filled staging compresses
  have first := standsIn.yields codec.calls b.filled staging n ok le
  unfold output?
  simp [hs, chunk, place, check, compressChunk, ok, first, Nat.not_lt.2 le,
    codec.compressor.size_staging codec.calls b.filled staging]

end Output

/-! ## Runs with retries -/

/-- Every flush that fails is called again, with the buffer left alone in between, until it
succeeds; `failed` tells that the last one has failed. A close may be the last to call it. -/
def Retried (failed : Bool) (x : ChunkWriter × Session) : List Action → Prop
  | [] => True
  | action :: rest =>
    match action with
    | .close => False
    | .call (.buffer _) => failed = false ∧ Retried false (x.1.step x.2 action) rest
    | .call .flush => Retried ((x.1.flush x.2).1 ≠ .ok ()) (x.1.step x.2 action) rest
    | _ => Retried failed (x.1.step x.2 action) rest

/-- The actions of a run without the flushes that fail in it. -/
def lasting (x : ChunkWriter × Session) : List Action → List Action
  | [] => []
  | action :: rest =>
    match action with
    | .call .flush =>
      if (x.1.flush x.2).1 = .ok () then action :: lasting (x.1.step x.2 action) rest
      else lasting (x.1.step x.2 action) rest
    | _ => action :: lasting (x.1.step x.2 action) rest

/-- Every flush of a run succeeds. -/
def FlushesSucceed (x : ChunkWriter × Session) : List Action → Prop
  | [] => True
  | action :: rest =>
    (action = .call .flush → (x.1.flush x.2).1 = .ok ()) ∧
      FlushesSucceed (x.1.step x.2 action) rest

/-- A writer that may have failed and one that has not, on the file of one path, with the same chunk
in their buffers. The files differ at most by a front of that chunk's encoding, behind all that is
recorded. -/
structure Alongside (path : Text) (p : Place) (c clean : Compressor) (encode : Bytes → Bytes)
    (failed : Bool) (w w' : ChunkWriter) (v v' : Volume) : Prop where
  header : w'.header = w.header
  cursor : w'.cursor = w.cursor
  found : v.find path = .ok p
  works : ∃ b room, w.Works c b room ∧ w'.Works clean b room ∧
    ∃ content n, w.file.Holds v p (content.patch w.cursor ((encode b.filled).first n)) ∧
      w'.file.Holds v' p content ∧ (n = 0 ∨ failed ∧ b.isEmpty = false)
  others : ∀ q, q ≠ p → v'.node? q = v.node? q
  calm : v'.WritesGoOn
  closes : v'.Closes

section Alongside

variable {path : Text} {p : Place} {c clean : Compressor} {encode : Bytes → Bytes} {failed : Bool}
  {w w' : ChunkWriter} {s s' : Session}

/-- A writer that has failed, with the same chunk in its buffer, stays alongside. -/
theorem Alongside.fail {w₁ : ChunkWriter} {v v₁ v' : Volume} {b : Buffer} {room n : Nat}
    {content : Bytes} (h : Alongside path p c clean encode failed w w' v v') (alike : Alike w w₁)
    (works : w₁.Works c b room) (works' : w'.Works clean b room)
    (holds' : w'.file.Holds v' p content)
    (holds : w.file.Holds v₁ p (content.patch w.cursor ((encode b.filled).first n)))
    (others : ∀ q, q ≠ p → v₁.node? q = v.node? q) (chunk : n = 0 ∨ b.isEmpty = false) :
    Alongside path p c clean encode true w₁ w' v₁ v' where
  header := h.header.trans alike.header.symm
  cursor := h.cursor.trans alike.cursor.symm
  found := by
    obtain ⟨_, _, _, _, _, _, before, _⟩ := h.works
    exact (before.find_eq holds others path).trans h.found
  works := by
    refine ⟨b, room, works, works', content, n, ?_, holds', chunk.imp_right fun some => ⟨rfl, some⟩⟩
    rw [alike.file, alike.cursor]
    exact holds
  others q hq := (h.others q hq).trans (others q hq).symm
  calm := h.calm
  closes := h.closes

/-- A flush that fails leaves the writers alongside each other. -/
theorem Alongside.flush_error (h : Alongside path p c clean encode failed w w' s.volume s'.volume)
    (yields : c.Yields encode) (error : (w.flush s).1 ≠ .ok ()) :
    Alongside path p c clean encode true (w.flush s).2.1 w' (w.flush s).2.2.volume s'.volume := by
  obtain ⟨b, room, works, works', content, n, holds, holds', front⟩ := h.works
  have chunk : n = 0 ∨ b.isEmpty = false := front.imp_right And.right
  rcases hf : w.flush s with ⟨outcome, w₁, s₁⟩
  cases hf ▸ w.flushed s with
  | forbidden log none rule =>
    exact h.fail (.refl w) works works' holds' holds (fun _ _ => rfl) chunk
  | uncompressed works₀ none fails works₁ alike volume =>
    obtain ⟨rfl, rfl, rfl⟩ := works₀.unique works
    rw [volume]
    exact h.fail alike works₁ works' holds' holds (fun _ _ => rfl) chunk
  | unwritten works₀ some write works₁ alike =>
    obtain ⟨rfl, rfl, rfl⟩ := works₀.unique works
    obtain ⟨rfl, -⟩ := works.output_yields yields some
    obtain ⟨m, -, after, follows, -, -⟩ := holds.writeAll _ w.cursor
    rw [write, Bytes.patch_first_patch_first] at after
    rw [write] at follows
    obtain ⟨codec, staging, hs, -⟩ := works
    exact h.fail alike works₁ works' holds' after follows.others (.inr (output?_some hs some).1)
  | stored => exact absurd (by rw [hf]) error

/-- A flush that succeeds succeeds without the failures before it, and nothing is left of them. -/
theorem Alongside.flush_ok (h : Alongside path p c clean encode failed w w' s.volume s'.volume)
    (yields : c.Yields encode) (standsIn : clean.StandsIn c encode) (ok : (w.flush s).1 = .ok ()) :
    (w'.flush s').1 = .ok () ∧
      Alongside path p c clean encode false (w.flush s).2.1 (w'.flush s').2.1
        (w.flush s).2.2.volume (w'.flush s').2.2.volume := by
  obtain ⟨b, room, works, works', content, n, holds, holds', -⟩ := h.works
  rcases hf : w.flush s with ⟨outcome, w₁, s₁⟩
  cases hf ▸ w.flushed s with
  | forbidden | uncompressed | unwritten => simp [hf] at ok
  | stored works₀ some write works₁ header file cursor =>
    obtain ⟨rfl, rfl, rfl⟩ := works₀.unique works
    obtain ⟨rfl, compresses⟩ := works.output_yields yields some
    obtain ⟨after, follows⟩ := holds.writeAll_ok write
    obtain ⟨codec, staging, hs, -⟩ := id works
    obtain ⟨chunk, place, check, -⟩ := output?_some hs some
    -- The same chunk goes to the same place without a failure.
    have some' : w'.output? = .some (encode b.filled) :=
      works'.output_standsIn standsIn chunk (by rw [h.header]; exact place)
        (by rw [h.header, h.cursor]; exact check) compresses
    obtain ⟨v', write', after', follows'⟩ :=
      holds'.writeAll_again h.calm (holds.room_of_writeAll write)
    rw [← h.cursor] at write'
    obtain ⟨w₁', s₁', hf', works₁', header', file', cursor', volume'⟩ :=
      flush_stored works' some' write'
    rw [Bytes.patch_first_patch] at after
    rw [hf']
    refine ⟨rfl, ?_, ?_, ?_, ⟨b.clear, room, works₁, works₁',
      content.patch w.cursor (encode b.filled), 0, ?_, ?_, .inl rfl⟩, ?_, ?_, ?_⟩
    · rw [header, header', h.header, h.cursor]
    · rw [cursor, cursor', h.cursor]
    · exact (holds.find_eq after follows.others path).trans h.found
    · rw [file, Bytes.patch_first_zero]
      exact after
    · rw [file', volume']
      exact after'
    · intro q hq
      rw [volume', follows'.others q hq, follows.others q hq, h.others q hq]
    · rw [volume']
      exact follows'.writesGoOn h.calm
    · rw [volume']
      exact follows'.closes h.closes

/-- Without a failure before it a call on the buffer does the same to both. -/
theorem Alongside.onBuffer {α : Type} {v v' : Volume}
    (h : Alongside path p c clean encode false w w' v v') (f : Buffer → α × Buffer) :
    Alongside path p c clean encode false (w.onBuffer f).2 (w'.onBuffer f).2 v v' := by
  obtain ⟨b, room, works, works', content, n, holds, holds', front⟩ := h.works
  obtain rfl : n = 0 := by simpa using front
  obtain ⟨works, alike⟩ := works.onBuffer f
  obtain ⟨works', alike'⟩ := works'.onBuffer f
  rw [Bytes.patch_first_zero] at holds
  refine ⟨?_, ?_, h.found, ⟨(f b).2, room, works, works', content, 0, ?_, ?_, .inl rfl⟩, h.others,
    h.calm, h.closes⟩
  · rw [alike.header, alike'.header, h.header]
  · rw [alike.cursor, alike'.cursor, h.cursor]
  · rw [alike.file, Bytes.patch_first_zero]
    exact holds
  · rw [alike'.file]
    exact holds'

/-- What is refused to both leaves them alongside each other. -/
theorem Alongside.rejected {r r' : Outcome × ChunkWriter × Session}
    (h : Alongside path p c clean encode failed w w' s.volume s'.volume) (refused : Rejected w s r)
    (refused' : Rejected w' s' r') :
    Alongside path p c clean encode failed r.2.1 r'.2.1 r.2.2.volume r'.2.2.volume := by
  obtain ⟨e, s₁, rfl, volume⟩ := refused
  obtain ⟨e', s₁', rfl, volume'⟩ := refused'
  rw [volume, volume']
  exact h

/-- A run whose failures are retried stays alongside the run without them, in which every flush
succeeds; by induction on the actions, with what was done so far open. -/
theorem Alongside.acted (h : Alongside path p c clean encode failed w w' s.volume s'.volume)
    (yields : c.Yields encode) (standsIn : clean.StandsIn c encode) {actions : List Action}
    (retried : Retried failed (w, s) actions) :
    let x := ChunkWriter.acted (w, s) actions
    let x' := ChunkWriter.acted (w', s') (lasting (w, s) actions)
    FlushesSucceed (w', s') (lasting (w, s) actions) ∧
      ∃ failed', Alongside path p c clean encode failed' x.1 x'.1 x.2.volume x'.2.volume := by
  induction actions generalizing failed w w' s s' with
  | nil => exact ⟨trivial, failed, h⟩
  | cons action rest ih =>
    obtain ⟨_, _, works, works', _⟩ := h.works
    cases action with
    | openWith path' params compressor =>
      have next := h.rejected (openWith_rejected works.isUnopened path' params compressor s)
        (openWith_rejected works'.isUnopened path' params compressor s')
      exact (ih next retried).imp_left fun succeed => ⟨nofun, succeed⟩
    | openBuiltin path' params z =>
      have next := h.rejected (openBuiltin_rejected works.isUnopened path' params s z)
        (openBuiltin_rejected works'.isUnopened path' params s' z)
      exact (ih next retried).imp_left fun succeed => ⟨nofun, succeed⟩
    | close => exact retried.elim
    | call call =>
      cases call with
      | buffer call =>
        obtain ⟨rfl, retried⟩ := retried
        exact (ih (h.onBuffer call.apply) retried).imp_left fun succeed => ⟨nofun, succeed⟩
      | flush =>
        unfold lasting
        by_cases ok : (w.flush s).1 = .ok ()
        · obtain ⟨ok', next⟩ := h.flush_ok yields standsIn ok
          have retried : Retried false (w.step s (.call .flush)) rest := by
            simpa [Retried, ok] using retried
          rw [if_pos ok]
          exact (ih next retried).imp_left fun succeed => ⟨fun _ => ok', succeed⟩
        · have retried : Retried true (w.step s (.call .flush)) rest := by
            simpa [Retried, ok] using retried
          rw [if_neg ok]
          exact ih (h.flush_error yields ok) retried

theorem Alongside.flushPending
    (h : Alongside path p c clean encode failed w w' s.volume s'.volume) (yields : c.Yields encode)
    (standsIn : clean.StandsIn c encode) (ok : (w.flushPending s).1 = .ok ()) :
    (w'.flushPending s').1 = .ok () ∧
      Alongside path p c clean encode false (w.flushPending s).2.1 (w'.flushPending s').2.1
        (w.flushPending s).2.2.volume (w'.flushPending s').2.2.volume := by
  obtain ⟨b, room, works, works', content, n, holds, holds', front⟩ := h.works
  unfold ChunkWriter.flushPending at ok ⊢
  rw [works.buffer] at ok ⊢
  rw [works'.buffer]
  by_cases none : b.isEmpty
  · -- A write of an empty chunk was never tried.
    obtain rfl : n = 0 := by simpa [none] using front
    rw [if_pos none, if_pos none]
    exact ⟨rfl, h.header, h.cursor, h.found, ⟨b, room, works, works', content, 0, holds, holds',
      .inl rfl⟩, h.others, h.calm, h.closes⟩
  · rw [if_neg none] at ok ⊢
    rw [if_neg none]
    exact h.flush_ok yields standsIn ok

/-- A close that succeeds has flushed what was pending and written the header. -/
theorem close_ok (works : w.isOpen) (ok : (w.close s).1 = .ok ()) :
    ∃ w₁ s₁ v, w.flushPending s = (.ok (), w₁, s₁) ∧
      w₁.file.writeAll w₁.header.toBytes 0 s₁.volume = (.ok (), v) := by
  have outcome := (close_givesBack works s).outcome
  rw [ok, closingSteps] at outcome
  rcases hf : w.flushPending s with ⟨_ | u, w₁, s₁⟩
  · simp [hf, firstFailure] at outcome
  · rcases hv : w₁.file.writeAll w₁.header.toBytes 0 s₁.volume with ⟨_ | u, v⟩
    · simp [hf, writeHeader, hv, firstFailure] at outcome
    · exact ⟨w₁, s₁, v, rfl, hv⟩

/-- A close that succeeds succeeds without the failures before it, and what is left is the same. -/
theorem Alongside.close (h : Alongside path p c clean encode failed w w' s.volume s'.volume)
    (yields : c.Yields encode) (standsIn : clean.StandsIn c encode) (ok : (w.close s).1 = .ok ()) :
    (w'.close s').1 = .ok () ∧ (w'.close s').2.1.header = (w.close s).2.1.header ∧
      (w'.close s').2.1.cursor = (w.close s).2.1.cursor ∧
      (∃ content, (w.close s).2.2.volume.read path = .bytes content) ∧
      ∀ q, (w'.close s').2.2.volume.node? q = (w.close s).2.2.volume.node? q := by
  obtain ⟨_, _, works, works', _⟩ := h.works
  obtain ⟨w₁, s₁, v, hf, hv⟩ := close_ok works.isOpen ok
  obtain ⟨flushed', h₁⟩ := h.flushPending yields standsIn (congrArg Prod.fst hf)
  rcases hf' : w'.flushPending s' with ⟨outcome, w₁', s₁'⟩
  rw [hf'] at flushed'
  obtain rfl : outcome = .ok () := flushed'
  rw [hf, hf'] at h₁
  dsimp only at h₁
  obtain ⟨b, room, -, -, content, n, holds, holds', front⟩ := h₁.works
  obtain rfl : n = 0 := by simpa using front
  rw [Bytes.patch_first_zero] at holds
  -- The header goes to both files alike.
  obtain ⟨after, follows⟩ := holds.writeAll_ok hv
  obtain ⟨v', hv', after', follows'⟩ := holds'.writeAll_again h₁.calm (holds.room_of_writeAll hv)
  rw [← h₁.header] at hv'
  obtain ⟨w₂, s₂, closed, -, header, cursor, volume⟩ := close_spec works hf hv
  obtain ⟨w₂', s₂', closed', -, header', cursor', volume'⟩ := close_spec works' hf' hv'
  rw [closed] at ok
  rw [closed, closed']
  refine ⟨?_, ?_, ?_, ⟨content.patch 0 w₁.header.toBytes, ?_⟩, ?_⟩
  · have closes := after'.close_ok (follows'.closes h₁.closes)
    have full : w₁.closingOutcome (.ok ()) = .ok () := by
      cases closing : (w₁.file.close v).1 with
      | error e => simp [closing, closingOutcome] at ok
      | ok u => rwa [closing] at ok
    have same : w₁'.closingOutcome (.ok ()) = w₁.closingOutcome (.ok ()) := by
      simp only [closingOutcome, h₁.header]
    rw [closes, same, full]
  · rw [header, header', h₁.header]
  · rw [cursor, cursor', h₁.cursor]
  · obtain ⟨_, _, _, before⟩ := holds
    obtain ⟨_, _, _, node⟩ := after
    refine Volume.read_changed h₁.found before ?_ fun q hq => ?_
    · rw [volume, FileHandle.close_node?, node]
    · rw [volume, FileHandle.close_node?, follows.others q hq]
  · intro q
    rw [volume, volume', FileHandle.close_node?, FileHandle.close_node?]
    by_cases hq : q = p
    · obtain ⟨_, _, _, node⟩ := after
      obtain ⟨_, _, _, node'⟩ := after'
      rw [hq, node, node']
    · rw [follows'.others q hq, follows.others q hq, h₁.others q hq]

end Alongside

/-- An opening that is accepted is accepted on the same tree with another compressor. -/
theorem openWith_again {w₀ w : ChunkWriter} {path : Text} {params : Parameters}
    {c clean : Compressor} {s₀ s s₀' : Session}
    (opened : w₀.openWith path params (some c) s₀ = (.ok (), w, s))
    (tree : ∀ q, s₀'.volume.node? q = s₀.volume.node? q) :
    ∃ w' s', w₀.openWith path params (some clean) s₀' = (.ok (), w', s') ∧
      ∀ q, s'.volume.node? q = s.volume.node? q := by
  unfold openWith at opened ⊢
  dsimp only [Session.handOver] at opened ⊢
  by_cases used : !w₀.isUnopened
  · rw [if_pos used] at opened
    cases opened
  rw [if_neg used] at opened ⊢
  cases check : params.check with
  | error e =>
    rw [check] at opened
    cases opened
  | ok u =>
    rcases ho : w₀.file.openAt path s₀.volume with ⟨_ | u, f, v⟩
    · simp [check, ho] at opened
    rw [check, ho] at opened
    cases opened
    obtain ⟨f', v', ho', tree'⟩ := FileHandle.openAt_again ho tree
    rw [ho']
    exact ⟨_, _, rfl, tree'⟩

/-- Two writers that are opened so are alongside each other. -/
theorem openWith_alongside {w₀ w : ChunkWriter} {path : Text} {params : Parameters}
    {c clean : Compressor} {encode : Bytes → Bytes} {s₀ s s₀' : Session}
    (opened : w₀.openWith path params (some c) s₀ = (.ok (), w, s))
    (file : s₀.volume.LeadsToFile path) (standsIn : clean.StandsIn c encode)
    (tree : ∀ q, s₀'.volume.node? q = s₀.volume.node? q) (calm : s₀'.volume.WritesGoOn)
    (closes : s₀'.volume.Closes) :
    ∃ w' s' p, w₀.openWith path params (some clean) s₀' = (.ok (), w', s') ∧
      Alongside path p c clean encode false w w' s.volume s'.volume := by
  obtain ⟨w', s', opened', tree'⟩ := openWith_again opened tree
  have file' : s₀'.volume.LeadsToFile path := by
    intro q leads
    rw [Volume.find_outline fun q => congrArg _ (tree q)] at leads
    rw [tree]
    exact file q leads
  obtain ⟨p, found, -, works, header, cursor, holds⟩ := openWith_ok file opened
  obtain ⟨p', found', follows', works', header', cursor', holds'⟩ := openWith_ok file' opened'
  obtain rfl : p' = p := by
    rw [Volume.find_outline fun q => congrArg _ (tree' q), found] at found'
    exact (Except.ok.inj found').symm
  rw [standsIn.bound] at works'
  rw [standsIn.type] at header' cursor'
  refine ⟨w', s', p', opened', header'.trans header.symm, cursor'.trans cursor.symm, found,
    ⟨_, _, works, works', ByteArray.empty, 0, ?_, holds', .inl rfl⟩, fun q _ => tree' q,
    follows'.writesGoOn calm, follows'.closes closes⟩
  rw [Bytes.patch_first_zero]
  exact holds

/-- Failures that are retried leave no trace. A writer is opened on a file with a compressor whose
results are a function of the chunk where it succeeds; its calls and the writes may fail anywhere, a
write behind any front of its bytes. If every flush that fails is called again with the same chunk
until it succeeds, and the close succeeds, then the run without these failures — with a compressor
that stands in for the other, on the same tree with no failing write — is accepted as a whole and
comes to the same file, the same header with its offsets, and the same cursor. -/
theorem retried_leaves_no_trace {w₀ w : ChunkWriter} {path : Text} {params : Parameters}
    {c clean : Compressor} {encode : Bytes → Bytes} {s₀ s s₀' : Session}
    (opened : w₀.openWith path params (some c) s₀ = (.ok (), w, s))
    (file : s₀.volume.LeadsToFile path) (yields : c.Yields encode)
    (standsIn : clean.StandsIn c encode) (tree : ∀ q, s₀'.volume.node? q = s₀.volume.node? q)
    (calm : s₀'.volume.WritesGoOn) (closes : s₀'.volume.Closes) {actions : List Action}
    (retried : Retried false (w, s) actions)
    (ok : ((acted (w, s) actions).1.close (acted (w, s) actions).2).1 = .ok ()) :
    let x := acted (w, s) actions
    let closed := x.1.close x.2
    ∃ w' s', w₀.openWith path params (some clean) s₀' = (.ok (), w', s') ∧
      FlushesSucceed (w', s') (lasting (w, s) actions) ∧
      let x' := acted (w', s') (lasting (w, s) actions)
      let closed' := x'.1.close x'.2
      closed'.1 = .ok () ∧ closed'.2.1.header = closed.2.1.header ∧
        closed'.2.1.cursor = closed.2.1.cursor ∧
        (∀ q, closed'.2.2.volume.node? q = closed.2.2.volume.node? q) ∧
        ∃ content, closed.2.2.volume.read path = .bytes content ∧
          closed'.2.2.volume.read path = .bytes content := by
  intro x closed
  obtain ⟨w', s', p, opened', start⟩ := openWith_alongside opened file standsIn tree calm closes
  obtain ⟨succeed, _, last⟩ := start.acted yields standsIn retried
  obtain ⟨ok', header, cursor, ⟨content, read⟩, same⟩ := last.close yields standsIn ok
  refine ⟨w', s', opened', succeed, ok', header, cursor, same, content, read, ?_⟩
  exact (Volume.read_eq same path).trans read

/-- A compressor that keeps two bytes of a chunk, but fails when it is called first. -/
def keepTwoLater : Compressor :=
  .ofFunction ⟨9⟩ (fun _ => 2) fun call chunk _ =>
    if call = 0 then (Bytes.ofText [9, 9], .error (.stagingTooSmall 3 2))
    else (chunk.first 2, .ok (chunk.first 2).size)

/-- One byte of the first write is taken, the next is refused, and another is interrupted. -/
def faultySession : Session where
  volume := { Volume.initial with
    writeFaults := fun _ => [.short 1, .refused .noSpace, .refused .interrupted] }

/-- A chunk that is stored at the third try, and one that is left for the close. -/
def thirdTry : List Action :=
  [.call (.buffer (.append (Bytes.ofText [1, 2, 3]))), .call .flush, .call .flush, .call .flush,
    .call (.buffer (.append (Bytes.ofText [4])))]

def openedFaulty : Outcome × ChunkWriter × Session :=
  openWith {} [102] twoChunks (some keepTwoLater) faultySession

theorem retried_leaves_no_trace_thirdTry :
    let x := acted openedFaulty.2 thirdTry
    ∃ w' s', openWith {} [102] twoChunks (some (keepTwoLater.unfailing (·.first 2))) {} =
        (.ok (), w', s') ∧
      let x' := acted (w', s') (lasting openedFaulty.2 thirdTry)
      (x'.1.close x'.2).1 = .ok () ∧ (x'.1.close x'.2).2.1.header.offsets = #[36, 38] ∧
        ∃ content, (x.1.close x.2).2.2.volume.read [102] = .bytes content ∧
          (x'.1.close x'.2).2.2.volume.read [102] = .bytes content := by
  have opened : openWith {} [102] twoChunks (some keepTwoLater) faultySession =
      (.ok (), openedFaulty.2.1, openedFaulty.2.2) := rfl
  have file : faultySession.volume.LeadsToFile [102] := by
    intro p h
    cases h
  have yields : keepTwoLater.Yields (·.first 2) := by
    intro call chunk staging n ok room
    by_cases first : call = 0
    · simp [keepTwoLater, Compressor.ofFunction, first] at ok
    · obtain rfl : (chunk.first 2).size = n := by
        simpa [keepTwoLater, Compressor.ofFunction, first] using ok
      simpa [keepTwoLater, Compressor.ofFunction, first] using Compressor.stage_first room
  have retried : Retried false openedFaulty.2 thirdTry := ⟨rfl, rfl, trivial⟩
  have tree : ∀ q, ({} : Session).volume.node? q = faultySession.volume.node? q := fun _ => rfl
  have calm : ({} : Session).volume.WritesGoOn := fun _ => List.forall_mem_nil _
  have closes : ({} : Session).volume.Closes := fun _ => rfl
  obtain ⟨w', s', opened', -, ok', header, -, -, read⟩ :=
    retried_leaves_no_trace opened file yields yields.unfailing tree calm closes retried rfl
  refine ⟨w', s', opened', ok', ?_, read⟩
  rw [header]
  rfl

end ChunkWriter
end ForwardIndex
