import ForwardIndex.IndexFile
import ForwardIndex.Proofs.ClosedFile
import ForwardIndex.Proofs.Release

/-!
# No header before all data

From an opening to the write of the header inside a close, the room of the header holds nothing but
zeros, and the chunks recorded so far lie untouched behind it. This holds between any two actions
and behind every single write, as `FileHandle.passes` lists them, whether the writes come to an end
or fail on the way: a write of a chunk starts at the cursor, and the cursor is behind both.
-/
set_option autoImplicit false
namespace ForwardIndex

/-! ## Single writes -/

namespace FileHandle

/-- A single write: where it was to put bytes, and the volume behind it. -/
structure Pass where
  offset : Nat
  volume : Volume

/-- The single writes that `writeRest` makes, in order. -/
def passesRest (d : Nat) (bytes : Bytes) (offset : Nat) :
    List WriteFault → Nat → Volume → List Pass
  | [], done, v =>
    if bytes.size ≤ done then []
    else [⟨offset + done, (v.write none d (bytes.rest done) (offset + done)).2⟩]
  | fault :: faults, done, v =>
    if bytes.size ≤ done then []
    else
      match v.write (some fault) d (bytes.rest done) (offset + done) with
      | (.error .interrupted, v') =>
        ⟨offset + done, v'⟩ :: passesRest d bytes offset faults done v'
      | (.error _, v') | (.ok 0, v') => [⟨offset + done, v'⟩]
      | (.ok count, v') =>
        ⟨offset + done, v'⟩ :: passesRest d bytes offset faults (done + count) v'

/-- The single writes that `writeAll` makes, in order. -/
def passes (f : FileHandle) (bytes : Bytes) (offset : Nat) (v : Volume) : List Pass :=
  match f.descriptor with
  | none => []
  | some d => passesRest d bytes offset (v.faultsOf d) 0 v

/-- The volume behind the last of some writes. -/
def lastVolume (v : Volume) : List Pass → Volume
  | [] => v
  | pass :: rest => lastVolume pass.volume rest

/-- A write of all bytes is its single writes, one after the other; only the faults that are left
are not told by them. -/
theorem writeRest_passes (path : Text) (d : Nat) (bytes : Bytes) (offset : Nat)
    (faults : List WriteFault) (done : Nat) (v : Volume) :
    ∃ left, (writeRest path d bytes offset faults done v).2 =
      { lastVolume v (passesRest d bytes offset faults done v) with writeFaults := left } := by
  induction faults generalizing done v with
  | nil =>
    by_cases all : bytes.size ≤ done
    · simp only [writeRest, passesRest, all, if_true, lastVolume]
      exact ⟨_, Volume.facing_eq ..⟩
    · rcases hw : v.write none d (bytes.rest done) (offset + done) with ⟨e | count, v'⟩
      all_goals
        simp only [writeRest, passesRest, all, hw, if_false, lastVolume]
        exact ⟨_, Volume.facing_eq ..⟩
  | cons fault faults ih =>
    by_cases all : bytes.size ≤ done
    · simp only [writeRest, passesRest, all, if_true, lastVolume]
      exact ⟨_, Volume.facing_eq ..⟩
    · rcases hw : v.write (some fault) d (bytes.rest done) (offset + done) with ⟨e | count, v'⟩
      · cases e <;> simp only [writeRest, passesRest, all, hw, if_false, lastVolume]
        case interrupted => exact ih done v'
        all_goals exact ⟨_, Volume.facing_eq ..⟩
      · cases count <;> simp only [writeRest, passesRest, all, hw, if_false, lastVolume]
        case zero => exact ⟨_, Volume.facing_eq ..⟩
        case succ => exact ih _ v'

theorem writeAll_passes (f : FileHandle) (bytes : Bytes) (offset : Nat) (v : Volume) :
    ∃ left, (f.writeAll bytes offset v).2 =
      { lastVolume v (f.passes bytes offset v) with writeFaults := left } := by
  unfold writeAll passes
  cases f.descriptor with
  | none => exact ⟨v.writeFaults, rfl⟩
  | some d => exact writeRest_passes f.path d bytes offset (v.faultsOf d) 0 v

/-- One write with what is left of the bytes lengthens the front that is in place by the bytes that
are taken; a refused one takes none. -/
theorem write_front {d : Nat} {bytes : Bytes} {offset : Nat} {p : Place} {content : Bytes}
    {done : Nat} {v : Volume}
    (node : v.node? p = some (.file (content.patch offset (bytes.first done))))
    (isOpen : v.IsOpen d p) (within : done ≤ bytes.size) (fault : Option WriteFault) :
    ∃ count v', v.write fault d (bytes.rest done) (offset + done) = (.ok count, v') ∧
        done + count ≤ bytes.size ∧
        Volume.Wrote d p (content.patch offset (bytes.first (done + count))) v v' ∨
      ∃ e, v.write fault d (bytes.rest done) (offset + done) = (.error e, v) := by
  obtain ⟨e, hw, -⟩ | ⟨count, v', hw, le, -, wrote, -⟩ :=
    Volume.write_cases node isOpen fault (bytes.rest done) (offset + done)
  · exact ⟨0, v, .inr ⟨e, hw⟩⟩
  · have room : done + count ≤ bytes.size := by
      rw [Bytes.size_rest] at le
      omega
    rw [Bytes.patch_first_patch_rest _ _ _ _ _ room] at wrote
    exact ⟨count, v', .inl ⟨hw, room, wrote⟩⟩

/-- A single write that is put at an offset or behind it and leaves a front of the bytes there. -/
def Fronts (d : Nat) (p : Place) (content : Bytes) (offset : Nat) (bytes : Bytes) (v : Volume)
    (pass : Pass) : Prop :=
  offset ≤ pass.offset ∧
    ∃ n ≤ bytes.size, Volume.Wrote d p (content.patch offset (bytes.first n)) v pass.volume

theorem Fronts.weaken {d : Nat} {p : Place} {content a : Bytes} {offset : Nat} {bytes : Bytes}
    {u v : Volume} {pass : Pass} (step : Volume.Wrote d p a u v)
    (h : Fronts d p content offset bytes v pass) : Fronts d p content offset bytes u pass := by
  obtain ⟨behind, n, le, wrote⟩ := h
  exact ⟨behind, n, le, step.trans wrote⟩

theorem Fronts.stay {d : Nat} {p : Place} {content : Bytes} {offset done : Nat} {bytes : Bytes}
    {v : Volume} (node : v.node? p = some (.file (content.patch offset (bytes.first done))))
    (isOpen : v.IsOpen d p) (within : done ≤ bytes.size) :
    Fronts d p content offset bytes v ⟨offset + done, v⟩ :=
  ⟨Nat.le_add_right _ _, done, within, node, fun _ _ => rfl, isOpen, rfl⟩

/-- Whatever befalls a write of all bytes, each of its single writes is such a one. -/
theorem passesRest_fronts {d : Nat} {bytes : Bytes} {offset : Nat} {p : Place} {content : Bytes}
    (faults : List WriteFault) {done : Nat} {v : Volume}
    (node : v.node? p = some (.file (content.patch offset (bytes.first done))))
    (isOpen : v.IsOpen d p) (within : done ≤ bytes.size) :
    ∀ pass ∈ passesRest d bytes offset faults done v, Fronts d p content offset bytes v pass := by
  induction faults generalizing done v with
  | nil =>
    intro pass among
    obtain ⟨count, v', ⟨hw, room, wrote⟩ | ⟨e, hw⟩⟩ := write_front node isOpen within none
    all_goals
      simp only [passesRest, hw, List.mem_ite_nil_left, List.mem_singleton] at among
      obtain ⟨-, rfl⟩ := among
    · exact ⟨Nat.le_add_right _ _, _, room, wrote⟩
    · exact Fronts.stay node isOpen within
  | cons fault faults ih =>
    intro pass among
    obtain ⟨count, v', ⟨hw, room, wrote⟩ | ⟨e, hw⟩⟩ := write_front node isOpen within (some fault)
    · have first : Fronts d p content offset bytes v ⟨offset + done, v'⟩ :=
        ⟨Nat.le_add_right _ _, _, room, wrote⟩
      cases count with
      | zero =>
        simp only [passesRest, hw, List.mem_ite_nil_left, List.mem_singleton] at among
        obtain ⟨-, rfl⟩ := among
        exact first
      | succ count =>
        simp only [passesRest, hw, List.mem_ite_nil_left, List.mem_cons] at among
        obtain ⟨-, rfl | later⟩ := among
        · exact first
        · exact (ih wrote.node wrote.isOpen room pass later).weaken wrote
    · cases e with
      | interrupted =>
        simp only [passesRest, hw, List.mem_ite_nil_left, List.mem_cons] at among
        obtain ⟨-, rfl | later⟩ := among
        · exact Fronts.stay node isOpen within
        · exact ih node isOpen within pass later
      | _ =>
        simp only [passesRest, hw, List.mem_ite_nil_left, List.mem_singleton] at among
        obtain ⟨-, rfl⟩ := among
        exact Fronts.stay node isOpen within

theorem Holds.passes {f : FileHandle} {v : Volume} {p : Place} {content : Bytes}
    (h : f.Holds v p content) (bytes : Bytes) (offset : Nat) :
    ∀ pass ∈ f.passes bytes offset v, offset ≤ pass.offset ∧
      ∃ n ≤ bytes.size, pass.volume.node? p = some (.file (content.patch offset (bytes.first n))) ∧
        ∀ q, q ≠ p → pass.volume.node? q = v.node? q := by
  obtain ⟨d, hd, isOpen, node⟩ := h
  have start : v.node? p = some (.file (content.patch offset (bytes.first 0))) := by
    rw [node, Bytes.patch, if_pos (by simp)]
  intro pass among
  simp only [FileHandle.passes, hd] at among
  obtain ⟨behind, n, le, wrote⟩ :=
    passesRest_fronts (v.faultsOf d) start isOpen (Nat.zero_le _) pass among
  exact ⟨behind, n, le, wrote.node, wrote.others⟩

end FileHandle

/-! ## The file of an open writer -/

/-- A file in which the room of a header is clear, as far as the file reaches, and chunks lie behind
it. What is behind the chunks is left open: a write that failed may have put something there. -/
structure Bears (room : Nat) (chunks : List Bytes) (content : Bytes) : Prop where
  clear : ∀ byte ∈ content.toText.take room, byte = 0
  chunks : Bytes.joined chunks <+: content.toText.drop room

section Bears

variable {room : Nat} {chunks : List Bytes} {content : Bytes}

theorem Bears.empty (room : Nat) : Bears room [] ByteArray.empty where
  clear := by simp
  chunks := List.nil_prefix

/-- What is written behind the chunks leaves them and the room before them. -/
theorem Bears.patch (h : Bears room chunks content) {offset : Nat}
    (behind : room + (Bytes.joined chunks).length ≤ offset) (bytes : Bytes) :
    Bears room chunks (content.patch offset bytes) := by
  refine ⟨Bytes.take_patch_behind (by omega) h.clear, ?_⟩
  by_cases none : Bytes.joined chunks = []
  · simp [none]
  · have some : 0 < (Bytes.joined chunks).length := List.length_pos_of_ne_nil none
    have reaches : room + (Bytes.joined chunks).length ≤ content.size := by
      have := h.chunks.length_le
      rw [List.length_drop, Bytes.length_toText] at this
      omega
    have kept := congrArg (List.drop room) (Bytes.take_patch bytes behind reaches)
    rw [List.drop_take, List.drop_take, Nat.add_sub_cancel_left] at kept
    rw [List.prefix_iff_eq_take, kept]
    exact List.prefix_iff_eq_take.1 h.chunks

/-- A chunk that is written where the others end lies behind them. -/
theorem Bears.store (h : Bears room chunks content) (chunk : Bytes) :
    Bears room (chunks ++ [chunk])
      (content.patch (room + (Bytes.joined chunks).length) chunk) := by
  have kept := h.patch (Nat.le_refl _) chunk
  refine ⟨kept.clear, ?_⟩
  rw [Bytes.joined_concat]
  by_cases none : chunk.size = 0
  · simpa [Bytes.toText_eq_nil.2 none] using kept.chunks
  · obtain ⟨behind, eq⟩ := kept.chunks
    have found := Bytes.drop_patch content (room + (Bytes.joined chunks).length) none
    rw [← List.drop_drop, ← eq, List.drop_left] at found
    rw [← eq, found, ← List.append_assoc]
    exact List.prefix_append _ _

/-- No version is legal that is read where a header would start. -/
theorem Bears.illegal (h : Bears room chunks content) (wide : 4 ≤ room) (fixedWidth : Bool) :
    Layout.checkVersion (IndexFile.int32At content 0) fixedWidth ≠ .ok () := by
  have zeros {t : Text} (all : ∀ byte ∈ t, byte = 0) : Bytes.bigEndian t = 0 := by
    rw [List.eq_replicate_iff.2 ⟨rfl, all⟩]
    induction t.length with
    | zero => rfl
    | succ n ih => simpa [Bytes.bigEndian, List.replicate_succ] using ih
  have version : IndexFile.int32At content 0 = 0 := by
    rw [IndexFile.int32At, Bytes.toText_slice, zeros]
    · rfl
    · intro byte among
      exact h.clear byte (List.take_subset_take_left _ wide (by simpa using among))
  rw [version]
  cases fixedWidth <;> decide

end Bears

namespace ChunkWriter

/-- The single writes of a flush, in order. -/
def passes (w : ChunkWriter) (s : Session) : List FileHandle.Pass :=
  match w.output? with
  | none => []
  | some out => w.file.passes out w.cursor s.volume

/-- The single writes of a flush are all that it does to the volume. -/
theorem flush_passes (w : ChunkWriter) (s : Session) :
    ∃ left, (w.flush s).2.2.volume =
      { FileHandle.lastVolume s.volume (w.passes s) with writeFaults := left } := by
  have silent (none : w.output? = none) :
      FileHandle.lastVolume s.volume (w.passes s) = s.volume := by
    simp [passes, none, FileHandle.lastVolume]
  rcases hf : w.flush s with ⟨outcome, w', s'⟩
  cases hf ▸ w.flushed s with
  | forbidden log none rule => exact ⟨s.volume.writeFaults, by rw [silent none]⟩
  | uncompressed works none fails works' alike volume =>
    exact ⟨s.volume.writeFaults, by rw [silent none, volume]⟩
  | @unwritten e w' s' c b room out works some write works' alike =>
    obtain ⟨left, eq⟩ := w.file.writeAll_passes out w.cursor s.volume
    exact ⟨left, by simpa [passes, some, write] using eq⟩
  | @stored w' s' c b room out works some write works' header file cursor =>
    obtain ⟨left, eq⟩ := w.file.writeAll_passes out w.cursor s.volume
    exact ⟨left, by simpa [passes, some, write] using eq⟩

/-- A writer and what it shares after actions, whatever they report. -/
def acted (x : ChunkWriter × Session) : List Action → ChunkWriter × Session
  | [] => x
  | action :: rest => acted (x.1.step x.2 action) rest

/-- What an action stores. -/
def storedIn (x : ChunkWriter × Session) : Action → List Bytes
  | .call call => storedBy x call
  | .close => stored x x.1.pending
  | _ => []

/-- The chunks that actions store, in order. -/
def recordedBy (x : ChunkWriter × Session) : List Action → List Bytes
  | [] => []
  | action :: rest => storedIn x action ++ recordedBy (x.1.step x.2 action) rest

/-- A writer at work whose header, cursor and file agree about the chunks stored so far, with the
room of the header clear. -/
structure Unheaded (p : Place) (blank : Header) (chunks : List Bytes) (w : ChunkWriter)
    (v : Volume) : Prop where
  isOpen : w.isOpen
  header : w.header = { blank with offsets := (Layout.starts blank.size chunks).toArray }
  cursor : w.cursor = blank.size + (Bytes.joined chunks).length
  file : ∃ content, w.file.Holds v p content ∧ Bears blank.size chunks content

section Unheaded

variable {p : Place} {blank : Header} {chunks : List Bytes} {w w' : ChunkWriter}

theorem Unheaded.of_alike {v : Volume} (h : Unheaded p blank chunks w v) (isOpen : w'.isOpen)
    (alike : Alike w w') : Unheaded p blank chunks w' v where
  isOpen := isOpen
  header := alike.header.trans h.header
  cursor := alike.cursor.trans h.cursor
  file := by
    rw [alike.file]
    exact h.file

/-- A flush puts at most a part of a chunk behind those that are recorded, or one more of them. -/
theorem Unheaded.flush {s : Session} (h : Unheaded p blank chunks w s.volume) :
    Unheaded p blank (chunks ++ storedBy (w, s) .flush) (w.flush s).2.1 (w.flush s).2.2.volume ∧
      FileHandle.Follows p s.volume (w.flush s).2.2.volume := by
  obtain ⟨content, holds, bears⟩ := h.file
  have refused {e : Failure} (failed : (w.flush s).1 = .error e) :
      chunks ++ storedBy (w, s) .flush = chunks := by simp [storedBy, failed]
  rcases hf : w.flush s with ⟨outcome, w', s'⟩
  cases hf ▸ w.flushed s with
  | forbidden log none rule =>
    rw [refused (congrArg Prod.fst hf)]
    exact ⟨h, .refl _ _⟩
  | uncompressed works none fails works' alike volume =>
    rw [refused (congrArg Prod.fst hf), volume]
    exact ⟨h.of_alike works'.isOpen alike, .refl _ _⟩
  | unwritten works some write works' alike =>
    rw [refused (congrArg Prod.fst hf)]
    obtain ⟨n, -, after, follows, -, -⟩ := holds.writeAll _ w.cursor
    rw [write] at after follows
    refine ⟨⟨works'.isOpen, alike.header.trans h.header, alike.cursor.trans h.cursor, ?_⟩, follows⟩
    rw [alike.file]
    exact ⟨_, after, bears.patch (Nat.le_of_eq h.cursor.symm) _⟩
  | @stored w' s' c b room out works some write works' header file cursor =>
    have more : storedBy (w, s) .flush = [out] := by simp [storedBy, hf, some]
    obtain ⟨after, follows⟩ := holds.writeAll_ok write
    rw [more]
    refine ⟨⟨works'.isOpen, ?_, ?_, ?_⟩, follows⟩
    · simp [header, h.header, h.cursor, Layout.starts_concat]
    · simp [cursor, h.cursor, Bytes.joined_concat, Nat.add_assoc]
    · rw [file]
      rw [h.cursor] at after
      exact ⟨_, after, bears.store out⟩

theorem works_of_isOpen (h : w.isOpen) : ∃ c b room, w.Works c b room := by
  obtain ⟨logger, header, file, cursor, stage⟩ := w
  cases stage with
  | unopened => cases h
  | closed => cases h
  | writing codec b staging => exact ⟨_, _, _, codec, staging, rfl, rfl, rfl⟩

/-- A call on the buffer changes nothing else of a writer at work. -/
theorem Works.onBuffer {α : Type} {c : Compressor} {b : Buffer} {room : Nat}
    (h : w.Works c b room) (f : Buffer → α × Buffer) :
    (w.onBuffer f).2.Works c (f b).2 room ∧ Alike w (w.onBuffer f).2 := by
  obtain ⟨codec, staging, hs, hc, hr⟩ := h
  obtain ⟨logger, header, file, cursor, stage⟩ := w
  obtain rfl : stage = .writing codec b staging := hs
  exact ⟨⟨codec, staging, rfl, hc, hr⟩, rfl, rfl, rfl⟩

/-- Every action but a close keeps the agreement and leaves all other files. -/
theorem Unheaded.step {s : Session} (h : Unheaded p blank chunks w s.volume) {action : Action}
    (other : action ≠ .close) :
    Unheaded p blank (chunks ++ storedIn (w, s) action) (w.step s action).1
        (w.step s action).2.volume ∧
      FileHandle.Follows p s.volume (w.step s action).2.volume := by
  have opened : w.isUnopened = false := by
    by_contra fresh
    cases (isOpen_of_isUnopened (by simpa using fresh)).symm.trans h.isOpen
  have rejected {r : Outcome × ChunkWriter × Session} (rejected : Rejected w s r) :
      Unheaded p blank (chunks ++ []) r.2.1 r.2.2.volume ∧
        FileHandle.Follows p s.volume r.2.2.volume := by
    obtain ⟨e, s', rfl, volume⟩ := rejected
    rw [List.append_nil, volume]
    exact ⟨h, .refl _ _⟩
  cases action with
  | openWith path params compressor => exact rejected (openWith_rejected opened path params _ s)
  | openBuiltin path params z => exact rejected (openBuiltin_rejected opened path params s z)
  | close => exact absurd rfl other
  | call call =>
    cases call with
    | flush => exact h.flush
    | buffer call =>
      obtain ⟨_, _, _, works⟩ := works_of_isOpen h.isOpen
      obtain ⟨works', alike⟩ := works.onBuffer call.apply
      simp only [storedIn, storedBy, List.append_nil]
      exact ⟨h.of_alike works'.isOpen alike, .refl _ _⟩

/-- So do actions one after the other, up to a close; by induction on them. -/
theorem Unheaded.acted {x : ChunkWriter × Session} (h : Unheaded p blank chunks x.1 x.2.volume)
    {actions : List Action} (before : .close ∉ actions) :
    Unheaded p blank (chunks ++ recordedBy x actions) (ChunkWriter.acted x actions).1
        (ChunkWriter.acted x actions).2.volume ∧
      FileHandle.Follows p x.2.volume (ChunkWriter.acted x actions).2.volume := by
  induction actions generalizing x chunks with
  | nil => exact ⟨by simpa [recordedBy, ChunkWriter.acted] using h, .refl _ _⟩
  | cons action rest ih =>
    rw [List.mem_cons, not_or] at before
    obtain ⟨after, follows⟩ := h.step fun same => before.1 same.symm
    obtain ⟨last, follows'⟩ := ih after before.2
    rw [List.append_assoc] at last
    exact ⟨last, follows.trans follows'⟩

/-- Each single write of a flush starts behind the chunks recorded so far and leaves them. -/
theorem Unheaded.passes {s : Session} (h : Unheaded p blank chunks w s.volume) :
    ∀ pass ∈ w.passes s, w.cursor ≤ pass.offset ∧
      ∃ content, pass.volume.node? p = some (.file content) ∧ Bears blank.size chunks content ∧
        ∀ q, q ≠ p → pass.volume.node? q = s.volume.node? q := by
  obtain ⟨content, holds, bears⟩ := h.file
  intro pass among
  unfold ChunkWriter.passes at among
  cases some : w.output? with
  | none =>
    rw [some] at among
    cases among
  | some out =>
    rw [some] at among
    obtain ⟨behind, n, -, node, others⟩ := holds.passes out w.cursor pass among
    exact ⟨behind, _, node, bears.patch (Nat.le_of_eq h.cursor.symm) _, others⟩

theorem Unheaded.flushPending {s : Session} (h : Unheaded p blank chunks w s.volume) :
    Unheaded p blank (chunks ++ stored (w, s) w.pending) (w.flushPending s).2.1
        (w.flushPending s).2.2.volume ∧
      FileHandle.Follows p s.volume (w.flushPending s).2.2.volume := by
  unfold ChunkWriter.flushPending pending
  split
  · exact ⟨by simpa [stored] using h, .refl _ _⟩
  · simpa [stored] using h.flush

/-- A pending flush that fails stores nothing. -/
theorem stored_pending {s : Session} {e : Failure} (failed : (w.flushPending s).1 = .error e) :
    stored (w, s) w.pending = [] := by
  unfold ChunkWriter.flushPending at failed
  unfold pending
  split
  · rfl
  · next some =>
    rw [if_neg some] at failed
    simp [stored, storedBy, failed]

end Unheaded

/-- What the path of an open writer reads as: a file with no header yet and the chunks recorded so
far. -/
def ReadsUnheaded (path : Text) (room : Nat) (chunks : List Bytes) (v : Volume) : Prop :=
  ∃ content, v.read path = .bytes content ∧ Bears room chunks content

/-- A writer that is opened stands before an empty file. -/
theorem Opens.unheaded {w₀ w : ChunkWriter} {path : Text} {params : Parameters} {s₀ s : Session}
    (opened : Opens w₀ path params s₀ w s) (file : s₀.volume.LeadsToFile path) :
    ∃ p, s.volume.find path = .ok p ∧ Unheaded p w.header [] w s.volume := by
  obtain ⟨c, opened⟩ := opened.exists_compressor
  obtain ⟨p, found, -, works, header, cursor, holds⟩ := openWith_ok file opened
  rw [header]
  exact ⟨p, found, works.isOpen, header, cursor, _, holds, .empty _⟩

/-- Nothing stands where the header will be from the opening of a file to the write of the header.
After any actions but a close, behind every single write of a flush that comes next — one that is
called for or the one that a close starts with — and behind that flush, the path reads as a file
whose header room is clear and which has all recorded chunks in place. Single writes start at or
behind the cursor, where the recorded chunks end. If the flush in a close fails, the file is left
so: what would be read as its version is none. -/
theorem acted_unheaded {w₀ w : ChunkWriter} {path : Text} {params : Parameters} {s₀ s : Session}
    (opened : Opens w₀ path params s₀ w s) (file : s₀.volume.LeadsToFile path)
    {actions : List Action} (before : .close ∉ actions) :
    let x := acted (w, s) actions
    let chunks := recordedBy (w, s) actions
    let flushed := x.1.flushPending x.2
    x.1.header.offsets.toList = Layout.starts w.header.size chunks ∧
      x.1.cursor = w.header.size + (Bytes.joined chunks).length ∧
      ReadsUnheaded path w.header.size chunks x.2.volume ∧
      (∀ pass ∈ x.1.passes x.2, x.1.cursor ≤ pass.offset ∧
        ReadsUnheaded path w.header.size chunks pass.volume) ∧
      ReadsUnheaded path w.header.size (chunks ++ stored x x.1.pending) flushed.2.2.volume ∧
      ∀ e, flushed.1 = .error e →
        (x.1.close x.2).1 = .error e ∧
          ∃ content, (x.1.close x.2).2.2.volume.read path = .bytes content ∧
            Bears w.header.size chunks content ∧
            ∀ fixedWidth,
              Layout.checkVersion (IndexFile.int32At content 0) fixedWidth ≠ .ok () := by
  intro x chunks flushed
  obtain ⟨p, found, start⟩ := opened.unheaded file
  obtain ⟨_, ⟨_, _, _, old⟩, _⟩ := start.file
  obtain ⟨now, follows⟩ := Unheaded.acted (x := (w, s)) start before
  rw [List.nil_append] at now
  have reads {v : Volume} {content : Bytes} (node : v.node? p = some (.file content))
      (others : ∀ q, q ≠ p → v.node? q = x.2.volume.node? q) : v.read path = .bytes content :=
    Volume.read_changed found old node fun q hq => (others q hq).trans (follows.others q hq)
  obtain ⟨_, ⟨_, _, _, node⟩, bears⟩ := now.file
  refine ⟨by rw [now.header], now.cursor, ⟨_, reads node fun _ _ => rfl, bears⟩, ?_, ?_, ?_⟩
  · intro pass among
    obtain ⟨behind, content, node, bears, others⟩ := now.passes pass among
    exact ⟨behind, content, reads node others, bears⟩
  · obtain ⟨after, follows⟩ := now.flushPending
    obtain ⟨_, ⟨_, _, _, node⟩, bears⟩ := after.file
    exact ⟨_, reads node follows.others, bears⟩
  · intro e failed
    obtain ⟨after, others⟩ := now.flushPending
    obtain ⟨_, _, _, works⟩ := works_of_isOpen now.isOpen
    have pending : x.1.flushPending x.2 = (.error e, flushed.2.1, flushed.2.2) :=
      Prod.ext failed rfl
    obtain ⟨w', s', closed, -, -, -, volume⟩ := close_failed works pending
    rw [stored_pending failed, List.append_nil] at after
    obtain ⟨content, ⟨_, _, _, node⟩, bears⟩ := after.file
    rw [closed]
    refine ⟨rfl, content, ?_, bears, bears.illegal ?_⟩
    · rw [volume]
      exact reads ((FileHandle.close_node? _ _ p).trans node) fun q hq =>
        (FileHandle.close_node? _ _ q).trans (others.others q hq)
    · unfold Header.size Layout.fieldsSize
      omega

/-- A file that has a version already, on a volume that takes one byte of the first write and then
refuses to take more. -/
def oldFile : Session where
  volume := { Volume.initial.put ([102] :: Place.working) (.file (Bytes.ofText [0, 0, 0, 2])) with
    writeFaults := fun _ => [.short 1, .refused .noSpace] }

/-- A chunk whose first flush fails half-way, another opening, and one chunk more than declared. -/
def oneTooMany : List Action :=
  [.call (.buffer (.append (Bytes.ofText [1, 2, 3]))), .call .flush, .call .flush,
    .openBuiltin [103] twoChunks .builtin, .call (.buffer (.append (Bytes.ofText [4, 5]))),
    .call .flush, .call (.buffer (.append (Bytes.ofText [6])))]

def openedOld : Outcome × ChunkWriter × Session :=
  openWith {} [102] twoChunks (some keepTwo) oldFile

theorem acted_unheaded_oneTooMany :
    let x := acted openedOld.2 oneTooMany
    (x.1.close x.2).1 = .error (.allChunksWritten [102] 2) ∧
      ∃ content, (x.1.close x.2).2.2.volume.read [102] = .bytes content ∧
        Bears 36 [Bytes.ofText [1, 2], Bytes.ofText [4, 5]] content ∧
        ∀ fixedWidth, Layout.checkVersion (IndexFile.int32At content 0) fixedWidth ≠ .ok () := by
  have opened : Opens {} [102] twoChunks oldFile openedOld.2.1 openedOld.2.2 := .handed keepTwo rfl
  have file : oldFile.volume.LeadsToFile [102] := by
    intro p h
    cases h
    exact ⟨_, rfl⟩
  have before : .close ∉ oneTooMany := by simp [oneTooMany]
  obtain ⟨-, -, -, -, -, failed⟩ := acted_unheaded opened file before
  exact failed (.allChunksWritten [102] 2) rfl

end ChunkWriter
end ForwardIndex
