import ForwardIndex.Proofs.Encoder

/-!
# Writing and reading variable-width values

A chunk is a row of slots and the values behind it. The buffer is not erased between chunks: while a
chunk is filled, the slots that are not taken yet still hold what the chunk before left there. What
a put stores and what a close clears makes the chunk independent of that.
-/
set_option autoImplicit false
namespace ForwardIndex.VariableWriter

open ChunkWriter (Steady)
open Encoder (Fills)
open Layout (slotWidth)

theorem slotWidth_pos : 0 < slotWidth := by decide

/-- The bytes of slots. -/
def slotBytes (slots : List UInt32) : Text := slots.flatMap Bytes.word32

/-- The slots of values: where each starts in a chunk of so many documents. -/
def slots (docs : Nat) (values : List Bytes) : List UInt32 :=
  (Layout.starts (docs * slotWidth) values).map UInt32.ofNat

/-- A chunk with slots of its own and others behind them, and the values. -/
def chunkWith (docs : Nat) (values : List Bytes) (others : List UInt32) : Bytes :=
  Bytes.ofText (slotBytes (slots docs values ++ others) ++ Bytes.joined values)

/-- The raw chunk of values: zeros in the slots of documents that are not there. -/
def rawChunk (docs : Nat) (values : List Bytes) : Bytes :=
  chunkWith docs values (List.replicate (docs - values.length) 0)

@[simp] theorem length_slotBytes (slots : List UInt32) :
    (slotBytes slots).length = slots.length * slotWidth :=
  Text.length_pieces fun _ _ => Bytes.length_word32 _

theorem slotBytes_append (slots more : List UInt32) :
    slotBytes (slots ++ more) = slotBytes slots ++ slotBytes more := List.flatMap_append

@[simp] theorem length_slots (docs : Nat) (values : List Bytes) :
    (slots docs values).length = values.length := by
  simp [slots]

@[simp] theorem slotBytes_cons (slot : UInt32) (more : List UInt32) :
    slotBytes (slot :: more) = Bytes.word32 slot ++ slotBytes more := rfl

@[simp] theorem slotBytes_nil : slotBytes [] = [] := rfl

theorem toText_chunkWith (docs : Nat) (values : List Bytes) (others : List UInt32) :
    (chunkWith docs values others).toText =
      slotBytes (slots docs values) ++ (slotBytes others ++ Bytes.joined values) := by
  rw [chunkWith, Bytes.toText_ofText, slotBytes_append, List.append_assoc]

theorem slots_append (docs : Nat) (values : List Bytes) (v : Bytes) :
    slots docs (values ++ [v]) =
      slots docs values ++ [UInt32.ofNat (docs * slotWidth + (Bytes.joined values).length)] := by
  rw [slots, Layout.starts_append, List.map_append]
  rfl

theorem size_chunkWith {docs : Nat} {values : List Bytes} {others : List UInt32}
    (length : values.length + others.length = docs) :
    (chunkWith docs values others).size = docs * slotWidth + (Bytes.joined values).length := by
  rw [chunkWith, Bytes.size_ofText, List.length_append, length_slotBytes, List.length_append,
    length_slots, length]

theorem size_rawChunk {docs : Nat} {values : List Bytes} (short : values.length ≤ docs) :
    (rawChunk docs values).size = docs * slotWidth + (Bytes.joined values).length :=
  size_chunkWith (by rw [List.length_replicate]; omega)

/-! ## The buffer -/

/-- Zeros are put over the slots from a position on. -/
theorem clearSlots_view {b : Buffer} {position : Nat} {front back : Text} {old : List UInt32}
    (view : b.data.toText = front ++ (slotBytes old ++ back)) (start : front.length = position) :
    ∃ b', clearSlots b position old.length = (none, b') ∧
      b'.data.toText = front ++ (slotBytes (List.replicate old.length 0) ++ back) ∧
      b'.capacity = b.capacity := by
  induction old generalizing b position front with
  | nil => exact ⟨b, rfl, view, rfl⟩
  | cons slot old ih =>
    rw [slotBytes_cons, List.append_assoc] at view
    obtain ⟨b₁, put, view₁, _, capacity₁⟩ :=
      Buffer.putWord32At_view view (Bytes.length_word32 slot) start 0
    have next : (front ++ Bytes.word32 0).length = position + slotWidth := by
      rw [List.length_append, start, Bytes.length_word32]
      rfl
    rw [← List.append_assoc] at view₁
    obtain ⟨b₂, clear, view₂, capacity₂⟩ := ih view₁ next
    refine ⟨b₂, ?_, ?_, capacity₂.trans capacity₁⟩
    · rw [List.length_cons, clearSlots, put]
      exact clear
    · rw [view₂, List.length_cons, List.replicate_succ, slotBytes_cons, List.append_assoc,
        List.append_assoc]

/-- A buffer starts with a chunk; what is behind it is left open. -/
def Holding (docs : Nat) (values : List Bytes) (others : List UInt32) (b : Buffer) : Prop :=
  ∃ rest, b.data.toText = (chunkWith docs values others).toText ++ rest

section Holding

variable {docs : Nat} {values : List Bytes} {others : List UInt32} {b : Buffer}

theorem Holding.size_le (h : Holding docs values others b)
    (length : values.length + others.length = docs) :
    docs * slotWidth + (Bytes.joined values).length ≤ b.capacity := by
  obtain ⟨rest, view⟩ := h
  have size := congrArg List.length view
  rw [List.length_append, Bytes.length_toText, Bytes.length_toText, size_chunkWith length] at size
  unfold Buffer.capacity
  omega

/-- Filled up to the end of the chunk, the buffer is the chunk. -/
theorem Holding.filled (h : Holding docs values others b)
    (length : values.length + others.length = docs)
    (position : b.position = docs * slotWidth + (Bytes.joined values).length) :
    b.filled = chunkWith docs values others := by
  obtain ⟨rest, view⟩ := h
  apply Bytes.ext
  rw [Buffer.toText_filled, view, position, ← size_chunkWith length,
    List.take_left' (Bytes.length_toText _)]

/-- A value is stored with its slot, over the first of the other slots and behind the values. -/
theorem Holding.storeValue {other : UInt32} (h : Holding docs values (other :: others) b)
    (length : values.length + (others.length + 1) = docs) {v : Bytes}
    (room : docs * slotWidth + (Bytes.joined values).length + v.size ≤ b.capacity) :
    ∃ b', VariableWriter.storeValue (values.length * slotWidth)
        (docs * slotWidth + (Bytes.joined values).length) v b = (true, b') ∧
      Holding docs (values ++ [v]) others b' ∧
      b'.position = docs * slotWidth + (Bytes.joined (values ++ [v])).length ∧
      b'.capacity = b.capacity := by
  have joined := Bytes.joined_concat values v
  obtain ⟨rest, view⟩ := h
  have size := congrArg List.length view
  rw [Bytes.length_toText, List.length_append, Bytes.length_toText,
    size_chunkWith (by rwa [List.length_cons])] at size
  have capacity : b.data.size = b.capacity := rfl
  rw [toText_chunkWith, slotBytes_cons] at view
  simp only [List.append_assoc] at view
  obtain ⟨b₁, put, view₁, _, capacity₁⟩ := Buffer.putWord32At_view view
    (Bytes.length_word32 other) (by rw [length_slotBytes, length_slots])
    (UInt32.ofNat (docs * slotWidth + (Bytes.joined values).length))
  have within : docs * slotWidth + (Bytes.joined values).length ≤ b₁.capacity := by omega
  obtain ⟨b₂, seek, data₂, position₂, capacity₂⟩ := Buffer.seek_ok within
  -- the value goes over the front of what is left
  rw [← List.take_append_drop v.size rest, ← data₂] at view₁
  have view₂ : b₂.data.toText = (slotBytes (slots docs (values ++ [v])) ++ slotBytes others ++
      Bytes.joined values) ++ (rest.take v.size ++ rest.drop v.size) := by
    rw [view₁, slots_append, slotBytes_append]
    simp
  have start : (slotBytes (slots docs (values ++ [v])) ++ slotBytes others ++
      Bytes.joined values).length = b₂.position := by
    simp only [List.length_append, length_slotBytes, length_slots, position₂, ← length,
      List.length_cons, List.length_nil, slotWidth]
    omega
  have covered : (rest.take v.size).length = v.size := by
    rw [List.length_take]
    omega
  obtain ⟨b₃, append, view₃, position₃, capacity₃⟩ := Buffer.append_view view₂ covered start
  refine ⟨b₃, ?_, ⟨rest.drop v.size, ?_⟩, ?_, by omega⟩
  · unfold VariableWriter.storeValue
    simp only [put, seek, append]
  · rw [view₃, toText_chunkWith, joined]
    simp
  · rw [position₃, position₂, joined, List.length_append, Bytes.length_toText, Nat.add_assoc]

/-- Where the slots of absent documents are cleared the buffer is filled with the raw chunk. -/
theorem Holding.completeChunk (h : Holding docs values others b)
    (length : values.length + others.length = docs) :
    ∃ b', VariableWriter.completeChunk (values.length * slotWidth) (docs * slotWidth)
        (docs * slotWidth + (Bytes.joined values).length) b = (.ok (), b') ∧
      Holding docs values (List.replicate others.length 0) b' ∧ b'.filled = rawChunk docs values ∧
      b'.capacity = b.capacity := by
  have size := h.size_le length
  obtain ⟨rest, view⟩ := h
  rw [toText_chunkWith, List.append_assoc, List.append_assoc] at view
  obtain ⟨b₁, clear, view₁, capacity₁⟩ := clearSlots_view view
    (by rw [length_slotBytes, length_slots])
  have count : (docs * slotWidth - values.length * slotWidth) / slotWidth = others.length := by
    rw [← Nat.sub_mul, Nat.mul_div_cancel _ slotWidth_pos]
    omega
  have within : docs * slotWidth + (Bytes.joined values).length ≤ b₁.capacity := by omega
  obtain ⟨b₂, seek, data₂, position₂, capacity₂⟩ := Buffer.seek_ok within
  have holding : Holding docs values (List.replicate others.length 0) b₂ := by
    refine ⟨rest, ?_⟩
    rw [data₂, view₁, toText_chunkWith, List.append_assoc, List.append_assoc]
  refine ⟨b₂, ?_, holding, ?_, by omega⟩
  · unfold VariableWriter.completeChunk
    rw [count, clear]
    simp only [seek]
  · rw [holding.filled (by rwa [List.length_replicate]) position₂, rawChunk]
    congr 2
    omega

end Holding

/-! ## Puts into a chunk -/

section Put

variable {w : VariableWriter} {v : Bytes}

theorem put_long (isOpen : w.core.isOpen) (long : w.core.header.entrySize.toInt < v.size)
    (s : Session) :
    w.put v s = (.error (.valueTooLong v.size w.core.header.entrySize), w, s) := by
  obtain ⟨core, slotsSize, slotPosition, dataPosition⟩ := w
  dsimp only at isOpen long
  rw [put, if_neg (by simp [isOpen]), if_pos long]

theorem put_full (isOpen : w.core.isOpen) (short : v.size ≤ w.core.header.entrySize.toInt)
    (full : w.slotsSize ≤ w.slotPosition) (s : Session) :
    w.put v s = (.error .chunkFull, w, s) := by
  obtain ⟨core, slotsSize, slotPosition, dataPosition⟩ := w
  dsimp only at isOpen short full
  rw [put, if_neg (by simp [isOpen]), if_neg (Int.not_lt.2 short), if_pos full]

/-- A value that is stored takes the next slot; with the last slot of the chunk comes its flush. -/
theorem put_stored (isOpen : w.core.isOpen) (short : v.size ≤ w.core.header.entrySize.toInt)
    {docs count : Nat} (slotsSize : w.slotsSize = docs * slotWidth)
    (slotPosition : w.slotPosition = count * slotWidth) (free : count < docs) {core : ChunkWriter}
    (stored : w.core.onBuffer (storeValue w.slotPosition w.dataPosition v) = (true, core))
    (s : Session) :
    w.put v s =
      if count + 1 = docs then finishChunk
        ⟨core, w.slotsSize, w.slotPosition + slotWidth, w.dataPosition + v.size⟩ s
      else (.ok (), ⟨core, w.slotsSize, w.slotPosition + slotWidth, w.dataPosition + v.size⟩, s) := by
  have below : count * slotWidth < docs * slotWidth :=
    Nat.mul_lt_mul_of_pos_right free slotWidth_pos
  have complete : count * slotWidth + slotWidth = docs * slotWidth ↔ count + 1 = docs := by
    rw [← Nat.succ_mul]
    exact Nat.mul_left_inj (Nat.ne_of_gt slotWidth_pos)
  obtain ⟨core₀, slots, slot, data⟩ := w
  dsimp only at isOpen short slotsSize slotPosition stored
  rw [put, if_neg (by simp [isOpen]), if_neg (Int.not_lt.2 short), if_neg (by omega), stored]
  simp only [slotsSize, slotPosition, complete]

end Put

/-! ## Filling -/

/-- A job whose chunks hold so many values of at most a length. -/
structure Shape (job : Job) (docs longest : Nat) : Prop where
  capacity : job.capacity = docs * (slotWidth + longest)
  entrySize : job.blank.entrySize.toInt = longest
  docs_pos : 0 < docs

/-- What the slots of the buffer hold that were not taken since the last chunk. -/
def stale (docs : Nat) (full : List (List Bytes)) : List UInt32 :=
  match full.getLast? with
  | none => List.replicate docs 0
  | some values => slots docs values

/-- Full windows are stored, and the values after them are in the buffer. A window that is full and
still there is one whose flush was refused. -/
structure Filling (job : Job) (docs longest : Nat) (full : List (List Bytes)) (pending : List Bytes)
    (w : VariableWriter) (s : Session) : Prop where
  lengths : ∀ g ∈ full, g.length = docs
  short : pending.length ≤ docs
  small : ∀ v ∈ pending, v.size ≤ longest
  slotsSize : w.slotsSize = docs * slotWidth
  slotPosition : w.slotPosition = pending.length * slotWidth
  dataPosition : w.dataPosition = docs * slotWidth + (Bytes.joined pending).length
  steady : ∃ b, Steady job (full.map (rawChunk docs)) b w.core s ∧
    Holding docs pending ((stale docs full).drop pending.length) b ∧
    b.position = if pending = [] then 0 else w.dataPosition

/-- While a slot is left there is room for one more longest value. -/
theorem fits_of_small {docs longest : Nat} {values : List Bytes}
    (small : ∀ v ∈ values, v.size ≤ longest) {v : Bytes} (short : v.size ≤ longest)
    (free : values.length < docs) :
    docs * slotWidth + (Bytes.joined values).length + v.size ≤ docs * (slotWidth + longest) := by
  have joined := Bytes.length_joined_le small
  have share : (values.length + 1) * longest ≤ docs * longest := Nat.mul_le_mul_right _ free
  rw [Nat.succ_mul] at share
  rw [Nat.mul_add]
  omega

theorem length_stale {docs : Nat} {full : List (List Bytes)}
    (lengths : ∀ g ∈ full, g.length = docs) : (stale docs full).length = docs := by
  unfold stale
  split
  · exact List.length_replicate
  · next values last =>
    rw [length_slots]
    exact lengths values (List.mem_of_getLast? last)

section Filling

variable {job : Job} {docs longest : Nat} {full : List (List Bytes)} {pending : List Bytes}
  {w : VariableWriter} {s : Session}

theorem Filling.isOpen (h : Filling job docs longest full pending w s) : w.core.isOpen := by
  obtain ⟨b, steady, _⟩ := h.steady
  exact steady.isOpen

theorem Filling.entrySize (shape : Shape job docs longest)
    (h : Filling job docs longest full pending w s) : w.core.header.entrySize.toInt = longest := by
  obtain ⟨b, steady, _⟩ := h.steady
  rw [steady.header]
  exact shape.entrySize

/-- The window in the buffer is started when it has taken a slot. -/
theorem Filling.started_iff (h : Filling job docs longest full pending w s) :
    0 < w.slotPosition ↔ pending ≠ [] := by
  rw [h.slotPosition, Nat.mul_pos_iff_of_pos_right slotWidth_pos, List.length_pos_iff]

/-- A value in the limit has its place while the window is not full. -/
theorem Filling.store (shape : Shape job docs longest)
    (h : Filling job docs longest full pending w s) {v : Bytes} (hv : v.size ≤ longest)
    (room : pending.length < docs) :
    ∃ core, w.core.onBuffer (storeValue w.slotPosition w.dataPosition v) = (true, core) ∧
      Filling job docs longest full (pending ++ [v])
        ⟨core, w.slotsSize, w.slotPosition + slotWidth, w.dataPosition + v.size⟩ s := by
  obtain ⟨b, steady, holding, _⟩ := h.steady
  have slots := length_stale h.lengths
  rw [List.drop_eq_getElem_cons (by omega)] at holding
  have length : pending.length + (((stale docs full).drop (pending.length + 1)).length + 1) =
      docs := by
    rw [List.length_drop]
    omega
  have fits : docs * slotWidth + (Bytes.joined pending).length + v.size ≤ b.capacity := by
    rw [steady.room, shape.capacity]
    exact fits_of_small h.small hv room
  obtain ⟨b', store, holding', position, capacity⟩ := holding.storeValue length fits
  rw [← h.slotPosition, ← h.dataPosition] at store
  obtain ⟨core, stored, steady'⟩ := steady.onBuffer (storeValue w.slotPosition w.dataPosition v)
    (by rw [store, capacity])
  rw [store] at stored steady'
  have data : w.dataPosition + v.size =
      docs * slotWidth + (Bytes.joined (pending ++ [v])).length := by
    rw [h.dataPosition, Bytes.joined_concat, List.length_append, Bytes.length_toText,
      Nat.add_assoc]
  refine ⟨core, stored, h.lengths, ?_, ?_, h.slotsSize, ?_, data, b', steady', ?_, ?_⟩
  · rw [List.length_append, List.length_singleton]
    exact room
  · exact List.forall_mem_append.2 ⟨h.small, by simpa using hv⟩
  · rw [List.length_append, List.length_singleton, Nat.succ_mul, h.slotPosition]
  · rw [List.length_append, List.length_singleton]
    exact holding'
  · rw [if_neg (by simp), position, data]

/-- Clearing the slots of absent documents fills the buffer with the raw chunk. -/
theorem Filling.complete (h : Filling job docs longest full pending w s) :
    ∃ b core, w.core.onBuffer (completeChunk w.slotPosition w.slotsSize w.dataPosition) =
        (.ok (), core) ∧
      Steady job (full.map (rawChunk docs)) b core s ∧ b.filled = rawChunk docs pending ∧
      Holding docs pending (List.replicate (docs - pending.length) 0) b := by
  obtain ⟨b, steady, holding, _⟩ := h.steady
  have short := h.short
  have others : ((stale docs full).drop pending.length).length = docs - pending.length := by
    rw [List.length_drop, length_stale h.lengths]
  obtain ⟨b', complete, holding', filled, capacity⟩ := holding.completeChunk (by omega)
  rw [← h.slotPosition, ← h.slotsSize] at complete
  rw [others] at holding'
  have data : w.slotsSize + (Bytes.joined pending).length = w.dataPosition := by
    rw [h.slotsSize, h.dataPosition]
  rw [data] at complete
  obtain ⟨core, completed, steady'⟩ := steady.onBuffer
    (completeChunk w.slotPosition w.slotsSize w.dataPosition) (by rw [complete, capacity])
  rw [complete] at completed steady'
  exact ⟨b', core, completed, steady', filled, holding'⟩

theorem isEmpty_rawChunk (positive : 0 < docs) (short : pending.length ≤ docs) {b : Buffer}
    (filled : b.filled = rawChunk docs pending) : b.isEmpty = false := by
  have some := Nat.mul_pos positive slotWidth_pos
  rw [Buffer.isEmpty_eq, filled, size_rawChunk short]
  exact decide_eq_false (by omega)

/-- A window that is finished starts the next one. -/
theorem Filling.finish_ok (h : Filling job docs longest full pending w s) {w' : VariableWriter}
    {s' : Session} (ok : w.finishChunk s = (.ok (), w', s')) :
    ∃ b, w' = ⟨w'.core, w.slotsSize, 0, w.slotsSize⟩ ∧ job.HasRoom (full.map (rawChunk docs)) ∧
      Steady job ((full ++ [pending]).map (rawChunk docs)) b.clear w'.core s' ∧
      Holding docs pending (List.replicate (docs - pending.length) 0) b := by
  obtain ⟨b, core, completed, steady, filled, holding⟩ := h.complete
  unfold finishChunk at ok
  simp only [completed] at ok
  rcases flush : core.flush s with ⟨outcome, core', s''⟩
  rw [flush] at ok
  cases outcome with
  | error e => cases ok
  | ok u =>
    cases ok
    obtain ⟨-, room, steady'⟩ := steady.flush_ok flush
    rw [filled] at steady'
    exact ⟨b, rfl, room, by rw [List.map_append]; exact steady', holding⟩

/-- Where there is room the window in the buffer is finished, unless the system fails. -/
theorem Filling.finish (shape : Shape job docs longest)
    (h : Filling job docs longest full pending w s)
    (room : job.HasRoom (full.map (rawChunk docs))) :
    (∀ e, (w.finishChunk s).1 = .error e → e.kind = .io) ∧
      (job.Calm → (w.finishChunk s).1 = .ok ()) := by
  obtain ⟨b, core, completed, steady, filled, -⟩ := h.complete
  obtain ⟨outcome, core', s', flush, -, io, calm⟩ :=
    steady.flush (isEmpty_rawChunk shape.docs_pos h.short filled) room
  have finished : (w.finishChunk s).1 = outcome := by
    unfold finishChunk
    simp only [completed, flush]
    cases outcome <;> rfl
  rw [finished]
  exact ⟨io, calm⟩

/-- Where there is none the window stays in the buffer, and the file as it is. -/
theorem Filling.finish_refused (shape : Shape job docs longest)
    (h : Filling job docs longest full pending w s)
    (none : ¬ job.HasRoom (full.map (rawChunk docs))) :
    ∃ b e core log, w.finishChunk s =
        (.error e, ⟨core, w.slotsSize, w.slotPosition, w.dataPosition⟩, { s with log }) ∧
      (core.flush s).1 = .error e ∧
      Steady job (full.map (rawChunk docs)) b core s ∧ b.filled = rawChunk docs pending ∧
      Holding docs pending (List.replicate (docs - pending.length) 0) b := by
  obtain ⟨b, core, completed, steady, filled, holding⟩ := h.complete
  obtain ⟨e, log, refused⟩ :=
    steady.flush_refused (isEmpty_rawChunk shape.docs_pos h.short filled) none
  refine ⟨b, e, core, log, ?_, by rw [refused], steady, filled, holding⟩
  unfold finishChunk
  simp only [completed, refused]

/-! ## Puts -/

/-- A window that is stored full leaves its slots behind. -/
theorem Filling.finish_full (h : Filling job docs longest full pending w s)
    (length : pending.length = docs) {w' : VariableWriter} {s' : Session}
    (ok : w.finishChunk s = (.ok (), w', s')) :
    Filling job docs longest (full ++ [pending]) [] w' s' := by
  obtain ⟨b, next, -, steady, rest, view⟩ := h.finish_ok ok
  rw [next]
  refine ⟨List.forall_mem_append.2 ⟨h.lengths, by simpa using length⟩,
    Nat.zero_le _, by simp, h.slotsSize, by simp, ?_, b.clear, steady, ?_, rfl⟩
  · rw [h.slotsSize]
    rfl
  · have last : stale docs (full ++ [pending]) = slots docs pending := by simp [stale]
    refine ⟨Bytes.joined pending ++ rest, ?_⟩
    rw [last, List.length_nil, List.drop_zero, toText_chunkWith]
    rw [length, Nat.sub_self, toText_chunkWith] at view
    change b.data.toText = _
    rw [view]
    simp [slots, Layout.starts]

/-- A window whose flush was refused is still in the buffer. -/
theorem Filling.finish_full_refused (shape : Shape job docs longest)
    (h : Filling job docs longest full pending w s) (length : pending.length = docs)
    (none : ¬ job.HasRoom (full.map (rawChunk docs))) :
    ∃ e w' s', w.finishChunk s = (.error e, w', s') ∧
      Filling job docs longest full pending w' s' := by
  obtain ⟨b, e, core, log, finish, -, steady, filled, holding⟩ := h.finish_refused shape none
  refine ⟨e, _, _, finish, h.lengths, h.short, h.small, h.slotsSize, h.slotPosition,
    h.dataPosition, b, steady.logged log, ?_, ?_⟩
  · have others : (stale docs full).drop pending.length = [] :=
      List.drop_of_length_le (by rw [length_stale h.lengths, length])
    rw [length, Nat.sub_self] at holding
    rwa [others]
  · have some : pending ≠ [] := List.length_pos_iff.1 (length ▸ shape.docs_pos)
    have size : (rawChunk docs pending).size = w.dataPosition := by
      rw [size_rawChunk h.short, h.dataPosition]
    rw [if_neg some, ← b.size_filled, filled, size]

/-- A value that is too long, or for which there is no slot, is refused and changes nothing. -/
theorem Filling.put_refused (h : Filling job docs longest full pending w s)
    (shape : Shape job docs longest) {v : Bytes}
    (unfit : longest < v.size ∨ pending.length = docs) :
    ∃ e, e.kind = .usage ∧ w.put v s = (.error e, w, s) := by
  have entry := h.entrySize shape
  by_cases long : longest < v.size
  · exact ⟨_, rfl, put_long h.isOpen (by omega) s⟩
  · have full := unfit.resolve_left long
    have slots : w.slotsSize = w.slotPosition := by rw [h.slotsSize, h.slotPosition, full]
    exact ⟨_, rfl, put_full h.isOpen (by omega) (Nat.le_of_eq slots) s⟩

/-- A value that fits is stored; the value that completes a window is followed by its flush. -/
theorem Filling.put_eq (h : Filling job docs longest full pending w s)
    (shape : Shape job docs longest) {v : Bytes} (hv : v.size ≤ longest)
    (room : pending.length < docs) :
    ∃ w', Filling job docs longest full (pending ++ [v]) w' s ∧
      w.put v s = if pending.length + 1 = docs then w'.finishChunk s else (.ok (), w', s) := by
  obtain ⟨core', stored, filling⟩ := h.store shape hv room
  have entry := h.entrySize shape
  refine ⟨_, filling, ?_⟩
  rw [put_stored h.isOpen (by omega) h.slotsSize h.slotPosition room stored s]

/-- A put that is taken makes the values in the buffer more, or stores the window it completes. -/
theorem Filling.took (shape : Shape job docs longest)
    (h : Filling job docs longest full pending w s) (free : pending.length < docs) {v : Bytes}
    (hv : v.size ≤ longest) {w' : VariableWriter} {s' : Session}
    (ok : w.put v s = (.ok (), w', s')) :
    ∃ full' pending', Filling job docs longest full' pending' w' s' ∧ pending'.length < docs ∧
      full'.flatten ++ pending' = full.flatten ++ pending ++ [v] := by
  obtain ⟨w₁, filling, put⟩ := h.put_eq shape hv free
  rw [put] at ok
  by_cases complete : pending.length + 1 = docs
  · rw [if_pos complete] at ok
    exact ⟨_, [], filling.finish_full (by simpa using complete) ok, shape.docs_pos, by simp⟩
  · rw [if_neg complete] at ok
    cases ok
    refine ⟨full, _, filling, ?_, by simp⟩
    rw [List.length_append, List.length_singleton]
    omega

/-- A put is taken where nothing befalls the file and there is room for the window it completes. -/
theorem Filling.takes (shape : Shape job docs longest)
    (h : Filling job docs longest full pending w s) (free : pending.length < docs) {v : Bytes}
    (hv : v.size ≤ longest) (calm : job.Calm)
    (room : pending.length + 1 = docs → job.HasRoom (full.map (rawChunk docs))) :
    (w.put v s).1 = .ok () := by
  obtain ⟨w₁, filling, put⟩ := h.put_eq shape hv free
  rw [put]
  by_cases complete : pending.length + 1 = docs
  · rw [if_pos complete]
    exact (filling.finish shape (room complete)).2 calm
  · rw [if_neg complete]

/-! ## Closing -/

/-- Closing with nothing pending is closing the core. -/
theorem Filling.close_nil (h : Filling job docs longest full [] w s) :
    w.close s = ((w.core.close s).1, { w with core := (w.core.close s).2.1 },
      (w.core.close s).2.2) := by
  have slot : ¬ 0 < w.slotPosition := fun started => h.started_iff.1 started rfl
  rw [VariableWriter.close, if_neg fun h => slot h.2]

/-- Closing with values pending finishes their window before it closes the core. -/
theorem Filling.close_finished (h : Filling job docs longest full pending w s)
    (some : pending ≠ []) {w' : VariableWriter} {s' : Session}
    (finish : w.finishChunk s = (.ok (), w', s')) :
    w.close s = ((w'.core.close s').1, { w' with core := (w'.core.close s').2.1 },
      (w'.core.close s').2.2) := by
  rw [VariableWriter.close, if_pos ⟨h.isOpen, h.started_iff.2 some⟩, finish]

/-- Where the window cannot be finished the core is closed all the same, and the failure reported is
of the kind of the first. -/
theorem Filling.close_unfinished (h : Filling job docs longest full pending w s)
    (some : pending ≠ []) {e : Failure} {w' : VariableWriter} {s' : Session}
    (finish : w.finishChunk s = (.error e, w', s')) :
    ∃ e', e'.kind = e.kind ∧ w.close s =
      (.error e', { w' with core := (w'.core.close s').2.1 }, (w'.core.close s').2.2) := by
  rw [VariableWriter.close, if_pos ⟨h.isOpen, h.started_iff.2 some⟩, finish]
  dsimp only
  rcases w'.core.close s' with ⟨outcome, core, s''⟩
  cases outcome with
  | ok u => exact ⟨e, rfl, rfl⟩
  | error e' => exact ⟨.followedBy e e', rfl, rfl⟩

/-- Closing stores the values that are left. -/
theorem Filling.close (shape : Shape job docs longest)
    (h : Filling job docs longest full pending w s)
    (allows : job.Allows (Layout.chunked docs (rawChunk docs) (full.flatten ++ pending))) :
    job.Closed (Layout.chunked docs (rawChunk docs) (full.flatten ++ pending)) (w.close s).1
      (w.close s).2.1.core (w.close s).2.2.volume := by
  rw [Layout.chunked_append shape.docs_pos h.lengths] at allows ⊢
  by_cases none : pending = []
  · subst none
    obtain ⟨b, steady, -, position⟩ := h.steady
    have empty : b.isEmpty := decide_eq_true position
    have closed := steady.close (.inl empty)
    rw [h.close_nil, Layout.chunked_nil shape.docs_pos, List.append_nil]
    rwa [ChunkWriter.filledUp_empty empty] at closed
  rw [Layout.chunked_of_short none h.short] at allows ⊢
  obtain ⟨io, calm⟩ := h.finish shape allows.next
  rcases finish : w.finishChunk s with ⟨outcome, w', s'⟩
  rw [finish] at io calm
  cases outcome with
  | ok u =>
    obtain ⟨b, -, -, steady, -⟩ := h.finish_ok finish
    have closed := steady.close (.inl rfl)
    rw [h.close_finished none finish]
    rwa [ChunkWriter.filledUp_empty rfl, List.map_append] at closed
  | error e =>
    have failed : e.kind = .io := io e rfl
    have disturbed : ¬ job.Calm := fun still => nomatch calm still
    obtain ⟨e', same, closed⟩ := h.close_unfinished none finish
    rw [closed]
    exact .of_io (same.trans failed) disturbed

/-- A close that succeeds was allowed to store them. -/
theorem Filling.closed (shape : Shape job docs longest)
    (h : Filling job docs longest full pending w s) (ok : (w.close s).1 = .ok ()) :
    job.Allows (Layout.chunked docs (rawChunk docs) (full.flatten ++ pending)) := by
  rw [Layout.chunked_append shape.docs_pos h.lengths]
  by_cases none : pending = []
  · obtain ⟨b, steady, -⟩ := h.steady
    rw [none, Layout.chunked_nil shape.docs_pos, List.append_nil]
    exact steady.allows
  rcases finish : w.finishChunk s with ⟨outcome, w', s'⟩
  cases outcome with
  | ok u =>
    obtain ⟨b, -, -, steady, -⟩ := h.finish_ok finish
    have allows := steady.allows
    rw [Layout.chunked_of_short none h.short]
    rwa [List.map_append] at allows
  | error e =>
    obtain ⟨e', -, closed⟩ := h.close_unfinished none finish
    rw [closed] at ok
    cases ok

end Filling

/-- The windows stored and the values in the buffer are these values, and a slot is left. -/
def Filled (job : Job) (docs longest : Nat) (values : List Bytes) (w : VariableWriter)
    (s : Session) : Prop :=
  ∃ full pending, Filling job docs longest full pending w s ∧ pending.length < docs ∧
    full.flatten ++ pending = values

theorem fills {job : Job} {docs longest : Nat} (shape : Shape job docs longest) :
    Fills encoder (·.size ≤ longest) (rawChunk docs) job docs (Filled job docs longest) where
  took h hv ok := by
    obtain ⟨full, pending, filling, free, rfl⟩ := h
    exact filling.took shape free hv ok
  takes {_ rest w s v} calm h hv allows := by
    obtain ⟨full, pending, filling, free, rfl⟩ := h
    refine filling.takes shape free hv calm fun complete => ?_
    have length : (pending ++ [v]).length = docs := by simpa using complete
    rw [List.append_assoc, List.append_cons pending, Layout.chunked_append shape.docs_pos
      filling.lengths, Layout.chunked_cons shape.docs_pos length] at allows
    exact allows.next
  close h allows := by
    obtain ⟨full, pending, filling, -, rfl⟩ := h
    exact filling.close shape allows
  closed h ok := by
    obtain ⟨full, pending, filling, -, rfl⟩ := h
    exact filling.closed shape ok

/-! ## Opening -/

theorem slotBytes_zeros (n : Nat) :
    slotBytes (List.replicate n 0) = List.replicate (n * slotWidth) 0 := by
  induction n with
  | zero => rw [Nat.zero_mul]; rfl
  | succ n ih =>
    have word : Bytes.word32 0 = List.replicate slotWidth 0 := by decide
    rw [List.replicate_succ, slotBytes_cons, ih, word, List.replicate_append_replicate,
      Nat.succ_mul, Nat.add_comm]

/-- A new buffer holds no value, and zeros for all slots. -/
theorem holding_new {docs capacity : Nat} (room : docs * slotWidth ≤ capacity) :
    Holding docs [] (List.replicate docs 0) (.new capacity) := by
  refine ⟨List.replicate (capacity - docs * slotWidth) 0, ?_⟩
  have zeros : (Buffer.new capacity).data.toText = List.replicate capacity 0 :=
    Bytes.toText_zeros capacity
  rw [zeros, toText_chunkWith, slotBytes_zeros]
  simp only [slots, Layout.starts, List.map_nil, slotBytes_nil, Bytes.joined_nil,
    List.append_nil, List.nil_append, List.replicate_append_replicate]
  rw [Nat.add_sub_cancel' room]

section Opening

variable {path : Text} {compression : Compression}
  {totalDocs docsPerChunk longest version : Int32}

/-- Admitted parameters have the numbers of a chunk as they are. -/
theorem toInt_of_admitted
    (admitted : (parameters compression totalDocs docsPerChunk longest version).Admitted) :
    docsPerChunk.toInt = docsPerChunk.toNatClampNeg ∧ longest.toInt = longest.toNatClampNeg ∧
      0 < docsPerChunk.toNatClampNeg := by
  have docs : 0 < docsPerChunk.toInt := admitted.docs_pos
  have length : 0 ≤ longest.toInt := admitted.entrySize
  rw [← Int32.toNat_toInt, ← Int32.toNat_toInt longest]
  omega

/-- Their chunk has room for the slots and the values of so many documents. -/
theorem chunkSize_of_admitted
    (admitted : (parameters compression totalDocs docsPerChunk longest version).Admitted) :
    (parameters compression totalDocs docsPerChunk longest version).chunkSize.toInt =
      (docsPerChunk.toNatClampNeg * (slotWidth + longest.toNatClampNeg) : Nat) := by
  obtain ⟨docs, length, -⟩ := toInt_of_admitted admitted
  refine (Layout.toInt_variableChunkSize _ _).trans ?_
  rw [docs, length, Int.natCast_mul, Int.natCast_add]

variable {z : Deflater}

/-- A job that was opened has chunks of so many values, and not of none. -/
theorem shape_of_opens {job : Job} {v : Volume}
    (opens : job.Opens path (parameters compression totalDocs docsPerChunk longest version) z v) :
    Shape job docsPerChunk.toNatClampNeg longest.toNatClampNeg := by
  obtain ⟨-, length, positive⟩ := toInt_of_admitted opens.admitted
  refine ⟨?_, ?_, positive⟩
  · rw [opens.capacity, chunkSize_of_admitted opens.admitted, Int.toNat_natCast]
  · rw [opens.blank]
    exact length

/-- A writer that is opened has a job whose windows are empty. -/
theorem openAt_filling {w₀ w : VariableWriter} {s₀ s : Session}
    (opened : w₀.openAt path compression totalDocs docsPerChunk longest version s₀ z =
      (.ok (), w, s))
    (doc : compression = .gzip → z.Documented) :
    ∃ job : Job,
      job.Opens path (parameters compression totalDocs docsPerChunk longest version) z s₀.volume ∧
      Filling job docsPerChunk.toNatClampNeg longest.toNatClampNeg [] [] w s := by
  have core := openAt_core opened
  unfold openAt at opened
  simp only [core] at opened
  obtain ⟨job, opens, steady⟩ := ChunkWriter.openBuiltin_steady core doc
  have room : docsPerChunk.toNatClampNeg * slotWidth ≤ job.capacity := by
    rw [(shape_of_opens opens).capacity, Nat.mul_add]
    exact Nat.le_add_right _ _
  obtain ⟨core', slotsSize, slotPosition, dataPosition⟩ := w
  cases opened
  exact ⟨job, opens, by simp, Nat.zero_le _, by simp, rfl, (Nat.zero_mul _).symm, rfl, _, steady,
    holding_new room, rfl⟩

end Opening

end ForwardIndex.VariableWriter
