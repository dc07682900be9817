import ForwardIndex.Proofs.VariableWriter

/-!
# Writers of variable-width values that are dropped

A writer that is dropped flushes its buffer as it is. Closing clears the slots of absent documents
first, so the two files differ exactly where a partial chunk lies over what a full one left in its
slots.
-/
set_option autoImplicit false
namespace ForwardIndex.VariableWriter

open ChunkWriter (Steady)
open Layout (slotWidth)

/-! ## Slots left behind -/

theorem slotBytes_injective {slots others : List UInt32} (h : slotBytes slots = slotBytes others) :
    slots = others := by
  induction slots generalizing others with
  | nil =>
    cases others with
    | nil => rfl
    | cons => cases h
  | cons slot slots ih =>
    cases others with
    | nil => cases h
    | cons other others =>
      obtain ⟨first, rest⟩ := List.append_inj h (by simp only [Bytes.length_word32])
      rw [Bytes.word32_injective first, ih rest]

/-- Chunks of the same values agree only where their other slots do. -/
theorem chunkWith_inj {docs : Nat} {values : List Bytes} {others more : List UInt32} :
    chunkWith docs values others = chunkWith docs values more ↔ others = more := by
  refine ⟨fun h => ?_, congrArg _⟩
  have texts := congrArg Bytes.toText h
  rw [toText_chunkWith, toText_chunkWith] at texts
  exact slotBytes_injective (List.append_cancel_right (List.append_cancel_left texts))

/-- No slot of a chunk that fits the buffer is zero. -/
theorem ne_zero_of_mem_slots {docs : Nat} {values : List Bytes} {slot : UInt32}
    (positive : 0 < docs) (small : docs * slotWidth + (Bytes.joined values).length < 2 ^ 32)
    (h : slot ∈ slots docs values) : slot ≠ 0 := by
  obtain ⟨start, hs, rfl⟩ := List.mem_map.1 h
  have least := Layout.ge_of_mem_starts hs
  have most := Layout.le_of_mem_starts hs
  have some := Nat.mul_pos positive slotWidth_pos
  intro zero
  have number := congrArg UInt32.toNat zero
  rw [UInt32.toNat_ofNat', Nat.mod_eq_of_lt (by omega)] at number
  change start = 0 at number
  omega

/-- What the buffer is filled with: the pending values, and the slots that were left behind. -/
def leftChunk (docs : Nat) (full : List (List Bytes)) (pending : List Bytes) : Bytes :=
  chunkWith docs pending ((stale docs full).drop pending.length)

section Filling

variable {job : Job} {docs longest : Nat} {full : List (List Bytes)} {pending : List Bytes}
  {w : VariableWriter} {s : Session}

/-- A window after the first holds slots of the one before, unless it is full itself. -/
theorem Filling.leftChunk_eq_iff (shape : Shape job docs longest)
    (h : Filling job docs longest full pending w s) :
    leftChunk docs full pending = rawChunk docs pending ↔ full = [] ∨ pending.length = docs := by
  rw [leftChunk, rawChunk, chunkWith_inj]
  by_cases first : full = []
  · subst first
    simp [stale]
  by_cases complete : pending.length = docs
  · have none : (stale docs full).drop pending.length = [] :=
      List.drop_of_length_le (by rw [length_stale h.lengths, complete])
    rw [none, complete, Nat.sub_self]
    simp
  have short := h.short
  have last := List.getLast?_eq_some_getLast first
  have inside := List.mem_of_getLast? last
  have length := h.lengths _ inside
  obtain ⟨b, steady, _⟩ := h.steady
  have size := steady.allows.small _ (List.mem_map_of_mem inside)
  rw [size_rawChunk (Nat.le_of_eq length)] at size
  have small : docs * slotWidth + (Bytes.joined (full.getLast first)).length < 2 ^ 32 :=
    Nat.lt_of_le_of_lt (size.trans job.small) (by decide)
  have behind : pending.length < (stale docs full).length := by
    rw [length_stale h.lengths]
    omega
  refine iff_of_false (fun same => ?_) (by simp [first, complete])
  have slot : (stale docs full)[pending.length] ∈ slots docs (full.getLast first) := by
    have mem := List.getElem_mem behind
    unfold stale at mem ⊢
    simpa only [last] using mem
  rw [List.drop_eq_getElem_cons behind] at same
  refine ne_zero_of_mem_slots shape.docs_pos small slot ?_
  exact List.eq_of_mem_replicate (same ▸ List.mem_cons_self)

/-- The buffer of a started window is filled with its values and the slots that were left. -/
theorem Filling.left (shape : Shape job docs longest)
    (h : Filling job docs longest full pending w s) (some : pending ≠ []) :
    ∃ b, Steady job (full.map (rawChunk docs)) b w.core s ∧
      b.filled = leftChunk docs full pending ∧ b.isEmpty = false := by
  obtain ⟨b, steady, holding, position⟩ := h.steady
  have slots := length_stale h.lengths
  have short := h.short
  have length : pending.length + ((stale docs full).drop pending.length).length = docs := by
    rw [List.length_drop]
    omega
  rw [if_neg some, h.dataPosition] at position
  have least := Nat.mul_pos shape.docs_pos slotWidth_pos
  refine ⟨b, steady, holding.filled length position, decide_eq_false ?_⟩
  rw [position]
  omega

/-! ## The two ends of a writer -/

/-- What is read at a path after closing a writer, and after dropping it instead. -/
structure Ends (path : Text) (w : VariableWriter) (s : Session) (closed dropped : Bytes) :
    Prop where
  afterClose : (w.close s).2.2.volume.read path = .bytes closed
  afterDrop : (w.drop s).volume.read path = .bytes dropped

/-- With no value pending, dropping is closing. -/
theorem Filling.ends_nil (calm : job.Calm)
    (h : Filling job docs longest full [] w s) :
    ∃ content, Ends job.path w s content content ∧
      job.blank.Stores job.encode (full.map (rawChunk docs)) content := by
  obtain ⟨b, steady, -, position⟩ := h.steady
  have empty : b.isEmpty := decide_eq_true position
  have finished := (steady.close (.inl empty)).calm calm
  rw [ChunkWriter.filledUp_empty empty] at finished
  obtain ⟨content, read, view⟩ := finished.read calm.file
  refine ⟨content, ⟨by rw [h.close_nil]; exact read, ?_⟩, finished.allows.stores view⟩
  rw [drop, ChunkWriter.volume_drop]
  exact read

/-- Where there is no room for the pending values, both ends leave the file as it is. -/
theorem Filling.ends_refused (shape : Shape job docs longest) (calm : job.Calm)
    (h : Filling job docs longest full pending w s) (some : pending ≠ [])
    (none : ¬ job.HasRoom (full.map (rawChunk docs))) :
    ∃ content, Ends job.path w s content content ∧
      job.blank.Stores job.encode (full.map (rawChunk docs)) content := by
  obtain ⟨b, steady, -, nonempty⟩ := h.left shape some
  obtain ⟨content, view, reads⟩ := steady.read calm.file
  obtain ⟨_, _, _, -, dropped, -, same⟩ := steady.close_refused nonempty none
  obtain ⟨b', e, core, log, finish, -, steady', filled, -⟩ := h.finish_refused shape none
  obtain ⟨e', core', s', -, closed, -, same'⟩ := (steady'.logged log).close_refused
    (isEmpty_rawChunk shape.docs_pos h.short filled) none
  obtain ⟨e'', -, ended⟩ := h.close_unfinished some finish
  refine ⟨content, ⟨?_, ?_⟩, job.stores_of_unheaded view⟩
  · rw [ended, closed]
    exact reads _ same'
  · rw [drop, ChunkWriter.volume_drop, dropped]
    exact reads _ same

/-- Where there is room, the pending values are stored with cleared slots, or with those left. -/
theorem Filling.ends_pending (shape : Shape job docs longest) (calm : job.Calm)
    {inflate : Bytes → Option Bytes} (undone : job.UndoneBy inflate)
    (h : Filling job docs longest full pending w s) (some : pending ≠ [])
    (room : job.HasRoom (full.map (rawChunk docs))) :
    ∃ closed dropped, Ends job.path w s closed dropped ∧
      job.blank.Stores job.encode (full.map (rawChunk docs) ++ [rawChunk docs pending]) closed ∧
      job.blank.Stores job.encode (full.map (rawChunk docs) ++ [leftChunk docs full pending])
        dropped ∧
      (dropped = closed ↔ leftChunk docs full pending = rawChunk docs pending) := by
  obtain ⟨b, steady, filled, nonempty⟩ := h.left shape some
  obtain ⟨_, _, _, cleared, filled', -⟩ := h.complete
  have allows : job.Allows (Layout.chunked docs (rawChunk docs) (full.flatten ++ pending)) := by
    rw [Layout.chunked_append shape.docs_pos h.lengths, Layout.chunked_of_short some h.short]
    exact steady.allows.concat room (filled' ▸ cleared.filled_le)
  have finished := (steady.close (.inr room)).calm calm
  have finished' := (h.close shape allows).calm calm
  rw [Layout.chunked_append shape.docs_pos h.lengths, Layout.chunked_of_short some h.short]
    at finished'
  rw [ChunkWriter.filledUp_some nonempty, filled] at finished
  obtain ⟨dropped, read, view⟩ := finished.read calm.file
  obtain ⟨closed, read', view'⟩ := finished'.read calm.file
  refine ⟨closed, dropped, ⟨read', ?_⟩, finished'.allows.stores view',
    finished.allows.stores view, ?_⟩
  · rw [drop, ChunkWriter.volume_drop]
    exact read
  · constructor
    · rintro rfl
      exact undone.contents_inj finished.allows finished'.allows (view.symm.trans view')
    · intro same
      rw [same] at view
      exact Bytes.ext (view.trans view'.symm)

/-- A partial chunk behind one that is stored is in the buffer, and a flush will store it. -/
structure LeavesStale (w : VariableWriter) : Prop where
  started : 0 < w.slotPosition
  unfinished : w.slotPosition < w.slotsSize
  later : 0 < w.core.header.recorded
  declared : w.core.header.isFull = false
  reaches : w.core.header.checkOffset w.core.cursor = .ok ()

theorem Filling.leavesStale_iff (h : Filling job docs longest full pending w s) :
    w.LeavesStale ↔ pending ≠ [] ∧ pending.length < docs ∧ full ≠ [] ∧
      job.HasRoom (full.map (rawChunk docs)) := by
  obtain ⟨b, steady, _⟩ := h.steady
  have unfinished : w.slotPosition < w.slotsSize ↔ pending.length < docs := by
    rw [h.slotPosition, h.slotsSize, Nat.mul_lt_mul_right slotWidth_pos]
  have later : 0 < w.core.header.recorded ↔ full ≠ [] := by
    rw [steady.recorded, List.length_map, List.length_pos_iff]
  have declared : w.core.header.isFull = false ↔
      (full.map (rawChunk docs)).length < job.blank.capacity := by
    rw [steady.isFull, decide_eq_false_iff_not, Nat.not_le]
  have reaches := steady.checkOffset
  constructor
  · intro left
    exact ⟨h.started_iff.1 left.started, unfinished.1 left.unfinished, later.1 left.later,
      declared.1 left.declared, reaches.symm.trans left.reaches⟩
  · intro ⟨nonempty, short, behind, room⟩
    exact ⟨h.started_iff.2 nonempty, unfinished.2 short, later.2 behind, declared.2 room.1,
      reaches.trans room.2⟩

/-- The two files of a writer: closing stores raw chunks only, and dropping the same, but for the
last chunk of a writer that leaves slots behind. -/
structure EndsWith (path : Text) (header : Header) (encode : Nat → Bytes → Bytes) (docs : Nat)
    (w : VariableWriter) (s : Session) (windows : List (List Bytes)) (closed dropped : Bytes) :
    Prop extends Ends path w s closed dropped where
  short : ∀ g ∈ windows, g.length ≤ docs
  chunks : header.Stores encode (windows.map (rawChunk docs)) closed
  same_iff : dropped = closed ↔ ¬ w.LeavesStale
  left : w.LeavesStale → ∃ front last pending, windows = front ++ [last, pending] ∧
    header.Stores encode ((front ++ [last]).map (rawChunk docs) ++
      [chunkWith docs pending ((slots docs last).drop pending.length)]) dropped

/-- Closing and dropping leave the same file exactly where no slot is left behind. -/
theorem Filling.ends (shape : Shape job docs longest) (calm : job.Calm)
    {inflate : Bytes → Option Bytes} (undone : job.UndoneBy inflate)
    (h : Filling job docs longest full pending w s) :
    ∃ windows closed dropped, windows.flatten.Sublist (full.flatten ++ pending) ∧
      EndsWith job.path job.blank job.encode docs w s windows closed dropped := by
  have kept : full.flatten.Sublist (full.flatten ++ pending) := List.sublist_append_left _ _
  have full_short : ∀ g ∈ full, g.length ≤ docs := fun g hg => Nat.le_of_eq (h.lengths g hg)
  by_cases none : pending = []
  · subst none
    obtain ⟨content, ends, stores⟩ := h.ends_nil calm
    have clean : ¬ w.LeavesStale := fun left => (h.leavesStale_iff.1 left).1 rfl
    exact ⟨full, content, content, kept, ends, full_short, stores, iff_of_true rfl clean,
      fun left => absurd left clean⟩
  by_cases room : job.HasRoom (full.map (rawChunk docs))
  · obtain ⟨closed, dropped, ends, stores, stores', same⟩ :=
      h.ends_pending shape calm undone none room
    have all : (full ++ [pending]).flatten = full.flatten ++ pending := by simp
    refine ⟨full ++ [pending], closed, dropped, all ▸ List.Sublist.refl _, ends, ?_,
      by simpa using stores, ?_, ?_⟩
    · exact List.forall_mem_append.2 ⟨full_short, by simpa using h.short⟩
    · have short := h.short
      rw [same, h.leftChunk_eq_iff shape, h.leavesStale_iff]
      by_cases first : full = []
      · simp [first]
      · simp only [first, none, room, ne_eq, not_false_eq_true, true_and, and_true, false_or]
        omega
    · intro left
      obtain ⟨front, last, rfl⟩ :=
        (List.eq_nil_or_concat full).resolve_left (h.leavesStale_iff.1 left).2.2.1
      rw [List.concat_eq_append] at stores' ⊢
      refine ⟨front, last, pending, by simp, ?_⟩
      simpa [leftChunk, stale] using stores'
  · obtain ⟨content, ends, stores⟩ := h.ends_refused shape calm none room
    have clean : ¬ w.LeavesStale := fun left => room (h.leavesStale_iff.1 left).2.2.2
    exact ⟨full, content, content, kept, ends, full_short, stores, iff_of_true rfl clean,
      fun left => absurd left clean⟩

/-! ## Runs -/

/-- Where nothing befalls the file a put keeps the writer filling, whether it is taken or refused,
with the value or without. -/
theorem Filling.put (shape : Shape job docs longest) (calm : job.Calm)
    (h : Filling job docs longest full pending w s) (v : Bytes) :
    ∃ full' pending', Filling job docs longest full' pending' (w.put v s).2.1 (w.put v s).2.2 ∧
      (full'.flatten ++ pending' = full.flatten ++ pending ∨
        full'.flatten ++ pending' = full.flatten ++ pending ++ [v]) := by
  by_cases unfit : longest < v.size ∨ pending.length = docs
  · obtain ⟨e, -, refused⟩ := h.put_refused shape unfit
    rw [refused]
    exact ⟨full, pending, h, .inl rfl⟩
  obtain ⟨fits, free⟩ := not_or.1 unfit
  have fits := Nat.le_of_not_lt fits
  have free := Nat.lt_of_le_of_ne h.short free
  by_cases refused : pending.length + 1 = docs ∧ ¬ job.HasRoom (full.map (rawChunk docs))
  · obtain ⟨complete, none⟩ := refused
    obtain ⟨w', filling, put⟩ := h.put_eq shape fits free
    obtain ⟨e, w'', s'', finish, filling'⟩ :=
      filling.finish_full_refused shape (by simpa using complete) none
    rw [put, if_pos complete, finish]
    exact ⟨full, _, filling', .inr (List.append_assoc _ _ _).symm⟩
  · have ok := h.takes shape free fits calm fun complete => by
      by_contra none
      exact refused ⟨complete, none⟩
    rcases put : w.put v s with ⟨outcome, w', s'⟩
    rw [put] at ok
    obtain rfl : outcome = .ok () := ok
    obtain ⟨full', pending', filling, -, sum⟩ := h.took shape free fits put
    exact ⟨full', pending', filling, .inr sum⟩

end Filling

/-- Puts keep the writer filling; by induction on the values, with the windows before them open. -/
theorem Filling.after {job : Job} {docs longest : Nat} {full : List (List Bytes)}
    {pending : List Bytes} {w : VariableWriter} {s : Session} (shape : Shape job docs longest)
    (calm : job.Calm) (h : Filling job docs longest full pending w s) (values : List Bytes) :
    ∃ full' pending', Filling job docs longest full' pending' (encoder.after w s values).1
        (encoder.after w s values).2 ∧
      (full'.flatten ++ pending').Sublist (full.flatten ++ pending ++ values) := by
  induction values generalizing full pending w s with
  | nil => exact ⟨full, pending, h, (List.append_nil _).symm ▸ List.Sublist.refl _⟩
  | cons v rest ih =>
    obtain ⟨full', pending', h', step⟩ := h.put shape calm v
    obtain ⟨full'', pending'', h'', taken⟩ := ih h'
    refine ⟨full'', pending'', h'', taken.trans ?_⟩
    obtain without | added := step
    · rw [without]
      exact (List.sublist_cons_self v rest).append_left _
    · have same : full'.flatten ++ pending' ++ rest = full.flatten ++ pending ++ v :: rest := by
        rw [added, ← List.append_cons]
      exact same ▸ List.Sublist.refl _

/-- After any puts, closing a writer stores nothing but raw chunks of values that were put, in their
order, and dropping it leaves the same file if and only if no slot is left behind. Otherwise the
last chunk is one whose absent documents have the slots of the chunk before. -/
theorem dropped_file {w₀ w₁ : VariableWriter} {path : Text} {compression : Compression}
    {totalDocs docsPerChunk longest version : Int32} {s₀ s₁ : Session} {z : Deflater}
    {inflate : Bytes → Option Bytes}
    (opened : w₀.openAt path compression totalDocs docsPerChunk longest version s₀ z =
      (.ok (), w₁, s₁))
    (doc : compression = .gzip → z.Documented) (undone : compression = .gzip → z.UndoneBy inflate)
    (file : s₀.volume.LeadsToFile path) (calm : s₀.volume.WritesGoOn) (values : List Bytes) :
    let params := parameters compression totalDocs docsPerChunk longest version
    ∃ windows closed dropped, windows.flatten.Sublist values ∧
      EndsWith path (params.header compression) (params.encode z) docsPerChunk.toNatClampNeg
        (encoder.after w₁ s₁ values).1 (encoder.after w₁ s₁ values).2 windows closed dropped := by
  intro params
  obtain ⟨job, opens, filling⟩ := openAt_filling opened doc
  have shape := shape_of_opens opens
  have calm := opens.calm file calm
  obtain ⟨full, pending, filling', taken⟩ := filling.after shape calm values
  obtain ⟨windows, closed, dropped, stored, ends⟩ :=
    filling'.ends shape calm (opens.undoneBy undone)
  rw [opens.path, opens.blank, opens.encode] at ends
  exact ⟨windows, closed, dropped, stored.trans taken, ends⟩

/-- A new writer, opened for three documents, two in a chunk. -/
def openedPair : Outcome × VariableWriter × Session :=
  openAt {} [102] .passThrough 3 2 4 2 {} .builtin

/-- Three values were put: the last slot of the second chunk is that of the second value. -/
def thirdPut : VariableWriter × Session :=
  encoder.after openedPair.2.1 openedPair.2.2
    [Bytes.ofText [97], Bytes.ofText [98], Bytes.ofText [99]]

theorem dropped_file_third : thirdPut.1.LeavesStale ∧ ∃ closed dropped,
    (thirdPut.1.close thirdPut.2).2.2.volume.read [102] = .bytes closed ∧
      (thirdPut.1.drop thirdPut.2).volume.read [102] = .bytes dropped ∧ dropped ≠ closed := by
  have opened : openAt {} [102] .passThrough 3 2 4 2 {} .builtin = (.ok (), openedPair.2) := rfl
  have file : ({} : Session).volume.LeadsToFile [102] := by
    intro p h
    cases h
  have calm : ({} : Session).volume.WritesGoOn := fun _ => List.forall_mem_nil _
  have undone : Compression.passThrough = .gzip → Deflater.builtin.UndoneBy Zlib.decompress := nofun
  have left : thirdPut.1.LeavesStale := ⟨by decide, by decide, by decide, rfl, rfl⟩
  obtain ⟨_, closed, dropped, _, ends⟩ := dropped_file opened nofun undone file calm
    [Bytes.ofText [97], Bytes.ofText [98], Bytes.ofText [99]]
  refine ⟨left, closed, dropped, ends.afterClose, ends.afterDrop, fun same => ?_⟩
  exact ends.same_iff.1 same left

end ForwardIndex.VariableWriter
