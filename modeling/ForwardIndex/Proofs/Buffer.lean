import ForwardIndex.Buffer
import ForwardIndex.Proofs.Bytes

/-!
# Calls on a chunk buffer

The calls that fill a buffer, as data, so that runs of them can be spoken of. None changes the
capacity; what is appended comes behind what is filled.
-/
set_option autoImplicit false
namespace ForwardIndex.Buffer

inductive Call where
  | append (bytes : Bytes)
  | int32 (v : Int32)
  | int64 (v : Int64)
  | float (bits : UInt32)
  | double (bits : UInt64)
  | int32At (position : Nat) (v : Int32)
  | seek (position : Nat)
  | clear

/-- What a call does; clearing is never refused. -/
def Call.apply : Call → Buffer → Bool × Buffer
  | append bytes, b => b.append bytes
  | int32 v, b => b.putInt32 v
  | int64 v, b => b.putInt64 v
  | float bits, b => b.putWord32 bits
  | double bits, b => b.putWord64 bits
  | int32At position v, b => b.putWord32At position v.toUInt32
  | seek position, b => b.seek position
  | clear, b => (true, b.clear)

theorem capacity_append (b : Buffer) (bytes : Bytes) :
    (b.append bytes).2.capacity = b.capacity := by
  obtain ⟨data, position, le⟩ := b
  unfold append
  dsimp only
  split
  · next fits => exact Bytes.size_overwrite fits
  · rfl

theorem capacity_putWord32At (b : Buffer) (slot : Nat) (v : UInt32) :
    (b.putWord32At slot v).2.capacity = b.capacity := by
  obtain ⟨data, position, le⟩ := b
  unfold putWord32At
  dsimp only
  split
  · next fits => exact Bytes.size_overwrite fits
  · rfl

theorem capacity_seek (b : Buffer) (position : Nat) :
    (b.seek position).2.capacity = b.capacity := by
  obtain ⟨data, old, le⟩ := b
  unfold seek
  dsimp only
  split
  · rfl
  · rfl

@[simp] theorem capacity_clear (b : Buffer) : b.clear.capacity = b.capacity := rfl

@[simp] theorem capacity_new (n : Nat) : (new n).capacity = n := Bytes.size_zeros n

theorem capacity_apply (call : Call) (b : Buffer) : (call.apply b).2.capacity = b.capacity := by
  cases call with
  | append bytes => exact b.capacity_append bytes
  | int32 v => exact b.capacity_append _
  | int64 v => exact b.capacity_append _
  | float bits => exact b.capacity_append _
  | double bits => exact b.capacity_append _
  | int32At position v => exact b.capacity_putWord32At position _
  | seek position => exact b.capacity_seek position
  | clear => rfl

theorem size_filled (b : Buffer) : b.filled.size = b.position := by
  rw [filled, Bytes.size_first]
  exact Nat.min_eq_left b.position_le

theorem isEmpty_eq (b : Buffer) : b.isEmpty = decide (b.filled.size = 0) := by
  rw [isEmpty, b.size_filled]

theorem toText_filled (b : Buffer) : b.filled.toText = b.data.toText.take b.position :=
  Bytes.toText_first _ _

@[simp] theorem filled_clear (b : Buffer) : b.clear.filled = ByteArray.empty := by
  apply Bytes.ext
  rw [toText_filled]
  exact List.take_zero

@[simp] theorem filled_new (n : Nat) : (new n).filled = ByteArray.empty := by
  apply Bytes.ext
  rw [toText_filled]
  exact List.take_zero

/-- Bytes put over as many others, the rest of the region unchanged. -/
theorem toText_overwrite_middle {b bytes : Bytes} {front mid back : Text}
    (view : b.toText = front ++ (mid ++ back)) (length : mid.length = bytes.size) {position : Nat}
    (start : front.length = position) :
    (b.overwrite position bytes).toText = front ++ (bytes.toText ++ back) := by
  have end_ : (front ++ mid).length = position + bytes.size := by
    rw [List.length_append, start, length]
  rw [Bytes.toText_overwrite, view, List.take_left' start, ← List.append_assoc front,
    List.drop_left' end_, List.append_assoc]

/-- What is appended within the capacity is put over what was there, and the fill level moves. -/
theorem append_view {b : Buffer} {bytes : Bytes} {front mid back : Text}
    (view : b.data.toText = front ++ (mid ++ back)) (length : mid.length = bytes.size)
    (start : front.length = b.position) :
    ∃ b', b.append bytes = (true, b') ∧ b'.data.toText = front ++ (bytes.toText ++ back) ∧
      b'.position = b.position + bytes.size ∧ b'.capacity = b.capacity := by
  obtain ⟨data, position, le⟩ := b
  have fits : position + bytes.size ≤ data.size := by
    have size := congrArg List.length view
    rw [Bytes.length_toText, List.length_append, List.length_append, start, length] at size
    dsimp only at size
    omega
  unfold append
  dsimp only
  rw [dif_pos fits]
  exact ⟨_, rfl, toText_overwrite_middle view length start, rfl, Bytes.size_overwrite fits⟩

/-- A word stored within the capacity is put over the four bytes that were there. -/
theorem putWord32At_view {b : Buffer} {slot : Nat} {front mid back : Text}
    (view : b.data.toText = front ++ (mid ++ back)) (length : mid.length = 4)
    (start : front.length = slot) (v : UInt32) :
    ∃ b', b.putWord32At slot v = (true, b') ∧
      b'.data.toText = front ++ (Bytes.word32 v ++ back) ∧ b'.position = b.position ∧
      b'.capacity = b.capacity := by
  obtain ⟨data, position, le⟩ := b
  have word : (Bytes.ofText (Bytes.word32 v)).size = 4 := by
    rw [Bytes.size_ofText, Bytes.length_word32]
  have fits : slot + (Bytes.ofText (Bytes.word32 v)).size ≤ data.size := by
    have size := congrArg List.length view
    rw [Bytes.length_toText, List.length_append, List.length_append, start, length] at size
    dsimp only at size
    omega
  have stored := toText_overwrite_middle view (length.trans word.symm) start
  rw [Bytes.toText_ofText] at stored
  unfold putWord32At
  dsimp only
  rw [dif_pos fits]
  exact ⟨_, rfl, stored, rfl, Bytes.size_overwrite fits⟩

theorem seek_ok {b : Buffer} {position : Nat} (h : position ≤ b.capacity) :
    ∃ b', b.seek position = (true, b') ∧ b'.data = b.data ∧ b'.position = position ∧
      b'.capacity = b.capacity := by
  obtain ⟨data, old, le⟩ := b
  have h : position ≤ data.size := h
  unfold seek
  dsimp only
  rw [dif_pos h]
  exact ⟨_, rfl, rfl, rfl, rfl⟩

/-- What would pass the capacity is refused. -/
theorem append_refused {b : Buffer} {bytes : Bytes} (far : b.capacity < b.position + bytes.size) :
    b.append bytes = (false, b) := by
  obtain ⟨data, position, le⟩ := b
  exact dif_neg (Nat.not_le.2 far)

/-- What is appended within the capacity comes behind what is filled. -/
theorem append_ok {b : Buffer} {bytes : Bytes} (fits : b.position + bytes.size ≤ b.capacity) :
    ∃ b', b.append bytes = (true, b') ∧ b'.filled = b.filled ++ bytes ∧
      b'.capacity = b.capacity := by
  have size : b.data.toText.length = b.capacity := Bytes.length_toText _
  have start : (b.data.toText.take b.position).length = b.position := by
    rw [List.length_take, size]
    omega
  have length : ((b.data.toText.drop b.position).take bytes.size).length = bytes.size := by
    rw [List.length_take, List.length_drop, size]
    omega
  have view : b.data.toText = b.data.toText.take b.position ++
      ((b.data.toText.drop b.position).take bytes.size ++
        (b.data.toText.drop b.position).drop bytes.size) := by
    rw [List.take_append_drop, List.take_append_drop]
  obtain ⟨b', append, view', position, capacity⟩ := append_view view length start
  refine ⟨b', append, Bytes.ext ?_, capacity⟩
  have front : (b.data.toText.take b.position ++ bytes.toText).length = b'.position := by
    rw [List.length_append, start, Bytes.length_toText, position]
  rw [toText_filled, view', ← List.append_assoc, List.take_left' front, Bytes.toText_append,
    toText_filled]

end ForwardIndex.Buffer
