import ForwardIndex.Header
import ForwardIndex.Proofs.Bytes

/-!
# The room of a header

A header takes the same room whatever offsets are in it, as long as there are no more than it has
places for. It is never empty, and every offset is four or eight bytes wide.
-/
set_option autoImplicit false
namespace ForwardIndex.Header

theorem offsetWidth_cases (h : Header) : h.offsetWidth = 4 ∨ h.offsetWidth = 8 := by
  unfold offsetWidth Layout.offsetWidth
  split
  · exact .inl rfl
  · exact .inr rfl

theorem offsetWidth_eq_four (h : Header) : h.offsetWidth = 4 ↔ h.version = 2 := by
  unfold offsetWidth Layout.offsetWidth
  split <;> simp_all

/-- Only the table of version 2 refuses an offset, and only one that is too large. -/
theorem checkOffset_error {h : Header} {offset : Nat} {e : Failure}
    (refused : h.checkOffset offset = .error e) : h.version = 2 ∧ Layout.maxInt32 < offset := by
  unfold checkOffset at refused
  split at refused
  · next far => exact ⟨h.offsetWidth_eq_four.1 far.1, far.2⟩
  · cases refused

theorem checkOffset_ok {h : Header} {offset : Nat} (fits : h.checkOffset offset = .ok ())
    (narrow : h.version = 2) : offset ≤ Layout.maxInt32 := by
  unfold checkOffset at fits
  split at fits
  · cases fits
  · next near => exact Nat.not_lt.1 fun far => near ⟨h.offsetWidth_eq_four.2 narrow, far⟩

@[simp] theorem length_offsetBytes (h : Header) (offset : Nat) :
    (h.offsetBytes offset).length = h.offsetWidth := by
  unfold offsetBytes
  obtain four | eight := h.offsetWidth_cases
  · rw [if_pos four, four, Bytes.length_word32]
  · rw [if_neg (by omega), eight, Bytes.length_word64]

theorem length_flatMap_offsetBytes (h : Header) (offsets : List Nat) :
    (offsets.flatMap h.offsetBytes).length = offsets.length * h.offsetWidth := by
  induction offsets with
  | nil => simp
  | cons o rest ih =>
    rw [List.flatMap_cons, List.length_append, ih, length_offsetBytes, List.length_cons,
      Nat.succ_mul, Nat.add_comm]

/-- The bytes of the seven fields. -/
theorem length_fieldBytes (h : Header) :
    (h.fields.flatMap fun f => Bytes.word32 f.toUInt32).length = Layout.fieldsSize := by
  simp [fields, Layout.fieldsSize]

theorem capacity_lt (h : Header) : h.capacity < 2 ^ 31 := h.chunkCount.toNatClampNeg_lt

theorem size_le (h : Header) : h.size ≤ 28 + 2 ^ 31 * 8 := by
  have width : h.offsetWidth ≤ 8 := by
    obtain four | eight := h.offsetWidth_cases
    · omega
    · omega
  have table : h.capacity * h.offsetWidth ≤ 2 ^ 31 * 8 :=
    Nat.mul_le_mul (Nat.le_of_lt h.capacity_lt) width
  unfold size Layout.fieldsSize
  omega

theorem size_pos (h : Header) : 0 < h.size := by
  unfold size Layout.fieldsSize
  omega

/-- The bytes of a header: its fields, the offsets recorded, and zeros in the places left. -/
theorem toText_toBytes (h : Header) :
    h.toBytes.toText = h.fields.flatMap (fun f => Bytes.word32 f.toUInt32) ++
      h.offsets.toList.flatMap h.offsetBytes ++
      List.replicate ((h.capacity - h.recorded) * h.offsetWidth) 0 := by
  unfold toBytes
  rw [Bytes.toText_pad, Bytes.toText_ofText, List.length_append, length_fieldBytes,
    length_flatMap_offsetBytes]
  congr 2
  rw [size, Nat.add_sub_add_left, ← Nat.sub_mul]
  rfl

@[simp] theorem size_toBytes (h : Header) (room : h.recorded ≤ h.capacity) :
    h.toBytes.size = h.size := by
  rw [← Bytes.length_toText, toText_toBytes]
  simp only [List.length_append, length_fieldBytes, length_flatMap_offsetBytes,
    List.length_replicate, Array.length_toList]
  rw [Nat.add_assoc, ← Nat.add_mul, size]
  congr 2
  exact Nat.add_sub_cancel' room

end ForwardIndex.Header
