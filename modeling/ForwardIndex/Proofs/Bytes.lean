import ForwardIndex.Bytes
import Mathlib.Tactic.Ring

/-!
# Views of byte arrays

Every operation on byte arrays has an equation for its view as a list, so that facts about files and
buffers are facts about lists. A write of no bytes leaves a file alone, wherever it is put; any
other write is `writeAt`. Consecutive writes make one.
-/
set_option autoImplicit false
namespace ForwardIndex.Bytes

/-! ## Views -/

theorem ext {a b : Bytes} (h : a.toText = b.toText) : a = b :=
  ByteArray.ext (Array.toList_inj.1 h)

@[simp] theorem ofText_toText (b : Bytes) : ofText b.toText = b := ext (toText_ofText _)

theorem ofText_append (s t : Text) : ofText (s ++ t) = ofText s ++ ofText t :=
  List.toByteArray_append

@[simp] theorem toText_empty : toText ByteArray.empty = [] := rfl

@[simp] theorem toText_append (a b : Bytes) : toText (a ++ b) = a.toText ++ b.toText :=
  ByteArray.toList_data_append

@[simp] theorem toText_push (b : Bytes) (c : UInt8) : toText (b.push c) = b.toText ++ [c] := by
  simp [toText, ByteArray.data_push]

theorem toText_extract (b : Bytes) (start stop : Nat) :
    toText (b.extract start stop) = (b.toText.drop start).take (stop - start) := by
  simp [toText, ByteArray.data_extract, List.extract_eq_take_drop]

@[simp] theorem toText_slice (b : Bytes) (start stop : Nat) :
    (b.slice start stop).toText = (b.toText.drop start).take (stop - start) :=
  toText_extract b start stop

@[simp] theorem toText_first (b : Bytes) (n : Nat) : (b.first n).toText = b.toText.take n := by
  unfold first
  split
  · rw [List.take_of_length_le (by simpa using ‹b.size ≤ n›)]
  · simp [toText_extract]

@[simp] theorem toText_rest (b : Bytes) (n : Nat) : (b.rest n).toText = b.toText.drop n := by
  unfold rest
  split
  · simp [‹n = 0›]
  · rw [toText_extract, List.take_of_length_le (by simp)]

@[simp] theorem toText_zeros (n : Nat) : (zeros n).toText = List.replicate n 0 := by
  simp [zeros, toText_pad]

theorem toText_eq_nil {b : Bytes} : b.toText = [] ↔ b.size = 0 := by
  rw [← length_toText, List.length_eq_zero_iff]

@[simp] theorem size_first (b : Bytes) (n : Nat) : (b.first n).size = min n b.size := by
  rw [← length_toText]; simp

@[simp] theorem size_rest (b : Bytes) (n : Nat) : (b.rest n).size = b.size - n := by
  rw [← length_toText]; simp

@[simp] theorem first_size (b : Bytes) : b.first b.size = b := by simp [first]

theorem byteAt_eq (b : Bytes) (i : Nat) : b.byteAt i = b.toText.getD i 0 := by
  unfold byteAt
  split
  · next h =>
    rw [List.getD_eq_getElem?_getD, List.getElem?_eq_getElem (by simpa using h)]
    exact ByteArray.getElem_eq_getElem_data
  · next h => rw [List.getD_eq_getElem?_getD, List.getElem?_eq_none (by simpa using h)]; rfl

theorem ext_byteAt {a b : Bytes} (size : a.size = b.size) (same : ∀ i, a.byteAt i = b.byteAt i) :
    a = b := by
  refine ext (List.ext_getElem (by simpa using size) fun i left right => ?_)
  have byte := same i
  rw [byteAt_eq, byteAt_eq, List.getD_eq_getElem?_getD, List.getD_eq_getElem?_getD,
    List.getElem?_eq_getElem left, List.getElem?_eq_getElem right] at byte
  exact byte

/-! ## Writes -/

theorem toText_writeAt (b bytes : Bytes) (offset : Nat) :
    (writeAt b offset bytes).toText =
      (b.toText ++ List.replicate (offset - b.size) 0).take offset ++ bytes.toText ++
        b.toText.drop (offset + bytes.size) := by
  rw [writeAt, toText_overwrite, toText_pad, List.drop_append]
  have h : (List.replicate (offset - b.size) (0 : UInt8)).drop
      (offset + bytes.size - b.toText.length) = [] := by
    rw [List.drop_eq_nil_iff, List.length_replicate, length_toText]
    omega
  rw [h, List.append_nil]

theorem size_writeAt (b bytes : Bytes) (offset : Nat) :
    (writeAt b offset bytes).size = max b.size (offset + bytes.size) := by
  rw [← length_toText, toText_writeAt]
  simp only [List.length_append, List.length_take, List.length_replicate, List.length_drop,
    length_toText]
  omega

/-- What a file holds after a write: a write of no bytes does not even extend it. -/
def patch (b : Bytes) (offset : Nat) (bytes : Bytes) : Bytes :=
  if bytes.size = 0 then b else b.writeAt offset bytes

/-- Bytes taken in two writes, the second where the first ended, are taken as by one. -/
theorem patch_patch (b bytes : Bytes) (offset n : Nat) (h : n ≤ bytes.size) :
    (b.patch offset (bytes.first n)).patch (offset + n) (bytes.rest n) = b.patch offset bytes := by
  have firstSize : (bytes.first n).size = n := by simp [h]
  unfold patch
  rw [firstSize, size_rest]
  by_cases zero : n = 0
  · subst zero
    simp [rest]
  · by_cases all : bytes.size - n = 0
    · have full : bytes.first n = bytes := by simp [first, show bytes.size ≤ n by omega]
      rw [if_neg zero, if_pos all, full, if_neg (by omega)]
    · rw [if_neg zero, if_neg all, if_neg (by omega)]
      apply ext
      -- the first write ends where the second starts, so the second pads nothing
      have gap : offset + n - max b.size (offset + n) = 0 := by omega
      have head :
          ((b.toText ++ List.replicate (offset - b.size) 0).take offset).length = offset := by
        simp only [List.length_take, List.length_append, List.length_replicate, length_toText]
        omega
      have taken : (bytes.toText.take n).length = n := by simpa using h
      rw [toText_writeAt, toText_writeAt, toText_writeAt, size_writeAt, firstSize, size_rest, gap,
        toText_first, toText_rest, List.replicate_zero, List.append_nil]
      generalize (b.toText ++ List.replicate (offset - b.size) 0).take offset = kept at head ⊢
      have upTo : (kept ++ bytes.toText.take n).length = offset + n := by
        rw [List.length_append, head, taken]
      have past : (kept ++ bytes.toText.take n).drop (offset + n + (bytes.size - n)) = [] :=
        List.drop_of_length_le (by omega)
      rw [List.take_left' upTo, List.drop_append, upTo, past, List.nil_append, List.drop_drop,
        List.append_assoc kept, List.take_append_drop]
      congr 2
      omega

/-- A front of the bytes, then more of them behind it, is a longer front. -/
theorem patch_first_patch_rest (b bytes : Bytes) (offset m n : Nat) (h : m + n ≤ bytes.size) :
    (b.patch offset (bytes.first m)).patch (offset + m) ((bytes.rest m).first n) =
      b.patch offset (bytes.first (m + n)) := by
  have front : (bytes.first (m + n)).first m = bytes.first m := ext (by simp [List.take_take])
  have behind : (bytes.first (m + n)).rest m = (bytes.rest m).first n :=
    ext (by simp [List.drop_take])
  rw [← front, ← behind]
  exact patch_patch b _ offset m (by rw [size_first]; omega)

theorem toText_patch_front {b front : Bytes} (h : 0 < front.size) :
    (b.patch 0 front).toText = front.toText ++ b.toText.drop front.size := by
  rw [patch, if_neg (by omega), toText_writeAt]
  simp

/-- A write where a body ends that starts at a position lengthens the body. -/
theorem drop_patch_end {b bytes : Bytes} {start : Nat} {body : Text}
    (h : b.toText.drop start = body) :
    (b.patch (start + body.length) bytes).toText.drop start = body ++ bytes.toText := by
  have size : b.size - start = body.length := by
    rw [← h, List.length_drop, length_toText]
  by_cases none : bytes.size = 0
  · rw [patch, if_pos none, h, toText_eq_nil.2 none, List.append_nil]
  have behind : b.toText.drop (start + body.length + bytes.size) = [] := by
    rw [List.drop_eq_nil_iff, length_toText]
    omega
  rw [patch, if_neg none, toText_writeAt, behind, List.append_nil, List.drop_append,
    List.take_of_length_le (by simp; omega), List.drop_append, h]
  simp only [List.drop_replicate, List.length_append, List.length_replicate, length_toText]
  rw [show start + body.length - b.size - (start - b.size) = 0 by omega,
    show start - (b.size + (start + body.length - b.size)) = 0 by omega]
  simp

/-- A patch behind a position leaves zeros before it, and makes no others than zeros there. -/
theorem take_patch_behind {b bytes : Bytes} {start offset : Nat} (behind : start ≤ offset)
    (zeros : ∀ byte ∈ b.toText.take start, byte = 0) :
    ∀ byte ∈ (b.patch offset bytes).toText.take start, byte = 0 := by
  unfold patch
  split
  · exact zeros
  have long : start ≤ ((b.toText ++ List.replicate (offset - b.size) 0).take offset).length := by
    rw [List.length_take, List.length_append, List.length_replicate, length_toText]
    omega
  intro byte among
  rw [toText_writeAt, List.append_assoc, List.take_append_of_le_length long, List.take_take,
    Nat.min_eq_left behind, List.take_append, List.mem_append] at among
  obtain old | new := among
  · exact zeros byte old
  · exact List.eq_of_mem_replicate (List.mem_of_mem_take new)

@[simp] theorem patch_empty (b : Bytes) (offset : Nat) : b.patch offset ByteArray.empty = b := rfl

/-- What lies before a patch stays. -/
theorem take_patch {b : Bytes} (bytes : Bytes) {offset n : Nat} (before : n ≤ offset)
    (within : n ≤ b.size) : (b.patch offset bytes).toText.take n = b.toText.take n := by
  unfold patch
  split
  · rfl
  · have enough : n ≤ b.toText.length := by simpa using within
    have long : n ≤ ((b.toText ++ List.replicate (offset - b.size) 0).take offset).length := by
      simp only [List.length_take, List.length_append, length_toText]
      omega
    rw [toText_writeAt, List.append_assoc, List.take_append_of_le_length long, List.take_take,
      Nat.min_eq_left before, List.take_append_of_le_length enough]

/-- Where a patch was put its bytes are found. -/
theorem drop_patch (b : Bytes) {bytes : Bytes} (offset : Nat) (some : bytes.size ≠ 0) :
    (b.patch offset bytes).toText.drop offset =
      bytes.toText ++ b.toText.drop (offset + bytes.size) := by
  have length :
      ((b.toText ++ List.replicate (offset - b.size) 0).take offset).length = offset := by
    simp only [List.length_take, List.length_append, List.length_replicate, length_toText]
    omega
  rw [patch, if_neg some, toText_writeAt, List.append_assoc, List.drop_left' length]

theorem size_patch (b bytes : Bytes) (offset : Nat) :
    (b.patch offset bytes).size =
      if bytes.size = 0 then b.size else max b.size (offset + bytes.size) := by
  unfold patch
  split
  · rfl
  · exact size_writeAt b bytes offset

theorem byteAt_patch (b bytes : Bytes) (offset i : Nat) :
    (b.patch offset bytes).byteAt i =
      if offset ≤ i ∧ i < offset + bytes.size then bytes.byteAt (i - offset) else b.byteAt i := by
  by_cases none : bytes.size = 0
  · rw [patch, if_pos none, if_neg (by omega)]
  · have length :
        ((b.toText ++ List.replicate (offset - b.size) 0).take offset).length = offset := by
      simp only [List.length_take, List.length_append, List.length_replicate, length_toText]
      omega
    simp only [patch, if_neg none, byteAt_eq, toText_writeAt, List.getD_eq_getElem?_getD,
      List.append_assoc]
    by_cases before : i < offset
    · rw [List.getElem?_append_left (by omega), if_neg (by omega),
        List.getElem?_take_of_lt before, List.getElem?_append]
      grind [length_toText]
    · rw [List.getElem?_append_right (by omega), length, List.getElem?_append]
      grind [length_toText]

theorem byteAt_first (b : Bytes) (n i : Nat) :
    (b.first n).byteAt i = if i < n then b.byteAt i else 0 := by
  simp only [byteAt_eq, toText_first, List.getD_eq_getElem?_getD]
  grind

/-- Two fronts of the same bytes at the same place come to the longer one. -/
theorem patch_first_patch_first (b bytes : Bytes) (offset m n : Nat) :
    (b.patch offset (bytes.first m)).patch offset (bytes.first n) =
      b.patch offset (bytes.first (max m n)) := by
  apply ext_byteAt
  · simp only [size_patch, size_first]
    grind
  · intro i
    simp only [byteAt_patch, byteAt_first, size_first]
    grind

@[simp] theorem patch_first_zero (b bytes : Bytes) (offset : Nat) :
    b.patch offset (bytes.first 0) = b := by
  simp [patch]

/-- A front of some bytes is gone once all of them are written over it. -/
theorem patch_first_patch (b bytes : Bytes) (offset n : Nat) :
    (b.patch offset (bytes.first n)).patch offset bytes = b.patch offset bytes := by
  have all : bytes.first (max n bytes.size) = bytes := by simp [first]
  have both := patch_first_patch_first b bytes offset n bytes.size
  rwa [all, first_size] at both

/-! ## Words -/

theorem bigEndian_append (s t : List UInt8) :
    bigEndian (s ++ t) = bigEndian s * 256 ^ t.length + bigEndian t := by
  have shift (n : Nat) : t.foldl (fun n c => 256 * n + c.toNat) n =
      n * 256 ^ t.length + bigEndian t := by
    unfold bigEndian
    induction t generalizing n with
    | nil => simp
    | cons c t ih =>
      rw [List.foldl_cons, List.foldl_cons, ih, ih (256 * 0 + c.toNat), List.length_cons,
        Nat.pow_succ]
      ring
  rw [bigEndian, List.foldl_append]
  exact shift _

@[simp] theorem bigEndian_word32 (v : UInt32) : bigEndian (word32 v) = v.toNat := by
  have h := v.toNat_lt
  simp only [word32, bigEndian, List.foldl_cons, List.foldl_nil, UInt32.toNat_toUInt8,
    UInt32.toNat_shiftRight, Nat.shiftRight_eq_div_pow, UInt32.reduceToNat, Nat.reduceMod,
    Nat.reducePow]
  omega

theorem word32_injective {v u : UInt32} (h : word32 v = word32 u) : v = u := by
  have numbers := congrArg bigEndian h
  rw [bigEndian_word32, bigEndian_word32] at numbers
  exact UInt32.toNat_inj.1 numbers

@[simp] theorem bigEndian_word64 (v : UInt64) : bigEndian (word64 v) = v.toNat := by
  have h := v.toNat_lt
  rw [word64, bigEndian_append, bigEndian_word32, bigEndian_word32, length_word32]
  simp only [UInt64.toNat_toUInt32, UInt64.toNat_shiftRight, Nat.shiftRight_eq_div_pow,
    UInt64.reduceToNat, Nat.reduceMod, Nat.reducePow]
  omega

end ForwardIndex.Bytes
