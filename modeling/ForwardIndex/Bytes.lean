import ForwardIndex.Text

/-!
# Byte arrays and big-endian words

Files and buffers are byte arrays; `toText` is their view as a list. Words are written with the most
significant byte first. `overwrite` replaces a stretch inside an array and keeps its size; `writeAt`
is the write of a file, which grows with zeros where the stretch lies beyond the end.
-/
set_option autoImplicit false
namespace ForwardIndex

abbrev Bytes := ByteArray

instance : DecidableEq Bytes := fun a b =>
  decidable_of_iff (a.data = b.data) ⟨ByteArray.ext, congrArg _⟩

namespace Bytes

/-- The bytes in order. -/
def toText (b : Bytes) : Text := b.data.toList

def ofText (t : Text) : Bytes := t.toByteArray

/-- Appends a number of zero bytes. -/
def pad (b : Bytes) : Nat → Bytes
  | 0 => b
  | n + 1 => pad (b.push 0) n

def zeros (n : Nat) : Bytes := pad ByteArray.empty n

/-- Puts a stretch of bytes over those at a position. -/
def overwrite (b : Bytes) (position : Nat) (bytes : Bytes) : Bytes :=
  bytes.copySlice 0 b position bytes.size false

/-- A write at an offset: the gap behind the end is filled with zeros first. -/
def writeAt (b : Bytes) (offset : Nat) (bytes : Bytes) : Bytes :=
  overwrite (pad b (offset - b.size)) offset bytes

/-- The first bytes, as many as asked for or as there are. -/
def first (b : Bytes) (n : Nat) : Bytes := if b.size ≤ n then b else b.extract 0 n

/-- What is left without the first bytes. -/
def rest (b : Bytes) (n : Nat) : Bytes := if n = 0 then b else b.extract n b.size

/-- The byte at a position; zero beyond the end. -/
def byteAt (b : Bytes) (i : Nat) : UInt8 := if h : i < b.size then b[i] else 0

/-- The bytes from a position up to another. -/
def slice (b : Bytes) (start stop : Nat) : Bytes := b.extract start stop

/-- The big-endian bytes of a 32-bit word. -/
def word32 (v : UInt32) : List UInt8 :=
  [(v >>> 24).toUInt8, (v >>> 16).toUInt8, (v >>> 8).toUInt8, v.toUInt8]

/-- The big-endian bytes of a 64-bit word. -/
def word64 (v : UInt64) : List UInt8 :=
  word32 (v >>> 32).toUInt32 ++ word32 v.toUInt32

/-- The number that big-endian bytes stand for. -/
def bigEndian (t : List UInt8) : Nat := t.foldl (fun n c => 256 * n + c.toNat) 0

@[simp] theorem toText_ofText (t : Text) : (ofText t).toText = t := by
  simp [toText, ofText]

@[simp] theorem length_toText (b : Bytes) : b.toText.length = b.size := rfl

theorem toText_pad (b : Bytes) (n : Nat) : (pad b n).toText = b.toText ++ List.replicate n 0 := by
  induction n generalizing b with
  | zero => simp [pad]
  | succ n ih =>
    have h : toText (ByteArray.push b 0) = b.toText ++ [0] := by
      simp [toText, ByteArray.data_push]
    rw [pad, ih, h, List.append_assoc, List.replicate_succ, List.singleton_append]

@[simp] theorem size_pad (b : Bytes) (n : Nat) : (pad b n).size = b.size + n := by
  rw [← length_toText, toText_pad]; simp

@[simp] theorem size_zeros (n : Nat) : (zeros n).size = n := by simp [zeros]

/-- The view of a write inside an array. -/
theorem toText_overwrite (b bytes : Bytes) (position : Nat) :
    (overwrite b position bytes).toText =
      b.toText.take position ++ bytes.toText ++ b.toText.drop (position + bytes.size) := by
  have h : bytes.size = bytes.data.size := rfl
  simp only [overwrite, toText, ByteArray.copySlice, h, Nat.zero_add, Nat.sub_zero, Nat.min_self,
    Array.toList_append, Array.toList_extract, List.extract_eq_take_drop]
  congr 1
  · congr 1
    have all : bytes.data.toList.take bytes.size = bytes.data.toList :=
      List.take_of_length_le (Nat.le_of_eq (length_toText bytes))
    simp [all]
  · rw [List.take_of_length_le]
    simp

theorem size_overwrite {b bytes : Bytes} {position : Nat} (h : position + bytes.size ≤ b.size) :
    (overwrite b position bytes).size = b.size := by
  rw [← length_toText, toText_overwrite]
  simp only [List.length_append, List.length_take, List.length_drop, length_toText]
  omega

theorem size_first_le (b : Bytes) (n : Nat) : (b.first n).size ≤ n := by
  unfold first
  split
  · assumption
  · simp only [ByteArray.size_extract]
    omega

@[simp] theorem length_word32 (v : UInt32) : (word32 v).length = 4 := rfl

@[simp] theorem length_word64 (v : UInt64) : (word64 v).length = 8 := rfl

@[simp] theorem size_ofText (t : Text) : (ofText t).size = t.length := by
  rw [← length_toText, toText_ofText]

end Bytes
end ForwardIndex
