import ForwardIndex.Bytes

/-!
# Chunk buffers

A chunk buffer is a region of fixed capacity for one chunk that is being put together. `position` is
the fill level: how many bytes the next flush takes. A write that would pass the capacity is refused
and changes nothing. Bytes beyond the fill level stay as they were.
-/
set_option autoImplicit false
namespace ForwardIndex

structure Buffer where
  data : Bytes
  position : Nat
  position_le : position ≤ data.size

namespace Buffer

/-- A buffer of zeros, empty. -/
def new (capacity : Nat) : Buffer := ⟨Bytes.zeros capacity, 0, Nat.zero_le _⟩

instance : Inhabited Buffer := ⟨new 0⟩

def capacity (b : Buffer) : Nat := b.data.size

def remaining (b : Buffer) : Nat := b.capacity - b.position

def isEmpty (b : Buffer) : Bool := b.position = 0

def isFull (b : Buffer) : Bool := b.position = b.capacity

/-- The bytes below the fill level. -/
def filled (b : Buffer) : Bytes := b.data.first b.position

/-- Puts bytes at the fill level and moves it behind them. -/
def append (b : Buffer) (bytes : Bytes) : Bool × Buffer :=
  match b with
  | ⟨data, position, _⟩ =>
    if h : position + bytes.size ≤ data.size then
      (true, ⟨data.overwrite position bytes, position + bytes.size, by
        rw [Bytes.size_overwrite h]; exact h⟩)
    else (false, ⟨data, position, by assumption⟩)

def putWord32 (b : Buffer) (v : UInt32) : Bool × Buffer :=
  b.append (Bytes.ofText (Bytes.word32 v))

def putWord64 (b : Buffer) (v : UInt64) : Bool × Buffer :=
  b.append (Bytes.ofText (Bytes.word64 v))

def putInt32 (b : Buffer) (v : Int32) : Bool × Buffer := b.putWord32 v.toUInt32

def putInt64 (b : Buffer) (v : Int64) : Bool × Buffer := b.putWord64 v.toUInt64

/-- Stores a word at a position of its own; the fill level stays. -/
def putWord32At (b : Buffer) (slot : Nat) (v : UInt32) : Bool × Buffer :=
  match b with
  | ⟨data, position, le⟩ =>
    let word := Bytes.ofText (Bytes.word32 v)
    if h : slot + word.size ≤ data.size then
      (true, ⟨data.overwrite slot word, position, by rw [Bytes.size_overwrite h]; exact le⟩)
    else (false, ⟨data, position, le⟩)

/-- Moves the fill level. -/
def seek (b : Buffer) (position : Nat) : Bool × Buffer :=
  match b with
  | ⟨data, old, le⟩ =>
    if h : position ≤ data.size then (true, ⟨data, position, h⟩) else (false, ⟨data, old, le⟩)

/-- Resets the fill level; the bytes stay. -/
def clear (b : Buffer) : Buffer :=
  match b with
  | ⟨data, _, _⟩ => ⟨data, 0, Nat.zero_le _⟩

end Buffer
end ForwardIndex
