import ForwardIndex.Proofs.Buffer

/-!
# Runs of calls on a chunk buffer

A call covers a stretch of the buffer. It is refused exactly if the stretch passes the capacity; a
call that is taken puts the big-endian bytes of its value over the stretch and changes nothing else.
So after a clear the bytes below the fill level are those of the puts that were taken, whatever
stale bytes lie behind. In memory the fill level is a word of 64 bits, and room is a difference of
words: `WordBuffer` computes with the words, and none of its sums and differences wraps.
-/
set_option autoImplicit false
namespace ForwardIndex

namespace Bytes

/-! ## Big-endian bytes -/

/-- The digits of a number in base 256, as many as asked for, the most significant first. -/
def bigEndianOf (width n : Nat) : Text :=
  (List.range width).reverse.map fun k => UInt8.ofNat (n / 256 ^ k)

theorem bigEndianOf_add (high low n : Nat) :
    bigEndianOf (high + low) n = bigEndianOf high (n / 256 ^ low) ++ bigEndianOf low n := by
  simp only [bigEndianOf, Nat.add_comm high low, List.range_add, List.reverse_append,
    List.map_append, ← List.map_reverse, List.map_map, Function.comp_def, Nat.pow_add,
    ← Nat.div_div_eq_div_mul]

theorem bigEndianOf_mod (width n : Nat) :
    bigEndianOf width (n % 256 ^ width) = bigEndianOf width n := by
  refine List.map_congr_left fun k known => ?_
  have below : k < width := by simpa using known
  obtain ⟨more, rfl⟩ : ∃ more, width = k + 1 + more := ⟨width - (k + 1), by omega⟩
  rw [← UInt8.toNat_inj, UInt8.toNat_ofNat', UInt8.toNat_ofNat', Nat.add_assoc, Nat.pow_add,
    Nat.mod_mul_right_div_self]
  exact Nat.mod_mod_of_dvd _ (by rw [Nat.pow_add]; exact Dvd.intro _ rfl)

theorem word32_eq (v : UInt32) : word32 v = bigEndianOf 4 v.toNat := by
  have byte (shift : UInt32) (k : Nat) (power : 2 ^ (shift.toNat % 32) = 256 ^ k) :
      (v >>> shift).toUInt8 = UInt8.ofNat (v.toNat / 256 ^ k) := by
    rw [← UInt8.toNat_inj, UInt32.toNat_toUInt8, UInt32.toNat_shiftRight,
      Nat.shiftRight_eq_div_pow, power]
    rfl
  have last : v.toUInt8 = UInt8.ofNat (v.toNat / 256 ^ 0) := by
    rw [← UInt8.toNat_inj, UInt32.toNat_toUInt8, Nat.pow_zero, Nat.div_one]
    rfl
  rw [word32, byte 24 3 rfl, byte 16 2 rfl, byte 8 1 rfl, last]
  rfl

theorem word64_eq (v : UInt64) : word64 v = bigEndianOf 8 v.toNat := by
  have high : (v >>> 32).toUInt32.toNat = v.toNat / 256 ^ 4 % 256 ^ 4 := by
    rw [UInt64.toNat_toUInt32, UInt64.toNat_shiftRight, Nat.shiftRight_eq_div_pow]
    rfl
  have low : v.toUInt32.toNat = v.toNat % 256 ^ 4 := UInt64.toNat_toUInt32 v
  rw [word64, word32_eq, word32_eq, high, low, bigEndianOf_mod, bigEndianOf_mod]
  exact (bigEndianOf_add 4 4 _).symm

@[simp] theorem overwrite_nothing (b : Bytes) (position : Nat) :
    b.overwrite position (ofText []) = b :=
  ext (by simp [toText_overwrite])

end Bytes

namespace Buffer

/-! ## What a call covers -/

/-- The bytes that a call puts: those of its value, in two's complement, the most significant byte
first. A seek and a clear put none. -/
def Call.encoding : Call → Text
  | append bytes => bytes.toText
  | int32 v => Bytes.bigEndianOf 4 v.toUInt32.toNat
  | int64 v => Bytes.bigEndianOf 8 v.toUInt64.toNat
  | float bits => Bytes.bigEndianOf 4 bits.toNat
  | double bits => Bytes.bigEndianOf 8 bits.toNat
  | int32At _ v => Bytes.bigEndianOf 4 v.toUInt32.toNat
  | seek _ => []
  | clear => []

/-- Where the bytes of a call go, or where it sets the fill level. -/
def Call.start (b : Buffer) : Call → Nat
  | append _ | int32 _ | int64 _ | float _ | double _ => b.position
  | int32At position _ => position
  | seek position => position
  | clear => 0

/-- The end of the stretch that a call covers. -/
def Call.stop (b : Buffer) (call : Call) : Nat := call.start b + call.encoding.length

/-- The fill level after a call that is taken. Storing at a position of its own leaves it. -/
def Call.level (b : Buffer) (call : Call) : Nat :=
  match call with
  | int32At _ _ => b.position
  | _ => call.stop b

/-- A call that puts bytes at the fill level. -/
def Call.IsPut : Call → Prop
  | append _ | int32 _ | int64 _ | float _ | double _ => True
  | int32At _ _ | seek _ | clear => False

instance (call : Call) : Decidable call.IsPut :=
  match call with
  | .append _ | .int32 _ | .int64 _ | .float _ | .double _ => isTrue trivial
  | .int32At _ _ | .seek _ | .clear => isFalse id

/-! ## Single calls -/

/-- What comes of putting bytes at a start, the fill level to be moved to another: all of it is done,
or nothing where the bytes pass the capacity. -/
structure Answers (b : Buffer) (start : Nat) (bytes : Bytes) (level : Nat) (r : Bool × Buffer) :
    Prop where
  taken : start + bytes.size ≤ b.capacity →
    r.1 = true ∧ r.2.data = b.data.overwrite start bytes ∧ r.2.position = level
  refused : b.capacity < start + bytes.size → r = (false, b)

theorem append_answers (b : Buffer) (bytes : Bytes) :
    Answers b b.position bytes (b.position + bytes.size) (b.append bytes) := by
  refine ⟨fun fits => ?_, append_refused⟩
  obtain ⟨data, position, le⟩ := b
  have fits : position + bytes.size ≤ data.size := fits
  rw [append, dif_pos fits]
  exact ⟨rfl, rfl, rfl⟩

theorem putWord32At_answers (b : Buffer) (slot : Nat) (v : UInt32) :
    Answers b slot (Bytes.ofText (Bytes.word32 v)) b.position (b.putWord32At slot v) := by
  obtain ⟨data, position, le⟩ := b
  refine ⟨fun fits => ?_, fun far => dif_neg (Nat.not_le.2 far)⟩
  have fits : slot + (Bytes.ofText (Bytes.word32 v)).size ≤ data.size := fits
  rw [putWord32At, dif_pos fits]
  exact ⟨rfl, rfl, rfl⟩

theorem seek_answers (b : Buffer) (position : Nat) :
    Answers b position (Bytes.ofText []) position (b.seek position) := by
  obtain ⟨data, old, le⟩ := b
  refine ⟨fun fits => ?_, fun far => dif_neg (Nat.not_le.2 far)⟩
  have fits : position ≤ data.size := fits
  rw [seek, dif_pos fits]
  exact ⟨rfl, (Bytes.overwrite_nothing _ _).symm, rfl⟩

theorem clear_answers (b : Buffer) : Answers b 0 (Bytes.ofText []) 0 (true, b.clear) :=
  ⟨fun _ => ⟨rfl, (Bytes.overwrite_nothing _ _).symm, rfl⟩, fun far => absurd far (Nat.not_lt_zero _)⟩

/-- A put appends its encoding. -/
theorem apply_put {call : Call} (put : call.IsPut) (b : Buffer) :
    call.apply b = b.append (Bytes.ofText call.encoding) := by
  cases call with
  | append bytes => exact congrArg b.append (Bytes.ofText_toText bytes).symm
  | int32 v => exact congrArg (fun t => b.append (Bytes.ofText t)) (Bytes.word32_eq v.toUInt32)
  | int64 v => exact congrArg (fun t => b.append (Bytes.ofText t)) (Bytes.word64_eq v.toUInt64)
  | float bits => exact congrArg (fun t => b.append (Bytes.ofText t)) (Bytes.word32_eq bits)
  | double bits => exact congrArg (fun t => b.append (Bytes.ofText t)) (Bytes.word64_eq bits)
  | int32At position v => exact put.elim
  | seek position => exact put.elim
  | clear => exact put.elim

theorem put_answers {call : Call} (put : call.IsPut) (b : Buffer) :
    Answers b b.position (Bytes.ofText call.encoding) (b.position + call.encoding.length)
      (call.apply b) := by
  have answers := b.append_answers (Bytes.ofText call.encoding)
  rwa [Bytes.size_ofText, ← apply_put put] at answers

/-- Every call puts its encoding where it starts. -/
theorem apply_answers (call : Call) (b : Buffer) :
    Answers b (call.start b) (Bytes.ofText call.encoding) (call.level b) (call.apply b) := by
  cases call with
  | append _ | int32 _ | int64 _ | float _ | double _ =>
    exact put_answers (by trivial) b
  | int32At position v =>
    have put := b.putWord32At_answers position v.toUInt32
    rwa [Bytes.word32_eq] at put
  | seek position => exact b.seek_answers position
  | clear => exact b.clear_answers

/-! ## Runs of calls -/

/-- Calls one after the other, with what each of them answers. -/
def perform : List Call → Buffer → List Bool × Buffer
  | [], b => ([], b)
  | call :: rest, b =>
    let (reply, b') := call.apply b
    let (replies, b'') := perform rest b'
    (reply :: replies, b'')

/-- The calls among some that were taken. -/
def accepted (calls : List Call) (replies : List Bool) : List Call :=
  ((calls.zip replies).filter (·.2)).map (·.1)

@[simp] theorem perform_cons (call : Call) (rest : List Call) (b : Buffer) :
    perform (call :: rest) b = ((call.apply b).1 :: (perform rest (call.apply b).2).1,
      (perform rest (call.apply b).2).2) := rfl

theorem capacity_perform (calls : List Call) (b : Buffer) :
    (perform calls b).2.capacity = b.capacity := by
  induction calls generalizing b with
  | nil => rfl
  | cons call rest ih => exact (ih _).trans (capacity_apply call b)

/-- The puts that are taken come behind what is filled, in their order. -/
theorem filled_perform {puts : List Call} (all : ∀ put ∈ puts, put.IsPut) (b : Buffer) :
    (perform puts b).2.filled.toText =
      b.filled.toText ++ (accepted puts (perform puts b).1).flatMap Call.encoding := by
  induction puts generalizing b with
  | nil => simp [perform, accepted]
  | cons put rest ih =>
    obtain ⟨isPut, all⟩ := List.forall_mem_cons.1 all
    rw [perform_cons, apply_put isPut, ih all]
    by_cases fits : b.position + (Bytes.ofText put.encoding).size ≤ b.capacity
    · obtain ⟨b', taken, filled, -⟩ := append_ok fits
      simp [taken, filled, accepted]
    · simp [append_refused (Nat.lt_of_not_le fits), accepted]

end Buffer

/-! ## Words -/

/-- A buffer with its fill level in a word. -/
structure WordBuffer where
  data : Bytes
  position : UInt64

namespace WordBuffer

def new (capacity : Nat) : WordBuffer := ⟨Bytes.zeros capacity, 0⟩

def capacity (w : WordBuffer) : UInt64 := UInt64.ofNat w.data.size

def remaining (w : WordBuffer) : UInt64 := w.capacity - w.position

/-- Puts so many bytes at the fill level. -/
def put (w : WordBuffer) (n : UInt64) (bytes : Bytes) : Bool × WordBuffer :=
  if w.remaining < n then (false, w)
  else (true, ⟨w.data.overwrite w.position.toNat bytes, w.position + n⟩)

def putWord32At (w : WordBuffer) (slot : UInt64) (v : UInt32) : Bool × WordBuffer :=
  if w.capacity < slot ∨ w.capacity - slot < 4 then (false, w)
  else (true, ⟨w.data.overwrite slot.toNat (Bytes.ofText (Bytes.word32 v)), w.position⟩)

def seek (w : WordBuffer) (position : UInt64) : Bool × WordBuffer :=
  if w.capacity < position then (false, w) else (true, ⟨w.data, position⟩)

/-- What a call does. Lengths and positions arrive as words. -/
def apply : Buffer.Call → WordBuffer → Bool × WordBuffer
  | .append bytes, w => w.put (UInt64.ofNat bytes.size) bytes
  | .int32 v, w => w.put 4 (Bytes.ofText (Bytes.word32 v.toUInt32))
  | .int64 v, w => w.put 8 (Bytes.ofText (Bytes.word64 v.toUInt64))
  | .float bits, w => w.put 4 (Bytes.ofText (Bytes.word32 bits))
  | .double bits, w => w.put 8 (Bytes.ofText (Bytes.word64 bits))
  | .int32At position v, w => w.putWord32At (UInt64.ofNat position) v.toUInt32
  | .seek position, w => w.seek (UInt64.ofNat position)
  | .clear, w => (true, ⟨w.data, 0⟩)

def perform : List Buffer.Call → WordBuffer → List Bool × WordBuffer
  | [], w => ([], w)
  | call :: rest, w =>
    let (reply, w') := apply call w
    let (replies, w'') := perform rest w'
    (reply :: replies, w'')

/-- The same buffer, with the fill level in a word. -/
structure Represents (w : WordBuffer) (b : Buffer) : Prop where
  data : w.data = b.data
  position : w.position.toNat = b.position

end WordBuffer

namespace Buffer

/-- A length or a position that a word holds. -/
def Call.Addressable : Call → Prop
  | append bytes => bytes.size < 2 ^ 64
  | int32At position _ => position < 2 ^ 64
  | seek position => position < 2 ^ 64
  | int32 _ | int64 _ | float _ | double _ | clear => True

instance (call : Call) : Decidable call.Addressable :=
  match call with
  | .append bytes => inferInstanceAs (Decidable (bytes.size < 2 ^ 64))
  | .int32At position _ | .seek position => inferInstanceAs (Decidable (position < 2 ^ 64))
  | .int32 _ | .int64 _ | .float _ | .double _ | .clear => isTrue trivial

end Buffer

namespace WordBuffer

/-- A call on words does the same, and answers the same, as the call on numbers. -/
structure Agrees (s : Bool × WordBuffer) (r : Bool × Buffer) : Prop where
  reply : s.1 = r.1
  represents : Represents s.2 r.2

section Represents

variable {w : WordBuffer} {b : Buffer} (h : w.Represents b) (small : b.capacity < 2 ^ 64)
include h small

theorem toNat_capacity : w.capacity.toNat = b.capacity := by
  rw [capacity, h.data]
  exact UInt64.toNat_ofNat_of_lt small

theorem toNat_remaining : w.remaining.toNat = b.capacity - b.position := by
  have le : w.position ≤ w.capacity := by
    rw [UInt64.le_iff_toNat_le, toNat_capacity h small, h.position]
    exact b.position_le
  rw [remaining, UInt64.toNat_sub_of_le _ _ le, toNat_capacity h small, h.position]

omit small in
/-- Two calls that are taken and refused alike agree. -/
theorem Agrees.of_answers {start level : Nat} {bytes : Bytes} {s : Bool × WordBuffer}
    {r : Bool × Buffer} (answers : b.Answers start bytes level r)
    (taken : start + bytes.size ≤ b.capacity →
      s.1 = true ∧ s.2.data = w.data.overwrite start bytes ∧ s.2.position.toNat = level)
    (refused : b.capacity < start + bytes.size → s = (false, w)) : Agrees s r := by
  by_cases far : b.capacity < start + bytes.size
  · rw [refused far, answers.refused far]
    exact ⟨rfl, h⟩
  · obtain ⟨reply, data, position⟩ := answers.taken (Nat.not_lt.1 far)
    obtain ⟨reply', data', position'⟩ := taken (Nat.not_lt.1 far)
    exact ⟨reply'.trans reply.symm, by rw [data, data', h.data], position'.trans position.symm⟩

theorem put_agrees {n : UInt64} {bytes : Bytes} (size : n.toNat = bytes.size) :
    Agrees (w.put n bytes) (b.append bytes) := by
  have level := b.position_le
  have full : w.remaining < n ↔ b.capacity < b.position + bytes.size := by
    rw [UInt64.lt_iff_toNat_lt, toNat_remaining h small, size]
    exact Nat.sub_lt_iff_lt_add' level
  refine .of_answers h (b.append_answers bytes) (fun fits => ?_) fun far => if_pos (full.2 far)
  rw [put, if_neg (mt full.1 (Nat.not_lt.2 fits))]
  refine ⟨rfl, congrArg (w.data.overwrite · bytes) h.position, ?_⟩
  -- The new fill level is within the capacity, so the sum of the words does not wrap.
  rw [UInt64.toNat_add, h.position, size]
  exact Nat.mod_eq_of_lt (by omega)

theorem putWord32At_agrees {slot : UInt64} {position : Nat} (same : slot.toNat = position)
    (v : UInt32) : Agrees (w.putWord32At slot v) (b.putWord32At position v) := by
  have full : (w.capacity < slot ∨ w.capacity - slot < 4) ↔ b.capacity < position + 4 := by
    rw [UInt64.lt_iff_toNat_lt, toNat_capacity h small, same]
    by_cases beyond : b.capacity < position
    · exact iff_of_true (.inl beyond) (by omega)
    · have le : slot ≤ w.capacity := by
        rw [UInt64.le_iff_toNat_le, toNat_capacity h small, same]
        exact Nat.not_lt.1 beyond
      rw [UInt64.lt_iff_toNat_lt, UInt64.toNat_sub_of_le _ _ le, toNat_capacity h small, same]
      show _ ∨ _ < 4 ↔ _
      omega
  have size : (Bytes.ofText (Bytes.word32 v)).size = 4 := Bytes.size_ofText _
  rw [← size] at full
  refine .of_answers h (b.putWord32At_answers position v) (fun fits => ?_) fun far =>
    if_pos (full.2 far)
  rw [putWord32At, if_neg (mt full.1 (Nat.not_lt.2 fits)), same]
  exact ⟨rfl, rfl, h.position⟩

theorem seek_agrees {position : UInt64} {n : Nat} (same : position.toNat = n) :
    Agrees (w.seek position) (b.seek n) := by
  have beyond : w.capacity < position ↔ b.capacity < n := by
    rw [UInt64.lt_iff_toNat_lt, toNat_capacity h small, same]
  refine .of_answers h (b.seek_answers n) (fun fits => ?_) fun far => if_pos (beyond.2 far)
  rw [seek, if_neg (mt beyond.1 (Nat.not_lt.2 fits))]
  exact ⟨rfl, (Bytes.overwrite_nothing _ _).symm, same⟩

theorem apply_agrees {call : Buffer.Call} (fits : call.Addressable) :
    Agrees (apply call w) (call.apply b) := by
  have word {n : Nat} (small : n < 2 ^ 64) : (UInt64.ofNat n).toNat = n :=
    UInt64.toNat_ofNat_of_lt small
  have four (v : UInt32) : (4 : UInt64).toNat = (Bytes.ofText (Bytes.word32 v)).size := by
    rw [Bytes.size_ofText, Bytes.length_word32]
    rfl
  have eight (v : UInt64) : (8 : UInt64).toNat = (Bytes.ofText (Bytes.word64 v)).size := by
    rw [Bytes.size_ofText, Bytes.length_word64]
    rfl
  cases call with
  | append bytes => exact put_agrees h small (word fits)
  | int32 v => exact put_agrees h small (four v.toUInt32)
  | int64 v => exact put_agrees h small (eight v.toUInt64)
  | float bits => exact put_agrees h small (four bits)
  | double bits => exact put_agrees h small (eight bits)
  | int32At position v => exact putWord32At_agrees h small (word fits) v.toUInt32
  | seek position => exact seek_agrees h small (word fits)
  | clear => exact ⟨rfl, h.data, rfl⟩

end Represents

/-- A run on words goes as the run on numbers, whatever the lengths and positions. -/
theorem perform_agrees {calls : List Buffer.Call} (fits : ∀ call ∈ calls, call.Addressable)
    {w : WordBuffer} {b : Buffer} (h : w.Represents b) (small : b.capacity < 2 ^ 64) :
    (perform calls w).1 = (Buffer.perform calls b).1 ∧
      (perform calls w).2.Represents (Buffer.perform calls b).2 := by
  induction calls generalizing w b with
  | nil => exact ⟨rfl, h⟩
  | cons call rest ih =>
    obtain ⟨first, fits⟩ := List.forall_mem_cons.1 fits
    obtain ⟨reply, represents⟩ := apply_agrees h small first
    obtain ⟨replies, last⟩ := ih fits represents (by rwa [Buffer.capacity_apply])
    exact ⟨congrArg₂ List.cons reply replies, last⟩

end WordBuffer

namespace Buffer

/-- Whatever calls a buffer has seen, the next one is refused exactly if its stretch passes the
capacity, and then changes nothing; else its bytes are put over the stretch, the others stay, and
the fill level moves as it should. From a clear on, puts leave below the fill level the bytes of
those that were taken. The words of 64 bits that it is computed with tell the same at every step. -/
theorem calls_exactly (capacity : Nat) (calls : List Call) :
    let b := (perform calls (new capacity)).2
    b.capacity = capacity ∧ b.position ≤ capacity ∧
    (∀ call : Call, let r := call.apply b
      (r.1 = false ↔ capacity < call.stop b) ∧
      (r.1 = false → r.2 = b) ∧
      (r.1 = true →
        r.2.position = call.level b ∧
        r.2.data.toText = b.data.toText.take (call.start b) ++ call.encoding ++
          b.data.toText.drop (call.stop b))) ∧
    (∀ puts : List Call, (∀ put ∈ puts, put.IsPut) →
      let r := perform puts b.clear
      r.2.data.toText.take r.2.position = (accepted puts r.1).flatMap Call.encoding) ∧
    (capacity < 2 ^ 64 → (∀ call ∈ calls, call.Addressable) →
      let r := WordBuffer.perform calls (.new capacity)
      r.1 = (perform calls (new capacity)).1 ∧ r.2.data = b.data ∧
        r.2.position.toNat = b.position) := by
  intro b
  have same : b.capacity = capacity := (capacity_perform calls _).trans (capacity_new capacity)
  refine ⟨same, same ▸ b.position_le, fun call => ?_, fun puts all => ?_, fun small fits => ?_⟩
  · have answers := apply_answers call b
    have stop : call.start b + (Bytes.ofText call.encoding).size = call.stop b := by
      rw [Bytes.size_ofText, Call.stop]
    rw [← same]
    by_cases far : b.capacity < call.stop b
    · rw [answers.refused (stop ▸ far)]
      exact ⟨iff_of_true rfl far, fun _ => rfl, nofun⟩
    · obtain ⟨reply, data, position⟩ := answers.taken (stop ▸ Nat.not_lt.1 far)
      refine ⟨iff_of_false (by simp [reply]) far, by simp [reply], fun _ => ⟨position, ?_⟩⟩
      rw [data, Bytes.toText_overwrite, stop, Bytes.toText_ofText]
  · have filled := filled_perform all b.clear
    rwa [filled_clear, toText_filled, Bytes.toText_empty, List.nil_append] at filled
  · have start : (WordBuffer.new capacity).Represents (new capacity) := ⟨rfl, rfl⟩
    obtain ⟨replies, represents⟩ :=
      WordBuffer.perform_agrees fits start (by rwa [capacity_new])
    exact ⟨replies, represents.data, represents.position⟩

/-- Six bytes behind a gap fill a buffer of ten. A number stored at the very end is refused, as is a
seek to the largest position; after the clear a number and a byte are taken and a long number is not,
and what lies behind them is stale. -/
theorem calls_exactly_stale :
    let calls : List Call := [.seek 4, .append (Bytes.ofText [1, 2, 3, 4, 5, 6]), .int32At 7 1,
      .int32At 0 4, .seek 18446744073709551615]
    let puts : List Call := [.int32 (-2), .int64 7, .append (Bytes.ofText [9])]
    let run := perform calls (new 10)
    let r := perform puts run.2.clear
    run.1 = [true, true, false, true, false] ∧ r.1 = [true, false, true] ∧
      r.2.data.toText.take r.2.position = [255, 255, 255, 254, 9] ∧
      r.2.data.toText.drop r.2.position = [2, 3, 4, 5, 6] ∧
      (WordBuffer.perform calls (.new 10)).1 = run.1 := by
  intro calls puts run r
  obtain ⟨-, -, -, filled, words⟩ := calls_exactly 10 calls
  have put : ∀ put ∈ puts, put.IsPut := by decide
  have replies : r.1 = [true, false, true] := by decide +kernel
  refine ⟨by decide +kernel, replies, ?_, by decide +kernel, ?_⟩
  · refine (filled puts put).trans ?_
    show (accepted puts r.1).flatMap Call.encoding = _
    rw [replies]
    decide +kernel
  · refine (words (by decide) ?_).1
    decide +kernel

end Buffer
end ForwardIndex
