import ForwardIndex.Compressor
import ForwardIndex.IndexFile
import ForwardIndex.Proofs.Deflater

/-!
# Built-in compressors

A built-in compressor puts the encoding of a chunk at the start of a staging buffer that was made
for full chunks. The encoding of a GZIP chunk is what the deflate library makes of it in a call,
with a trailer behind; it is undone on reading by whatever undoes the library.
-/
set_option autoImplicit false
namespace ForwardIndex

namespace Gzip

section Trailed

variable (stream : Bytes) (n : Nat)

theorem size_trailed : (trailed stream n).size = stream.size + trailerSize := by
  rw [trailed, ByteArray.size_append, Bytes.size_ofText, Bytes.length_word64]
  rfl

theorem inflate?_trailed (inflate : Bytes → Option Bytes) :
    inflate? (trailed stream n) inflate = inflate stream := by
  have size := size_trailed stream n
  have front : (trailed stream n).first stream.size = stream := by
    apply Bytes.ext
    rw [Bytes.toText_first, trailed, Bytes.toText_append, List.take_left' (Bytes.length_toText _)]
  rw [inflate?, if_neg (by omega), size, Nat.add_sub_cancel, front]

variable {n}

theorem trailer?_trailed (small : n < 2 ^ 64) : trailer? (trailed stream n) = some n := by
  have size := size_trailed stream n
  have last : (trailed stream n).toText.drop stream.size = Bytes.word64 (UInt64.ofNat n) := by
    rw [trailed, Bytes.toText_append, Bytes.toText_ofText, List.drop_left' (Bytes.length_toText _)]
  rw [trailer?, if_neg (by omega), Bytes.toText_rest, size, Nat.add_sub_cancel, last,
    Bytes.bigEndian_word64, UInt64.toNat_ofNat', Nat.mod_eq_of_lt small]

end Trailed

/-- A compressed chunk gives the chunk it was made of. -/
theorem decode?_trailed {inflate : Bytes → Option Bytes} {stream chunk : Bytes}
    (undone : inflate stream = some chunk) (small : chunk.size < 2 ^ 64) :
    decode? inflate (trailed stream chunk.size) = some chunk := by
  rw [decode?, inflate?_trailed, undone, trailer?_trailed _ small]
  exact if_pos rfl

end Gzip

namespace Compressor

theorem stage_first {staging out : Bytes} (h : out.size ≤ staging.size) :
    (stage staging out).first out.size = out := by
  have all : out.first staging.size = out := by rw [Bytes.first, if_pos h]
  apply Bytes.ext
  rw [stage, all, Bytes.toText_first, Bytes.toText_overwrite, List.take_zero, List.nil_append,
    List.take_left' (Bytes.length_toText _)]

/-- A compressor with a staging buffer for chunks of a capacity puts into it what an encoding says
of the call and the chunk. -/
structure Encodes (c : Compressor) (capacity : Nat) (encode : Nat → Bytes → Bytes) : Prop where
  bound_le : c.bound capacity ≤ 2 ^ 31 + 2 ^ 20
  size_le (call : Nat) {chunk : Bytes} : chunk.size ≤ capacity →
    (encode call chunk).size ≤ c.bound capacity
  size_ne_zero (call : Nat) {chunk : Bytes} : chunk.size ≠ 0 → (encode call chunk).size ≠ 0
  compress (call : Nat) {chunk staging : Bytes} : chunk.size ≤ capacity →
    staging.size = c.bound capacity →
    c.compress call chunk staging = (stage staging (encode call chunk), .ok (encode call chunk).size)

/-- The encoding in a built-in compression of a chunk, in a call and for chunks of a capacity. -/
def encoding (z : Deflater) (t : Compression) (capacity call : Nat) (chunk : Bytes) : Bytes :=
  if t = .passThrough then chunk
  else
    Gzip.trailed (z.finish call Gzip.defaultLevel chunk (Deflater.bound capacity)).1 chunk.size

section Builtin

variable {z : Deflater} {t : Compression} {c : Compressor} {capacity : Nat}

/-- Two types are built in. -/
theorem ofType_cases (h : ofType t z = .ok c) :
    (t = .passThrough ∧ c = passThrough) ∨
      (t = .gzip ∧ z.start Gzip.defaultLevel = none ∧ c = gzip ⟨some Gzip.defaultLevel⟩ z) := by
  unfold ofType at h
  split at h
  · next stored =>
    cases h
    exact .inl ⟨stored, rfl⟩
  · split at h
    · next zipped =>
      unfold Gzip.init at h
      cases started : z.start Gzip.defaultLevel with
      | some why =>
        rw [started] at h
        cases h
      | none =>
        rw [started] at h
        cases h
        exact .inr ⟨zipped, rfl, rfl⟩
    · split at h <;> cases h

/-- The types that are built in are PASS_THROUGH and, where the library starts at its default level,
GZIP. -/
theorem ofType_ok_iff :
    (∃ c, ofType t z = .ok c) ↔
      t = .passThrough ∨ t = .gzip ∧ z.start Gzip.defaultLevel = none := by
  constructor
  · rintro ⟨c, h⟩
    exact (ofType_cases h).imp And.left fun zipped => ⟨zipped.1, zipped.2.1⟩
  · rintro (rfl | ⟨rfl, started⟩)
    · exact ⟨_, rfl⟩
    · exact ⟨_, by simp only [ofType, Gzip.init, started]; rfl⟩

/-- With the library that the program comes with these are PASS_THROUGH and GZIP. -/
theorem ofType_builtin_ok_iff :
    (∃ c, ofType t .builtin = .ok c) ↔ t = .passThrough ∨ t = .gzip := by
  rw [ofType_ok_iff]
  exact or_congr_right (and_iff_left (by decide))

theorem builtin_of_ofType (h : ofType t z = .ok c) : t = .passThrough ∨ t = .gzip :=
  (ofType_cases h).imp And.left And.left

theorem ofType_type (h : ofType t z = .ok c) : c.type = t := by
  obtain ⟨rfl, rfl⟩ | ⟨rfl, -, rfl⟩ := ofType_cases h
  · rfl
  · rfl

theorem passThrough_encodes (most : capacity ≤ Layout.maxInt32) :
    passThrough.Encodes capacity (encoding z .passThrough capacity) where
  bound_le := most.trans (by decide)
  size_le _ _ within := within
  size_ne_zero _ _ some := some
  compress call chunk staging within room := by
    have fits : ¬ staging.size < chunk.size := by
      rw [room]
      exact Nat.not_lt.2 within
    simp only [passThrough, ofEncoder, ofFunction, storeChunk, if_neg fits]
    rfl

theorem gzip_encodes (most : capacity ≤ Layout.maxInt32) (doc : z.Documented) :
    (gzip ⟨some Gzip.defaultLevel⟩ z).Encodes capacity (encoding z .gzip capacity) where
  bound_le := by
    unfold Layout.maxInt32 at most
    simp only [gzip, ofFunction, Gzip.bound, Gzip.trailerSize, Deflater.bound]
    omega
  size_le call chunk within := by
    have stream := doc.size_le call Gzip.defaultLevel chunk _ (Deflater.bound_mono within)
    refine (Nat.le_of_eq (Gzip.size_trailed _ _)).trans (Nat.add_le_add_right ?_ _)
    exact stream.trans (Deflater.bound_mono within)
  size_ne_zero call chunk _ := by
    rw [encoding, if_neg (by decide), Gzip.size_trailed]
    exact Nat.succ_ne_zero _
  compress call chunk staging within room := by
    have space : staging.size = Deflater.bound capacity + Gzip.trailerSize := room
    have fits := Deflater.bound_mono within
    have enough : ¬ staging.size < Gzip.bound chunk.size := by
      rw [space]
      exact Nat.not_lt.2 (Nat.add_le_add_right fits _)
    unfold Layout.maxInt32 at most
    have few : ¬ Gzip.maxInput < chunk.size := by
      unfold Gzip.maxInput
      omega
    have input : (UInt32.ofNat chunk.size).toNat = chunk.size :=
      UInt32.toNat_ofNat_of_lt' (Nat.lt_of_le_of_lt (within.trans most) (by decide))
    have output : (UInt32.ofNat (staging.size - Gzip.trailerSize)).toNat =
        Deflater.bound capacity := by
      rw [space, Nat.add_sub_cancel]
      refine UInt32.toNat_ofNat_of_lt' ?_
      unfold Deflater.bound
      have limit : UInt32.size = 2 ^ 32 := rfl
      omega
    have ended := doc.ends call Gzip.defaultLevel chunk _ fits
    rcases finished : z.finish call Gzip.defaultLevel chunk (Deflater.bound capacity)
      with ⟨stream, why⟩
    rw [finished] at ended
    obtain rfl : why = none := ended
    have coded : encoding z .gzip capacity call chunk = Gzip.trailed stream chunk.size := by
      rw [encoding, if_neg (by decide), finished]
    simp only [gzip, ofFunction, Gzip.deflate, few, enough, doc.reset, input, output, finished,
      if_false, Bytes.first_size, coded, Gzip.size_trailed]

/-- What a built-in compressor relies on is asked of GZIP alone. -/
theorem ofType_encodes (h : ofType t z = .ok c) (most : capacity ≤ Layout.maxInt32)
    (doc : t = .gzip → z.Documented) : c.Encodes capacity (encoding z t capacity) := by
  obtain ⟨rfl, rfl⟩ | ⟨rfl, -, rfl⟩ := ofType_cases h
  · exact passThrough_encodes most
  · exact gzip_encodes most (doc rfl)

end Builtin

end Compressor

section Reading

variable {z : Deflater} {inflate : Bytes → Option Bytes} {t : Compression} {capacity : Nat}

/-- The encoding of a built-in compression is undone on reading. -/
theorem IndexFile.rawChunk?_encoding {f : IndexFile} (builtin : t = .passThrough ∨ t = .gzip)
    (undone : t = .gzip → z.UndoneBy inflate) (type : f.compression = t.code)
    (most : capacity ≤ Layout.maxInt32) (call : Nat) {chunk : Bytes}
    (within : chunk.size ≤ capacity) :
    f.rawChunk? inflate (Compressor.encoding z t capacity call chunk) = some chunk := by
  obtain rfl | rfl := builtin
  · rw [rawChunk?, if_pos type]
    rfl
  · have zipped : ¬ f.compression = Compression.passThrough.code := by
      rw [type]
      decide
    rw [rawChunk?, if_neg zipped, if_pos type, Compressor.encoding, if_neg (by decide)]
    exact Gzip.decode?_trailed (undone rfl _ _ _ _ (Deflater.bound_mono within))
      (Nat.lt_of_le_of_lt (within.trans most) (by decide))

end Reading

end ForwardIndex
