import ForwardIndex.Zlib.Inflate
import ForwardIndex.Proofs.Bytes

/-!
# Bits in bytes

Numbers and bytes written as bits are read back, and packing only adds zeros at the end. Where the
rest of a stream is whole bytes, aligning drops exactly what was added.
-/
set_option autoImplicit false
namespace ForwardIndex.Zlib.Bits

/-! ## Numbers -/

@[simp] theorem length_ofNat (width n : Nat) : (ofNat width n).length = width := by
  induction width generalizing n with
  | zero => rfl
  | succ width ih => simp [ofNat, ih]

theorem readNat_ofNat {width n : Nat} (h : n < 2 ^ width) (rest : Bits) :
    readNat width (ofNat width n ++ rest) = some (n, rest) := by
  induction width generalizing n with
  | zero =>
    obtain rfl : n = 0 := by omega
    rfl
  | succ width ih =>
    have low : (n % 2 == 1).toNat + 2 * (n / 2) = n := by
      obtain even | odd := Nat.mod_two_eq_zero_or_one n
      · simp only [even, Nat.reduceBEq, Bool.toNat_false]
        omega
      · simp only [odd, BEq.rfl, Bool.toNat_true]
        omega
    rw [ofNat, List.cons_append, readNat, ih (by omega)]
    simp only [low]

/-- The low part of a number comes before its high part. -/
theorem ofNat_add (low high n : Nat) :
    ofNat (low + high) n = ofNat low n ++ ofNat high (n / 2 ^ low) := by
  induction low generalizing n with
  | zero => simp [ofNat]
  | succ low ih =>
    rw [show low + 1 + high = low + high + 1 by omega, ofNat, ih, ofNat, List.cons_append,
      Nat.div_div_eq_div_mul, Nat.pow_succ, Nat.mul_comm (2 ^ low)]

/-- Only the low bits of a number are written. -/
theorem ofNat_mod (width n : Nat) : ofNat width (n % 2 ^ width) = ofNat width n := by
  induction width generalizing n with
  | zero => rfl
  | succ width ih =>
    have even : 2 ∣ 2 ^ (width + 1) := Dvd.intro_left (2 ^ width) rfl
    have half : n % 2 ^ (width + 1) / 2 = n / 2 % 2 ^ width := by
      rw [Nat.pow_succ, Nat.mul_comm, Nat.mod_mul_right_div_self]
    rw [ofNat, ofNat, ← ih (n / 2), Nat.mod_mod_of_dvd _ even, half]

/-- The number of a bit string, its first bit the lowest. -/
abbrev value (bits : Bits) : Nat := bits.foldr (fun b n => b.toNat + 2 * n) 0

theorem value_cons (b : Bool) (rest : Bits) : value (b :: rest) = b.toNat + 2 * value rest := rfl

theorem value_lt (bits : Bits) : value bits < 2 ^ bits.length := by
  induction bits with
  | nil => simp
  | cons b rest ih =>
    have := b.toNat_lt
    rw [value_cons, List.length_cons, Nat.pow_succ]
    omega

/-- A number written wider than it was read ends in zeros. -/
theorem ofNat_value {width : Nat} {bits : Bits} (h : bits.length ≤ width) :
    ofNat width (value bits) = bits ++ List.replicate (width - bits.length) false := by
  induction bits generalizing width with
  | nil =>
    have zeros : ofNat width 0 = List.replicate width false := by
      clear h
      induction width with
      | zero => rfl
      | succ width ih => rw [ofNat, ih]; rfl
    simpa using zeros
  | cons b rest ih =>
    obtain ⟨width, rfl⟩ : ∃ w, width = w + 1 := ⟨width - 1, by simp at h; omega⟩
    have half : (b.toNat + 2 * value rest) / 2 = value rest := by
      have := b.toNat_lt
      omega
    have bit : ((b.toNat + 2 * value rest) % 2 == 1) = b := by
      rw [Nat.add_mul_mod_self_left]
      cases b <;> rfl
    rw [value_cons, ofNat, half, bit, ih (by simpa using h), List.length_cons,
      Nat.add_sub_add_right, List.cons_append]

/-! ## Bytes -/

@[simp] theorem ofBytes_empty : ofBytes ByteArray.empty = [] := rfl

@[simp] theorem ofBytes_append (a b : Bytes) : ofBytes (a ++ b) = ofBytes a ++ ofBytes b := by
  simp [ofBytes]

theorem ofBytes_push (b : Bytes) (c : UInt8) :
    ofBytes (b.push c) = ofBytes b ++ ofNat 8 c.toNat := by
  simp [ofBytes]

@[simp] theorem length_ofBytes (b : Bytes) : (ofBytes b).length = 8 * b.size := by
  rw [ofBytes, ← Bytes.length_toText]
  induction b.toText with
  | nil => rfl
  | cons c rest ih =>
    rw [List.flatMap_cons, List.length_append, ih, length_ofNat, List.length_cons]
    omega

/-- A byte made of up to eight bits. -/
theorem ofNat_byte (bits : Bits) (h : bits.length ≤ 8) :
    ofNat 8 (UInt8.ofNat (value bits)).toNat = bits ++ List.replicate (8 - bits.length) false := by
  have small : value bits < 256 :=
    Nat.lt_of_lt_of_le (value_lt bits) (Nat.pow_le_pow_right (by omega) h)
  rw [UInt8.toNat_ofNat', Nat.mod_eq_of_lt small, ofNat_value h]

/-- Packing fills the last byte up with zeros. -/
theorem ofBytes_packOnto (packed : Bytes) (bits : Bits) :
    ∃ k < 8, ofBytes (packOnto packed bits) = ofBytes packed ++ bits ++ List.replicate k false := by
  fun_induction packOnto packed bits with
  | case1 packed => exact ⟨0, by omega, by simp⟩
  | case2 packed b0 b1 b2 b3 b4 b5 b6 b7 rest n ih =>
    obtain ⟨k, hk, h⟩ := ih
    have byte : ofNat 8 (UInt8.ofNat n).toNat = [b0, b1, b2, b3, b4, b5, b6, b7] :=
      ofNat_byte [b0, b1, b2, b3, b4, b5, b6, b7] (by simp)
    refine ⟨k, hk, ?_⟩
    rw [h, ofBytes_push, byte]
    simp
  | case3 packed last short long =>
    have length : last.length < 8 := by
      match last, long with
      | [], _ | [_], _ | [_, _], _ | [_, _, _], _ | [_, _, _, _], _ | [_, _, _, _, _], _
      | [_, _, _, _, _, _], _ | [_, _, _, _, _, _, _], _ => simp
      | b0 :: b1 :: b2 :: b3 :: b4 :: b5 :: b6 :: b7 :: rest, long =>
        exact absurd rfl (long b0 b1 b2 b3 b4 b5 b6 b7 rest)
    have some : last ≠ [] := short
    refine ⟨8 - last.length, ?_, ?_⟩
    · have := List.length_pos_iff.2 some
      omega
    · rw [ofBytes_push, ofNat_byte last (by omega), List.append_assoc]

/-- Packed bits are read back, with fewer than eight zeros behind them. -/
theorem ofBytes_pack (bits : Bits) :
    ∃ k < 8, ofBytes (pack bits) = bits ++ List.replicate k false := by
  simpa [pack] using ofBytes_packOnto ByteArray.empty bits

/-! ## Reading -/

/-- Aligning drops what was added in front of whole bytes. -/
theorem align_append {extra rest : Bits} (short : extra.length < 8) (whole : 8 ∣ rest.length) :
    align (extra ++ rest) = rest := by
  obtain ⟨n, hn⟩ := whole
  rw [align, List.length_append, hn, Nat.add_mul_mod_self_left, Nat.mod_eq_of_lt short]
  exact List.drop_left

theorem readBytes_ofBytes (b out : Bytes) (rest : Bits) :
    readBytes b.size (ofBytes b ++ rest) out = some (out ++ b, rest) := by
  have read (t : Text) (out : Bytes) :
      readBytes t.length (t.flatMap (fun c => ofNat 8 c.toNat) ++ rest) out =
        some (out ++ Bytes.ofText t, rest) := by
    induction t generalizing out with
    | nil => simp [readBytes, Bytes.ofText]
    | cons c t ih =>
      rw [List.length_cons, readBytes, List.flatMap_cons, List.append_assoc,
        readNat_ofNat c.toNat_lt]
      simp only [ih, UInt8.ofNat_toNat]
      congr 2
      exact Bytes.ext (by simp)
  have := read b.toText out
  rwa [Bytes.ofText_toText] at this

end ForwardIndex.Zlib.Bits
