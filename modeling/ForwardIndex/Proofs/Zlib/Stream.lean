import ForwardIndex.Zlib.Stream
import ForwardIndex.Proofs.Zlib.Alphabet

/-!
# Streams are read back

What the compressor writes, in stored blocks or as tokens, is read back as the bytes it was given,
with the checksum that the reader asks for. A stream is never much longer than what it is made of,
since stored blocks are taken where they are shorter.
-/
set_option autoImplicit false
namespace ForwardIndex.Zlib

/-! ## Stored blocks -/

theorem ofBytes_littleEndian16 {n : Nat} (h : n < 2 ^ 16) :
    Bits.ofBytes (Bytes.ofText (littleEndian16 n)) = Bits.ofNat 16 n := by
  have high : n / 256 % 256 = n / 2 ^ 8 := by omega
  rw [Bits.ofNat_add 8 8, ← Bits.ofNat_mod 8 n]
  simp [Bits.ofBytes, littleEndian16, high]

/-- A stored block as bits: whether it is the last, its type, zeros up to the next byte, the length
and its complement, and the bytes. -/
theorem ofBytes_storedBlock {last : Bool} {bytes : Bytes} (h : bytes.size ≤ maxStored) :
    Bits.ofBytes (storedBlock last bytes) =
      Bits.ofNat 1 last.toNat ++ (Bits.ofNat 2 0 ++ (List.replicate 5 false ++
        (Bits.ofNat 16 bytes.size ++ (Bits.ofNat 16 (maxStored - bytes.size) ++
          Bits.ofBytes bytes)))) := by
  have limit : maxStored < 2 ^ 16 := by decide
  have front : Bits.ofBytes (Bytes.ofText [if last then 1 else 0]) =
      Bits.ofNat 1 last.toNat ++ (Bits.ofNat 2 0 ++ List.replicate 5 false) := by
    cases last <;> rfl
  rw [storedBlock, List.cons_append, ← List.singleton_append, Bytes.ofText_append,
    Bytes.ofText_append]
  simp only [Bits.ofBytes_append, front, List.append_assoc]
  rw [ofBytes_littleEndian16 (Nat.lt_of_le_of_lt h limit),
    ofBytes_littleEndian16 (Nat.lt_of_le_of_lt (Nat.sub_le _ _) limit)]

theorem size_storedBlock (last : Bool) (bytes : Bytes) :
    (storedBlock last bytes).size = 5 + bytes.size := by
  rw [storedBlock, ByteArray.size_append, Bytes.size_ofText]
  rfl

/-- A stored block is read as its bytes. -/
theorem readBlocks_storedBlock {last : Bool} {bytes : Bytes} (h : bytes.size ≤ maxStored)
    {rest : Bits} (whole : 8 ∣ rest.length) (steps : Nat) (out : Bytes) :
    readBlocks (steps + 1) (Bits.ofBytes (storedBlock last bytes) ++ rest) out =
      if last then some (out ++ bytes, rest) else readBlocks steps rest (out ++ bytes) := by
  have limit : maxStored < 2 ^ 16 := by decide
  have behind : 8 ∣ (Bits.ofNat 16 bytes.size ++ (Bits.ofNat 16 (maxStored - bytes.size) ++
      (Bits.ofBytes bytes ++ rest))).length := by
    simp only [List.length_append, Bits.length_ofNat, Bits.length_ofBytes]
    omega
  have stored : readStored (List.replicate 5 false ++ (Bits.ofNat 16 bytes.size ++
      (Bits.ofNat 16 (maxStored - bytes.size) ++ (Bits.ofBytes bytes ++ rest)))) out =
        some (out ++ bytes, rest) := by
    rw [readStored, Bits.align_append (by simp) behind]
    simp only [Option.bind_eq_bind]
    rw [Bits.readNat_ofNat (Nat.lt_of_le_of_lt h limit), Option.bind_some,
      Bits.readNat_ofNat (Nat.lt_of_le_of_lt (Nat.sub_le _ _) limit), Option.bind_some]
    have complement : bytes.size + (maxStored - bytes.size) = 65535 := Nat.add_sub_cancel' h
    dsimp only
    rw [if_pos complement, Bits.readBytes_ofBytes]
  rw [ofBytes_storedBlock h, readBlocks]
  simp only [List.append_assoc]
  rw [Bits.readNat_ofNat (Nat.lt_succ_iff.2 last.toNat_le)]
  dsimp only
  rw [Bits.readNat_ofNat (by decide)]
  simp only [readBlock, stored]
  cases last <;> rfl

/-- What was written before stays in front of stored blocks. -/
theorem storeOnto_eq (written data : Bytes) (blocks position : Nat) :
    storeOnto written data blocks position =
      written ++ storeOnto ByteArray.empty data blocks position := by
  induction blocks generalizing written position with
  | zero => simp [storeOnto]
  | succ blocks ih =>
    rw [storeOnto, ih, storeOnto, ih (ByteArray.empty ++ _), ByteArray.empty_append,
      ByteArray.append_assoc]

theorem size_storeOnto {data : Bytes} {blocks position : Nat}
    (h : position + blocks * maxStored ≤ data.size) :
    (storeOnto ByteArray.empty data blocks position).size =
      data.size - position + 5 * (blocks + 1) := by
  induction blocks generalizing position with
  | zero =>
    rw [storeOnto, ByteArray.empty_append, size_storedBlock, ByteArray.size_extract]
    omega
  | succ blocks ih =>
    rw [Nat.succ_mul] at h
    rw [storeOnto, storeOnto_eq, ByteArray.size_append, ih (by omega), ByteArray.empty_append,
      size_storedBlock, ByteArray.size_extract]
    omega

/-- Stored blocks are read as the bytes from their position on. -/
theorem readBlocks_storeOnto {data : Bytes} {blocks position steps : Nat}
    (full : position + blocks * maxStored ≤ data.size)
    (last : data.size ≤ position + (blocks + 1) * maxStored) (enough : blocks < steps)
    {rest : Bits} (whole : 8 ∣ rest.length) (out : Bytes) :
    readBlocks steps (Bits.ofBytes (storeOnto ByteArray.empty data blocks position) ++ rest) out =
      some (out ++ data.extract position data.size, rest) := by
  obtain ⟨steps, rfl⟩ : ∃ n, steps = n + 1 := ⟨steps - 1, by omega⟩
  induction blocks generalizing position steps out with
  | zero =>
    rw [storeOnto, ByteArray.empty_append,
      readBlocks_storedBlock (by rw [ByteArray.size_extract]; omega) whole, if_pos rfl]
  | succ blocks ih =>
    obtain ⟨steps, rfl⟩ : ∃ n, steps = n + 1 := ⟨steps - 1, by omega⟩
    rw [Nat.succ_mul] at full last
    have later : 8 ∣ (Bits.ofBytes (storeOnto ByteArray.empty data blocks
        (position + maxStored)) ++ rest).length := by
      rw [List.length_append, Bits.length_ofBytes]
      omega
    have block : (data.extract position (position + maxStored)).size ≤ maxStored := by
      rw [ByteArray.size_extract]
      omega
    rw [storeOnto, storeOnto_eq, ByteArray.empty_append, Bits.ofBytes_append, List.append_assoc,
      readBlocks_storedBlock block later, if_neg Bool.false_ne_true,
      ih (by omega) (by omega) _ _ (by omega)]
    congr 2
    apply Bytes.ext
    simp only [Bytes.toText_append, Bytes.toText_extract, List.append_assoc]
    congr 1
    have all (n : Nat) : (data.toText.drop n).take (data.size - n) = data.toText.drop n :=
      List.take_of_length_le (by rw [List.length_drop, Bytes.length_toText])
    rw [all, all, Nat.add_sub_cancel_left, ← List.drop_drop, List.take_append_drop]

theorem size_storedBlocks (data : Bytes) :
    (storedBlocks data).size = data.size + 5 * ((data.size - 1) / maxStored + 1) := by
  have blocks := Nat.div_mul_le_self (data.size - 1) maxStored
  rw [storedBlocks, size_storeOnto (by omega), Nat.sub_zero]

/-- Stored blocks are read as the bytes they store. -/
theorem inflate_storedBlocks (data : Bytes) {rest : Bits} (whole : 8 ∣ rest.length) :
    inflate (Bits.ofBytes (storedBlocks data) ++ rest) = some (data, rest) := by
  have blocks := Nat.div_mul_le_self (data.size - 1) maxStored
  have last := Nat.lt_div_mul_add (a := data.size - 1) (show 0 < maxStored by decide)
  have size := size_storedBlocks data
  rw [inflate]
  generalize hn : (Bits.ofBytes (storedBlocks data) ++ rest).length + 1 = steps
  rw [storedBlocks, readBlocks_storeOnto (by omega) (by rw [Nat.succ_mul]; omega) _ whole,
    ByteArray.empty_append, ByteArray.extract_zero_size]
  rw [← hn, List.length_append, Bits.length_ofBytes, size]
  omega

/-! ## Deflate streams -/

theorem length_le_bits {tokens : List Token} (encodable : ∀ token ∈ tokens, token.Encodable) :
    tokens.length ≤ (tokens.flatMap Token.bits).length := by
  induction tokens with
  | nil => exact Nat.le_refl 0
  | cons token tokens ih =>
    have some := List.length_pos_iff.2 (token.bits_ne_nil (encodable _ List.mem_cons_self))
    have ih := ih fun t ht => encodable t (List.mem_cons_of_mem _ ht)
    rw [List.flatMap_cons, List.length_append, List.length_cons]
    omega

/-- A deflate stream is read back; fewer than eight bits of its last byte are left. -/
theorem inflate_deflate (store : Bool) (data : Bytes) {rest : Bits} (whole : 8 ∣ rest.length) :
    ∃ extra : Bits, extra.length < 8 ∧
      inflate (Bits.ofBytes (deflate store data) ++ rest) = some (data, extra ++ rest) := by
  have packed : ∃ extra : Bits, extra.length < 8 ∧
      inflate (Bits.ofBytes (tokenBlock (Token.ofBytes data)) ++ rest) =
        some (data, extra ++ rest) := by
    obtain ⟨encodable, applied⟩ := Token.ofBytes_spec data
    have length := length_le_bits encodable
    obtain ⟨k, hk, bits⟩ := Bits.ofBytes_pack ([true] ++ Bits.ofNat 2 1 ++
      (Token.ofBytes data).flatMap Token.bits ++ fixedSymbolWords.getD endOfBlock [])
    refine ⟨List.replicate k false, by simpa using hk, ?_⟩
    rw [tokenBlock, bits, inflate, readBlocks]
    simp only [List.append_assoc]
    rw [show [true] = Bits.ofNat 1 1 from rfl, Bits.readNat_ofNat (by decide)]
    dsimp only
    rw [Bits.readNat_ofNat (by decide)]
    simp only [readBlock]
    rw [readTokens_bits encodable applied (by simp only [List.length_append]; omega)]
    rfl
  unfold deflate
  dsimp only
  split
  · exact ⟨[], by simp, inflate_storedBlocks data whole⟩
  · split
    · exact packed
    · exact ⟨[], by simp, inflate_storedBlocks data whole⟩

theorem size_deflate (store : Bool) (data : Bytes) :
    (deflate store data).size ≤ data.size + 5 * ((data.size - 1) / maxStored + 1) := by
  have stored := size_storedBlocks data
  unfold deflate
  dsimp only
  split
  · omega
  · split
    · omega
    · omega

/-! ## Zlib streams -/

theorem adler32_lt (data : Bytes) : adler32 data < 2 ^ 32 := by
  have sums (t : Text) (a b : Nat) (ha : a < adlerBase) (hb : b < adlerBase) :
      (t.foldl adlerStep (a, b)).1 < adlerBase ∧ (t.foldl adlerStep (a, b)).2 < adlerBase := by
    have base : 0 < adlerBase := by decide
    induction t generalizing a b with
    | nil => exact ⟨ha, hb⟩
    | cons c t ih => exact ih _ _ (Nat.mod_lt _ base) (Nat.mod_lt _ base)
  obtain ⟨ha, hb⟩ := sums data.toText 1 0 (by decide) (by decide)
  unfold adlerBase at ha hb
  unfold adler32
  dsimp only
  omega

/-- A zlib stream gives the bytes it was made of. -/
theorem decompress_compress (store : Bool) (data : Bytes) :
    decompress (compress store data) = some data := by
  generalize hs : Bytes.ofText (Bytes.word32 (UInt32.ofNat (adler32 data))) = sum
  have sumSize : sum.size = 4 := by rw [← hs, Bytes.size_ofText, Bytes.length_word32]
  have view : (compress store data).toText =
      [0x78, 0x9c] ++ ((deflate store data).toText ++ sum.toText) := by
    simp [compress, streamHeader, hs]
  have size : ¬ (compress store data).size < 2 := by
    rw [← Bytes.length_toText, view]
    simp
  have method : (compress store data).byteAt 0 = 0x78 := by
    rw [Bytes.byteAt_eq, view]
    rfl
  have flags : (compress store data).byteAt 1 = 0x9c := by
    rw [Bytes.byteAt_eq, view]
    rfl
  have header : isStreamHeader (0x78 : UInt8).toNat (0x9c : UInt8).toNat := by decide
  have body : (compress store data).rest 2 = deflate store data ++ sum :=
    Bytes.ext (by rw [Bytes.toText_rest, view, Bytes.toText_append]; rfl)
  have whole : 8 ∣ (Bits.ofBytes sum).length := by
    rw [Bits.length_ofBytes]
    omega
  obtain ⟨extra, short, inflated⟩ := inflate_deflate store data whole
  have checksum : Bytes.bigEndian sum.toText = adler32 data := by
    rw [← hs, Bytes.toText_ofText, Bytes.bigEndian_word32, UInt32.toNat_ofNat',
      Nat.mod_eq_of_lt (adler32_lt data)]
  have readSum : readBytes 4 (Bits.ofBytes sum) ByteArray.empty = some (sum, []) := by
    have := Bits.readBytes_ofBytes sum ByteArray.empty []
    rwa [sumSize, List.append_nil, ByteArray.empty_append] at this
  rw [decompress, if_neg size, method, flags, header, body, Bits.ofBytes_append, inflated]
  simp only [Bool.not_true, Bool.false_eq_true, if_false, Bits.align_append short whole, readSum,
    checksum, if_true]

theorem size_compress (store : Bool) (data : Bytes) :
    (compress store data).size = (deflate store data).size + 6 := by
  rw [compress, ByteArray.size_append, ByteArray.size_append, Bytes.size_ofText,
    Bytes.size_ofText, Bytes.length_word32]
  simp only [streamHeader, List.length_cons, List.length_nil]
  omega

end ForwardIndex.Zlib
