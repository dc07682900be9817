import ForwardIndex.Zlib.Deflate
import ForwardIndex.Proofs.Zlib.Bits
import ForwardIndex.Proofs.Zlib.Token

/-!
# Tokens in the fixed codes

Every symbol of the fixed codes has a word that is read back, and the ranges of lengths and
distances leave no gap: a value is told by its range and the bits after it. So the bits of tokens
are read as the tokens.
-/
set_option autoImplicit false
namespace ForwardIndex.Zlib

/-! ## Words -/

/-- A symbol has a word in a code, and not the empty one. -/
def Code.hasWord (c : Code) (symbol : Nat) : Bool :=
  match c.word? symbol with
  | some (_ :: _) => true
  | _ => false

theorem getD_wordTable {c : Code} {bound symbol : Nat} (h : symbol < bound)
    (word : c.hasWord symbol) :
    c.word? symbol = some ((wordTable c bound).getD symbol []) ∧
      (wordTable c bound).getD symbol [] ≠ [] := by
  unfold Code.hasWord at word
  have entry : (wordTable c bound).getD symbol [] = (c.word? symbol).getD [] := by
    rw [wordTable, Array.getD_eq_getD_getElem?, List.getElem?_toArray, List.getElem?_map,
      List.getElem?_range h]
    rfl
  rw [entry]
  split at word
  · next w => simp [w]
  · cases word

theorem fixedSymbols_hasWord : ∀ symbol < 288, fixedSymbols.hasWord symbol := by
  decide +kernel

theorem fixedDistances_hasWord : ∀ symbol < 32, fixedDistances.hasWord symbol := by
  decide +kernel

theorem fixedSymbolWord {symbol : Nat} (h : symbol < 288) :
    fixedSymbols.word? symbol = some (fixedSymbolWords.getD symbol []) ∧
      fixedSymbolWords.getD symbol [] ≠ [] :=
  getD_wordTable h (fixedSymbols_hasWord symbol h)

/-- A symbol of the fixed code is read back. -/
theorem decode_fixedSymbol {symbol : Nat} (h : symbol < 288) (rest : Bits) :
    fixedSymbols.decode (fixedSymbolWords.getD symbol [] ++ rest) = some (symbol, rest) :=
  Code.decode_word rest (fixedSymbolWord h).1

theorem decode_fixedDistance {symbol : Nat} (h : symbol < 32) (rest : Bits) :
    fixedDistances.decode (fixedDistanceWords.getD symbol [] ++ rest) = some (symbol, rest) :=
  Code.decode_word rest (getD_wordTable h (fixedDistances_hasWord symbol h)).1

/-! ## Ranges -/

/-- Ranges that leave no gap from the least value of the first up to a limit. -/
def Covers (limit : Nat) : List (Nat × Nat) → Prop
  | [] => False
  | [(least, width)] => limit < least + 2 ^ width
  | (least, width) :: (next, more) :: rest =>
    next ≤ least + 2 ^ width ∧ Covers limit ((next, more) :: rest)

theorem locateIn_first {least width value : Nat} {rest : List (Nat × Nat)} (start : least ≤ value)
    (alone : rest.takeWhile (·.1 ≤ value) = []) :
    locateIn ((least, width) :: rest) value = (0, width, value - least) := by
  unfold locateIn
  rw [List.takeWhile_cons_of_pos (by simpa using start), alone]
  rfl

theorem locateIn_later {least width next more value : Nat} {rest : List (Nat × Nat)}
    (start : least ≤ value) (reached : next ≤ value) :
    locateIn ((least, width) :: (next, more) :: rest) value =
      ((locateIn ((next, more) :: rest) value).1 + 1,
        (locateIn ((next, more) :: rest) value).2) := by
  unfold locateIn
  rw [List.takeWhile_cons_of_pos (by simpa using start),
    List.takeWhile_cons_of_pos (by simpa using reached)]
  simp

/-- The range that is found for a value holds it. -/
theorem locateIn_spec {limit value least width : Nat} (le : value ≤ limit)
    {rest : List (Nat × Nat)} (start : least ≤ value)
    (covers : Covers limit ((least, width) :: rest)) :
    ∃ i least' width' more, locateIn ((least, width) :: rest) value = (i, width', more) ∧
      ((least, width) :: rest)[i]? = some (least', width') ∧ more < 2 ^ width' ∧
      least' + more = value := by
  -- the range before the first that starts above the value
  induction rest generalizing least width with
  | nil =>
    simp only [Covers] at covers
    exact ⟨0, least, width, value - least, locateIn_first start rfl, rfl, by omega, by omega⟩
  | cons second rest ih =>
    obtain ⟨next, more⟩ := second
    obtain ⟨gap, covers⟩ := covers
    by_cases reached : next ≤ value
    · obtain ⟨i, least', width', more', found, entry, small, sum⟩ := ih reached covers
      rw [locateIn_later start reached, found]
      exact ⟨i + 1, least', width', more', rfl, entry, small, sum⟩
    · have alone : ((next, more) :: rest).takeWhile (·.1 ≤ value) = [] :=
        List.takeWhile_cons_of_neg (by simpa using reached)
      exact ⟨0, least, width, value - least, locateIn_first start alone, rfl, by omega, by omega⟩

/-- A value told by its range is read back. -/
theorem readRange_locateIn {ranges : List (Nat × Nat)} {limit value i width more : Nat}
    (found : locateIn ranges value = (i, width, more)) (le : value ≤ limit)
    (start : ∀ first ∈ ranges.head?, first.1 ≤ value) (covers : Covers limit ranges) (rest : Bits) :
    readRange ranges i (Bits.ofNat width more ++ rest) = some (value, rest) ∧
      i < ranges.length := by
  match ranges with
  | [] => exact covers.elim
  | (least, first) :: ranges =>
    obtain ⟨j, least', width', more', found', entry, small, sum⟩ :=
      locateIn_spec le (start _ rfl) covers
    rw [found] at found'
    obtain ⟨rfl, rfl, rfl⟩ : i = j ∧ width = width' ∧ more = more' := by simpa using found'
    refine ⟨?_, (List.getElem?_eq_some_iff.1 entry).1⟩
    simp [readRange, entry, Bits.readNat_ofNat small, sum]

theorem covers_lengthRanges : Covers Token.maxLength lengthRanges := by
  simp [lengthRanges, Covers, Token.maxLength]

theorem covers_distanceRanges : Covers Token.maxDistance distanceRanges := by
  simp [distanceRanges, Covers, Token.maxDistance]

/-! ## Tokens -/

theorem Token.bits_ne_nil (token : Token) (h : token.Encodable) : token.bits ≠ [] := by
  cases token with
  | literal byte =>
    have small : byte.toNat < 288 := Nat.lt_trans byte.toNat_lt (by omega)
    exact (fixedSymbolWord small).2
  | copy length distance =>
    obtain ⟨least, most, _, _⟩ := h
    rcases found : locateIn lengthRanges length with ⟨i, width, more⟩
    obtain ⟨_, within⟩ := readRange_locateIn found most
      (by simpa [lengthRanges, minLength] using least) covers_lengthRanges []
    have small : firstLength + i < 288 := by
      simp only [lengthRanges, List.length_cons, List.length_nil] at within
      unfold firstLength
      omega
    have word := (fixedSymbolWord small).2
    simp only [bits, found]
    generalize fixedSymbolWords.getD (firstLength + i) [] = w at word ⊢
    simp [word]

/-- The word of a token's symbol is followed by what tells the token. -/
theorem Token.read_bits {token : Token} (h : token.Encodable) (rest : Bits) :
    ∃ symbol behind, fixedSymbols.decode (token.bits ++ rest) = some (symbol, behind) ∧
      readToken fixedDistances symbol behind = some (some token, rest) := by
  cases token with
  | literal byte =>
    have small : byte.toNat < 256 := byte.toNat_lt
    refine ⟨byte.toNat, rest, decode_fixedSymbol (Nat.lt_trans small (by omega)) rest, ?_⟩
    rw [readToken, endOfBlock, if_pos small, UInt8.ofNat_toNat]
  | copy length distance =>
    obtain ⟨least, most, near, far⟩ := h
    rcases hl : locateIn lengthRanges length with ⟨i, width, more⟩
    rcases hd : locateIn distanceRanges distance with ⟨j, farWidth, farMore⟩
    have readLength := readRange_locateIn hl most
      (by simpa [lengthRanges, minLength] using least) covers_lengthRanges
    have readDistance := readRange_locateIn hd far (by simpa [distanceRanges] using near)
      covers_distanceRanges
    have lengthSymbol : i < 29 := (readLength []).2
    have distanceSymbol : j < 30 := (readDistance []).2
    simp only [bits, hl, hd, List.append_assoc]
    refine ⟨firstLength + i, _, decode_fixedSymbol (by unfold firstLength; omega) _, ?_⟩
    have notByte : ¬ firstLength + i < endOfBlock := by unfold firstLength endOfBlock; omega
    have notEnd : firstLength + i ≠ endOfBlock := by unfold firstLength endOfBlock; omega
    rw [readToken, if_neg notByte, if_neg notEnd, Nat.add_sub_cancel_left, (readLength _).1]
    simp only [Option.bind_eq_bind, Option.bind_some]
    rw [decode_fixedDistance (by omega)]
    simp only [Option.bind_some, (readDistance _).1]
    rfl

/-- The bits of tokens and the end of the block are read as what the tokens give. -/
theorem readTokens_bits {tokens : List Token} (encodable : ∀ token ∈ tokens, token.Encodable)
    {out out' : Bytes} (applied : Token.applyAll out tokens = some out') {steps : Nat}
    (enough : tokens.length < steps) (rest : Bits) :
    readTokens fixedSymbols fixedDistances steps
      (tokens.flatMap Token.bits ++ (fixedSymbolWords.getD endOfBlock [] ++ rest)) out =
        some (out', rest) := by
  obtain ⟨steps, rfl⟩ : ∃ n, steps = n + 1 := ⟨steps - 1, by omega⟩
  induction tokens generalizing out steps with
  | nil =>
    obtain rfl : out = out' := Option.some.inj applied
    have last : fixedSymbols.decode (fixedSymbolWords.getD endOfBlock [] ++ rest) =
        some (endOfBlock, rest) := decode_fixedSymbol (by decide) rest
    have finish : readToken fixedDistances endOfBlock rest = some (none, rest) := by
      rw [readToken, if_neg (Nat.lt_irrefl _), if_pos rfl]
    rw [List.flatMap_nil, List.nil_append, readTokens, last]
    simp only [finish]
  | cons token tokens ih =>
    obtain ⟨next, step, applied⟩ := Option.bind_eq_some_iff.1 applied
    obtain ⟨steps, rfl⟩ : ∃ n, steps = n + 1 := ⟨steps - 1, by simp at enough; omega⟩
    rw [List.flatMap_cons, List.append_assoc, readTokens]
    obtain ⟨symbol, behind, word, token⟩ := Token.read_bits (encodable token List.mem_cons_self)
      (tokens.flatMap Token.bits ++ (fixedSymbolWords.getD endOfBlock [] ++ rest))
    simp only [word, token, step]
    exact ih (fun t ht => encodable t (List.mem_cons_of_mem _ ht)) applied steps
      (by simpa using enough)

end ForwardIndex.Zlib
