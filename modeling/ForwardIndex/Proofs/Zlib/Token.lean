import ForwardIndex.Zlib.Token
import ForwardIndex.Proofs.Bytes

/-!
# What tokens stand for

The tokens of bytes give the bytes back. Nothing is asked of the table of recent positions: a copy
is taken only where the bytes have been compared, whatever position the table proposes.
-/
set_option autoImplicit false
namespace ForwardIndex.Zlib.Token

/-- The tokens that the format has words for. -/
def Encodable : Token → Prop
  | literal _ => True
  | copy length distance =>
    minLength ≤ length ∧ length ≤ maxLength ∧ 1 ≤ distance ∧ distance ≤ maxDistance

/-- What bytes become with tokens after them. -/
def applyAll (out : Bytes) (tokens : List Token) : Option Bytes := tokens.foldlM apply out

theorem applyAll_append (out : Bytes) (tokens more : List Token) :
    applyAll out (tokens ++ more) = (applyAll out tokens).bind (applyAll · more) :=
  List.foldlM_append

/-! ## Copies -/

theorem first_push {data : Bytes} {position : Nat} (h : position < data.size) :
    ByteArray.push (data.first position) (data.byteAt position) = data.first (position + 1) := by
  have h' : position < data.toText.length := h
  apply Bytes.ext
  rw [Bytes.toText_push, Bytes.toText_first, Bytes.toText_first, Bytes.byteAt_eq,
    List.take_add_one, List.getD_eq_getElem?_getD, List.getElem?_eq_getElem h']
  rfl

theorem byteAt_first {data : Bytes} {position i : Nat} (h : i < position) :
    (data.first position).byteAt i = data.byteAt i := by
  rw [Bytes.byteAt_eq, Bytes.byteAt_eq, Bytes.toText_first, List.getD_eq_getElem?_getD,
    List.getElem?_take_of_lt h, List.getD_eq_getElem?_getD]

theorem agreement_le (data : Bytes) (i j limit : Nat) : agreement data i j limit ≤ limit := by
  induction limit generalizing i j with
  | zero => exact Nat.le_refl 0
  | succ limit ih =>
    rw [agreement]
    split
    · exact Nat.succ_le_succ (ih _ _)
    · exact Nat.zero_le _

/-- Bytes that agree with earlier ones can be copied from there, even into themselves. -/
theorem copyBack_first {data : Bytes} {position distance n limit : Nat} (near : 0 < distance)
    (far : distance ≤ position) (within : position + n ≤ data.size)
    (agree : n ≤ agreement data (position - distance) position limit) :
    copyBack (data.first position) distance n = data.first (position + n) := by
  induction n generalizing position limit with
  | zero => rfl
  | succ n ih =>
    match limit with
    | 0 => exact absurd agree (Nat.not_succ_le_zero n)
    | limit + 1 =>
      rw [agreement] at agree
      split at agree
      · next same =>
        have size : (data.first position).size = position := by
          rw [Bytes.size_first]
          omega
        rw [copyBack, size, byteAt_first (by omega), same, first_push (by omega)]
        have later : position - distance + 1 = position + 1 - distance := by omega
        rw [later] at agree
        rw [ih (by omega) (by omega) (Nat.le_of_succ_le_succ agree)]
        congr 1
        omega
      · exact absurd agree (Nat.not_succ_le_zero n)

/-- What can be copied at a position, from a candidate counted from one. -/
theorem copyLength_spec {data : Bytes} {position candidate : Nat} (within : position ≤ data.size)
    (some : minLength ≤ copyLength data position candidate) :
    (copy (copyLength data position candidate) (position + 1 - candidate)).Encodable ∧
      position + copyLength data position candidate ≤ data.size ∧
      apply (data.first position) (copy (copyLength data position candidate)
        (position + 1 - candidate)) =
          .some (data.first (position + copyLength data position candidate)) := by
  unfold copyLength at some ⊢
  split
  · next none =>
    rw [if_pos none] at some
    cases some
  · next candidates =>
    rw [if_neg candidates] at some
    obtain ⟨one, earlier, near⟩ : candidate ≠ 0 ∧ candidate ≤ position ∧
        position + 1 - candidate ≤ maxDistance := by omega
    have bound := agreement_le data (candidate - 1) position (min maxLength (data.size - position))
    have size : (data.first position).size = position := by
      rw [Bytes.size_first]
      omega
    have source : position - (position + 1 - candidate) = candidate - 1 := by omega
    refine ⟨⟨some, by omega, by omega, near⟩, by omega, ?_⟩
    rw [apply, if_neg (by omega)]
    congr 1
    exact copyBack_first (by omega) (by omega) (by omega) (Nat.le_of_eq (by rw [source]))

/-! ## Scanning -/

/-- Tokens found so far give the bytes up to a position, and no more. -/
structure Scanned (data : Bytes) (position : Nat) (found : Array Token) : Prop where
  within : position ≤ data.size
  encodable : ∀ token ∈ found.toList, token.Encodable
  applied : applyAll ByteArray.empty found.toList = some (data.first position)

theorem Scanned.push {data : Bytes} {position next : Nat} {found : Array Token} {token : Token}
    (h : Scanned data position found) (within : next ≤ data.size) (encodable : token.Encodable)
    (step : token.apply (data.first position) = some (data.first next)) :
    Scanned data next (found.push token) where
  within := within
  encodable t ht := by
    rw [Array.toList_push, List.mem_append, List.mem_singleton] at ht
    obtain old | rfl := ht
    · exact h.encodable t old
    · exact encodable
  applied := by
    rw [Array.toList_push, applyAll_append, h.applied]
    simp [applyAll, step]

/-- Every step keeps the tokens right and moves on; by induction on the steps left. -/
theorem scan_scanned {data : Bytes} {steps position : Nat} (recent : Array Nat)
    {found : Array Token} (h : Scanned data position found)
    (enough : data.size ≤ position + steps) :
    Scanned data data.size (scan data steps position recent found) := by
  induction steps generalizing position recent found with
  | zero =>
    obtain rfl : position = data.size := Nat.le_antisymm h.within enough
    exact h
  | succ steps ih =>
    rw [scan]
    split
    · next left =>
      dsimp only
      split
      · next long =>
        obtain ⟨encodable, within, step⟩ := copyLength_spec h.within long
        have least : 0 < minLength := by decide
        exact ih _ (h.push within encodable step) (by omega)
      · exact ih _ (h.push left trivial (congrArg some (first_push left))) (by omega)
    · next done =>
      obtain rfl : position = data.size := Nat.le_antisymm h.within (Nat.le_of_not_lt done)
      exact h

/-- The tokens of bytes can be written, and give the bytes. -/
theorem ofBytes_spec (data : Bytes) :
    (∀ token ∈ ofBytes data, token.Encodable) ∧
      applyAll ByteArray.empty (ofBytes data) = some data := by
  have start : Scanned data 0 #[] := by
    refine ⟨Nat.zero_le _, by simp, ?_⟩
    rw [show data.first 0 = ByteArray.empty from Bytes.ext (by simp)]
    rfl
  obtain ⟨_, encodable, applied⟩ :=
    scan_scanned (Array.replicate keys 0) start (Nat.le_of_eq (Nat.zero_add _).symm)
  rw [Bytes.first_size] at applied
  exact ⟨encodable, applied⟩

end ForwardIndex.Zlib.Token
