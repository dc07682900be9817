import ForwardIndex.Zlib.Bits

/-!
# Prefix codes

A prefix code is a binary tree with a symbol at every leaf; a symbol's code word is the way to its
leaf. `Code.ofLengths` builds the canonical code of given word lengths: shorter words come first,
words of one length in the order of their symbols.
-/
set_option autoImplicit false
namespace ForwardIndex.Zlib

inductive Code where
  /-- No word leads here. -/
  | vacant
  | leaf (symbol : Nat)
  | node (zero one : Code)
  deriving DecidableEq

namespace Code

/-- The symbol whose word starts a bit string, and the bits after it. -/
def decode : Code → Bits → Option (Nat × Bits)
  | leaf symbol, bits => some (symbol, bits)
  | node zero _, false :: rest => zero.decode rest
  | node _ one, true :: rest => one.decode rest
  | _, _ => none

/-- The word of a symbol. -/
def word? (symbol : Nat) : Code → Option Bits
  | vacant => none
  | leaf s => if s = symbol then some [] else none
  | node zero one =>
    match zero.word? symbol with
    | some w => some (false :: w)
    | none => (one.word? symbol).map (true :: ·)

/-- A word that the code has is read back, whatever follows. -/
theorem decode_word {symbol : Nat} {w : Bits} (rest : Bits) {c : Code}
    (h : c.word? symbol = some w) : c.decode (w ++ rest) = some (symbol, rest) := by
  induction c generalizing w with
  | vacant => simp [word?] at h
  | leaf s => simp only [word?] at h; split at h <;> simp_all [decode]
  | node zero one ihZero ihOne =>
    simp only [word?] at h
    split at h
    · next w' hw => cases h; simpa [decode] using ihZero hw
    · obtain ⟨w', hw, rfl⟩ := Option.map_eq_some_iff.1 h
      simpa [decode] using ihOne hw

/-- Takes the symbols with their lengths, shortest first, from left to right into the tree below a
depth; the second part is what found no place. -/
def plant : Nat → Nat → List (Nat × Nat) → Code × List (Nat × Nat)
  | _, _, [] => (vacant, [])
  | 0, depth, (symbol, length) :: pending =>
    if length = depth then (leaf symbol, pending) else (vacant, (symbol, length) :: pending)
  | levels + 1, depth, (symbol, length) :: pending =>
    if length = depth then (leaf symbol, pending)
    else
      let (zero, pending) := plant levels (depth + 1) ((symbol, length) :: pending)
      let (one, pending) := plant levels (depth + 1) pending
      (node zero one, pending)

def maxLength : Nat := 15

/-- The symbols that have a word, shortest first. -/
def byLength (lengths : List Nat) : List (Nat × Nat) :=
  let symbols := lengths.zipIdx.map fun (length, symbol) => (symbol, length)
  (List.range maxLength).flatMap fun n => symbols.filter (·.2 == n + 1)

/-- The canonical code of the lengths of the symbols `0, 1, …`; length zero is no word. -/
def ofLengths (lengths : List Nat) : Code := (plant maxLength 0 (byLength lengths)).1

/-- The part of all words of the greatest length that the words take up. -/
def weight (lengths : List Nat) : Nat :=
  (lengths.map fun n => if n = 0 then 0 else 1 <<< (maxLength - n)).foldl (· + ·) 0

/-- The code of lengths read from a stream. Words must not run over, and may leave room only where
`gaps` allows it and no word is longer than one bit, or where there is no word at all. -/
def ofLengths? (gaps : Bool) (lengths : List Nat) : Option Code :=
  let used := weight lengths
  if 1 <<< maxLength < used then none
  else if used = 1 <<< maxLength ∨ used = 0 ∨ (gaps ∧ lengths.all (· ≤ 1)) then
    some (ofLengths lengths)
  else none

end Code
end ForwardIndex.Zlib
