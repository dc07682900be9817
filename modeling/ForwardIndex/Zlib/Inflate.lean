import ForwardIndex.Zlib.Alphabet
import ForwardIndex.Zlib.Token

/-!
# Reading deflate streams

A stream is a run of blocks up to one marked as the last. A block stores bytes, or holds tokens in
the fixed codes or in codes that it brings along. Reading answers `none` for a stream that breaks
the format. The bounds on the number of steps are the number of bits, as every step takes one at
least.
-/
set_option autoImplicit false
namespace ForwardIndex.Zlib

/-- A value told by a range symbol and the bits after it. -/
def readRange (ranges : List (Nat × Nat)) (index : Nat) (bits : Bits) : Option (Nat × Bits) := do
  let (least, width) ← ranges[index]?
  let (more, rest) ← bits.readNat width
  return (least + more, rest)

/-- The token that a symbol starts, with the bits after it; none is the end of the block. -/
def readToken (distances : Code) (symbol : Nat) (bits : Bits) : Option (Option Token × Bits) :=
  if symbol < endOfBlock then some (some (.literal (UInt8.ofNat symbol)), bits)
  else if symbol = endOfBlock then some (none, bits)
  else do
    let (length, bits) ← readRange lengthRanges (symbol - firstLength) bits
    let (far, bits) ← distances.decode bits
    let (distance, bits) ← readRange distanceRanges far bits
    return (some (.copy length distance), bits)

/-- The tokens of a block up to its end, behind the bytes read before. -/
def readTokens (symbols distances : Code) : Nat → Bits → Bytes → Option (Bytes × Bits)
  | 0, _, _ => none
  | steps + 1, bits, out =>
    match symbols.decode bits with
    | none => none
    | some (symbol, bits) =>
      match readToken distances symbol bits with
      | none => none
      | some (none, bits) => some (out, bits)
      | some (some token, bits) =>
        match token.apply out with
        | none => none
        | some out => readTokens symbols distances steps bits out

/-- A number of whole bytes. -/
def readBytes : Nat → Bits → Bytes → Option (Bytes × Bits)
  | 0, bits, out => some (out, bits)
  | count + 1, bits, out =>
    match bits.readNat 8 with
    | none => none
    | some (byte, bits) => readBytes count bits (out.push (UInt8.ofNat byte))

/-- A stored block after its type: it starts at a byte boundary with a length and its complement. -/
def readStored (bits : Bits) (out : Bytes) : Option (Bytes × Bits) := do
  let (length, bits) ← bits.align.readNat 16
  let (complement, bits) ← bits.readNat 16
  if length + complement = 65535 then readBytes length bits out else none

/-- The order in which the lengths of the code for lengths are given. -/
def lengthOrder : List Nat := [16, 17, 18, 0, 8, 7, 9, 6, 10, 5, 11, 4, 12, 3, 13, 2, 14, 1, 15]

/-- The number of symbols of the code for lengths. -/
def lengthSymbols : Nat := 19

/-- Three bits for every symbol in an order, put into the lengths found so far. -/
def readOrdered : List Nat → Bits → Array Nat → Option (Array Nat × Bits)
  | [], bits, lengths => some (lengths, bits)
  | symbol :: order, bits, lengths =>
    match bits.readNat 3 with
    | none => none
    | some (n, bits) => readOrdered order bits (lengths.setIfInBounds symbol n)

/-- A run of lengths: the length that it repeats, how often. -/
def readRun (symbol : Nat) (before : Option Nat) (bits : Bits) : Option (Nat × Nat × Bits) := do
  match symbol with
  | 16 =>
    let length ← before
    let (n, bits) ← bits.readNat 2
    return (length, 3 + n, bits)
  | 17 =>
    let (n, bits) ← bits.readNat 3
    return (0, 3 + n, bits)
  | 18 =>
    let (n, bits) ← bits.readNat 7
    return (0, 11 + n, bits)
  | _ => return (symbol, 1, bits)

/-- Lengths written in the code for lengths, exactly so many of them. -/
def readLengths (code : Code) (count : Nat) : Nat → Bits → Array Nat → Option (List Nat × Bits)
  | 0, _, _ => none
  | steps + 1, bits, found =>
    if count ≤ found.size then
      if found.size = count then some (found.toList, bits) else none
    else
      match code.decode bits with
      | none => none
      | some (symbol, bits) =>
        match readRun symbol found.back? bits with
        | none => none
        | some (length, times, bits) =>
          readLengths code count steps bits (found ++ Array.replicate times length)

/-- The two codes that a block brings along. -/
def readCodes (bits : Bits) : Option (Code × Code × Bits) := do
  let (symbols, bits) ← bits.readNat 5
  let (distances, bits) ← bits.readNat 5
  let (ordered, bits) ← bits.readNat 4
  if 29 < symbols ∨ 29 < distances then none
  else
    let (lengths, bits) ← readOrdered (lengthOrder.take (ordered + 4)) bits
      (Array.replicate lengthSymbols 0)
    let code ← Code.ofLengths? false lengths.toList
    let (all, bits) ← readLengths code (symbols + firstLength + distances + 1) (bits.length + 1)
      bits #[]
    let symbolLengths := all.take (symbols + firstLength)
    if symbolLengths.getD endOfBlock 0 = 0 then none
    else
      let symbolCode ← Code.ofLengths? true symbolLengths
      let distanceCode ← Code.ofLengths? true (all.drop (symbols + firstLength))
      return (symbolCode, distanceCode, bits)

/-- A block's contents, told by its type. -/
def readBlock (type : Nat) (bits : Bits) (out : Bytes) : Option (Bytes × Bits) :=
  match type with
  | 0 => readStored bits out
  | 1 => readTokens fixedSymbols fixedDistances (bits.length + 1) bits out
  | 2 =>
    match readCodes bits with
    | none => none
    | some (symbols, distances, bits) =>
      readTokens symbols distances (bits.length + 1) bits out
  | _ => none

/-- The blocks up to the last one. -/
def readBlocks : Nat → Bits → Bytes → Option (Bytes × Bits)
  | 0, _, _ => none
  | steps + 1, bits, out =>
    match bits.readNat 1 with
    | none => none
    | some (last, bits) =>
      match bits.readNat 2 with
      | none => none
      | some (type, bits) =>
        match readBlock type bits out with
        | none => none
        | some (out, bits) => if last = 1 then some (out, bits) else readBlocks steps bits out

/-- The bytes of a deflate stream and the bits after it. -/
def inflate (bits : Bits) : Option (Bytes × Bits) :=
  readBlocks (bits.length + 1) bits ByteArray.empty

end ForwardIndex.Zlib
