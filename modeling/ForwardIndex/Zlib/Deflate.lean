import ForwardIndex.Zlib.Alphabet
import ForwardIndex.Zlib.Token

/-!
# Writing deflate streams

Bytes become tokens in one block with the fixed codes, or blocks that store them as they are if that
is shorter. Stored blocks bound the size of what is written.
-/
set_option autoImplicit false
namespace ForwardIndex.Zlib

/-- The bits of a token in the fixed codes. -/
def Token.bits : Token → Bits
  | .literal byte => fixedSymbolWords.getD byte.toNat []
  | .copy length distance =>
    let (symbol, width, more) := locateIn lengthRanges length
    let (far, farWidth, farMore) := locateIn distanceRanges distance
    fixedSymbolWords.getD (firstLength + symbol) [] ++ Bits.ofNat width more ++
      fixedDistanceWords.getD far [] ++ Bits.ofNat farWidth farMore

/-- One last block of tokens in the fixed codes. -/
def tokenBlock (tokens : List Token) : Bytes :=
  Bits.pack ([true] ++ Bits.ofNat 2 1 ++ tokens.flatMap Token.bits ++
    fixedSymbolWords.getD endOfBlock [])

/-- The most bytes in a stored block. -/
def maxStored : Nat := 65535

/-- The low byte first. -/
def littleEndian16 (n : Nat) : List UInt8 := [UInt8.ofNat (n % 256), UInt8.ofNat (n / 256)]

/-- A block that stores bytes: whether it is the last, the length, its complement, the bytes. -/
def storedBlock (last : Bool) (bytes : Bytes) : Bytes :=
  Bytes.ofText ((if last then 1 else 0) :: littleEndian16 bytes.size ++
    littleEndian16 (maxStored - bytes.size)) ++ bytes

/-- Blocks that store the bytes from a position on, behind what was written before. -/
def storeOnto (written data : Bytes) : Nat → Nat → Bytes
  | 0, position => written ++ storedBlock true (data.extract position data.size)
  | blocks + 1, position =>
    storeOnto (written ++ storedBlock false (data.extract position (position + maxStored))) data
      blocks (position + maxStored)

/-- All bytes in stored blocks, every one but the last of them full. -/
def storedBlocks (data : Bytes) : Bytes :=
  storeOnto ByteArray.empty data ((data.size - 1) / maxStored) 0

/-- A deflate stream of bytes, stored or the shorter of the two forms. -/
def deflate (store : Bool) (data : Bytes) : Bytes :=
  let stored := storedBlocks data
  if store then stored
  else
    let packed := tokenBlock (Token.ofBytes data)
    if packed.size < stored.size then packed else stored

end ForwardIndex.Zlib
