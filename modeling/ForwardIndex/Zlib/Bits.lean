import ForwardIndex.Bytes

/-!
# Bit strings

A compressed stream is a string of bits, the low bit of each byte first. Numbers in it have a known
width and their low bit first.
-/
set_option autoImplicit false
namespace ForwardIndex.Zlib

abbrev Bits := List Bool

namespace Bits

/-- The low bits of a number, the lowest first. -/
def ofNat : Nat → Nat → Bits
  | 0, _ => []
  | width + 1, n => (n % 2 == 1) :: ofNat width (n / 2)

/-- The number in the first bits, and the bits after it. -/
def readNat : Nat → Bits → Option (Nat × Bits)
  | 0, bits => some (0, bits)
  | _ + 1, [] => none
  | width + 1, b :: rest =>
    match readNat width rest with
    | none => none
    | some (n, rest') => some (b.toNat + 2 * n, rest')

def ofBytes (b : Bytes) : Bits := b.toText.flatMap fun c => ofNat 8 c.toNat

/-- Packs bits into bytes, behind those packed before; the last byte is filled up with zeros. -/
def packOnto (packed : Bytes) : Bits → Bytes
  | [] => packed
  | b0 :: b1 :: b2 :: b3 :: b4 :: b5 :: b6 :: b7 :: rest =>
    let n := b0.toNat + 2 * (b1.toNat + 2 * (b2.toNat + 2 * (b3.toNat + 2 * (b4.toNat +
      2 * (b5.toNat + 2 * (b6.toNat + 2 * b7.toNat))))))
    packOnto (packed.push (UInt8.ofNat n)) rest
  | last => packed.push (UInt8.ofNat (last.foldr (fun b n => b.toNat + 2 * n) 0))

def pack (bits : Bits) : Bytes := packOnto ByteArray.empty bits

/-- Drops the bits up to the next byte boundary; the stream ends at one. -/
def align (bits : Bits) : Bits := bits.drop (bits.length % 8)

end Bits
end ForwardIndex.Zlib
