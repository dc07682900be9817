import ForwardIndex.Zlib.Deflate
import ForwardIndex.Zlib.Inflate

/-!
# Zlib streams

A deflate stream between a two-byte header and a checksum of the bytes.
-/
set_option autoImplicit false
namespace ForwardIndex.Zlib

/-- The modulus of the checksum. -/
def adlerBase : Nat := 65521

/-- The two sums of the checksum with a byte more. -/
def adlerStep (sums : Nat × Nat) (c : UInt8) : Nat × Nat :=
  let a := (sums.1 + c.toNat) % adlerBase
  (a, (sums.2 + a) % adlerBase)

/-- The checksum of bytes: their sum plus one, and the sum of those sums. -/
def adler32 (data : Bytes) : Nat :=
  let (a, b) := data.toText.foldl adlerStep (1, 0)
  b * 65536 + a

/-- Deflate with the largest window, at the default level. -/
def streamHeader : List UInt8 := [0x78, 0x9c]

/-- A zlib stream of bytes, stored or compressed. -/
def compress (store : Bool) (data : Bytes) : Bytes :=
  Bytes.ofText streamHeader ++ deflate store data ++
    Bytes.ofText (Bytes.word32 (UInt32.ofNat (adler32 data)))

/-- A header says deflate, a window of at most 32 KiB, no dictionary, and is a multiple of 31. -/
def isStreamHeader (method flags : Nat) : Bool :=
  method % 16 = 8 && method / 16 ≤ 7 && (256 * method + flags) % 31 = 0 && flags / 32 % 2 = 0

/-- The bytes of a zlib stream that fills an array; `none` if it is none. -/
def decompress (stream : Bytes) : Option Bytes :=
  if stream.size < 2 then none
  else if !isStreamHeader (stream.byteAt 0).toNat (stream.byteAt 1).toNat then none
  else
    match inflate (Bits.ofBytes (stream.rest 2)) with
    | none => none
    | some (out, bits) =>
      match readBytes 4 bits.align ByteArray.empty with
      | some (sum, []) => if Bytes.bigEndian sum.toText = adler32 out then some out else none
      | _ => none

end ForwardIndex.Zlib
