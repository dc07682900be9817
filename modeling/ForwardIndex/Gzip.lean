import ForwardIndex.Deflater
import ForwardIndex.Failure

/-!
# Compressed chunks

A GZIP chunk is the stream of a deflate library followed by the length of the raw chunk as a
big-endian 64-bit number. The compressor has to be initialised with a level before it compresses,
and stops at `close`. A chunk is read with a function that inflates streams.
-/
set_option autoImplicit false
namespace ForwardIndex

/-- The state of a compressor: the level it was initialised with, if it is. -/
structure Gzip where
  level : Option Int := none
  deriving DecidableEq

namespace Gzip

def trailerSize : Nat := 8

/-- The level that leaves the choice to the library. -/
def defaultLevel : Int := -1

/-- The most bytes that a chunk of a length takes, trailer included. -/
def bound (n : Nat) : Nat := Deflater.bound n + trailerSize

/-- The most bytes that one chunk may have. -/
def maxInput : Nat := 0xFFFFFFFF

/-- Starts anew with a level. A level that the library refuses leaves it closed. -/
def init (level : Int) (z : Deflater := .builtin) : Outcome × Gzip :=
  match z.start level with
  | none => (.ok (), ⟨some level⟩)
  | some why => (.error (.codecRefused "deflateInit" why), {})

def close (_ : Gzip) : Gzip := {}

/-- A stream with the trailer that tells a length. -/
def trailed (stream : Bytes) (length : Nat) : Bytes :=
  stream ++ Bytes.ofText (Bytes.word64 (UInt64.ofNat length))

/-- Compresses a chunk in a call and for a buffer of a capacity: what is put into the buffer and how
much that is. The library is told of the chunk and of the room before the trailer in words of 32
bits. -/
def deflate (g : Gzip) (z : Deflater) (call : Nat) (chunk : Bytes) (capacity : Nat) :
    Bytes × Except Failure Nat :=
  match g.level with
  | none => (ByteArray.empty, .error .codecClosed)
  | some level =>
    if maxInput < chunk.size then (ByteArray.empty, .error (.codecInputTooLarge chunk.size))
    else if capacity < bound chunk.size then
      (ByteArray.empty, .error (.stagingBelowBound capacity (bound chunk.size)))
    else
      match z.reset call with
      | some why => (ByteArray.empty, .error (.codecRefused "deflateReset" why))
      | none =>
        let input := chunk.first (UInt32.ofNat chunk.size).toNat
        let room := (UInt32.ofNat (capacity - trailerSize)).toNat
        match z.finish call level input room with
        | (stream, some why) => (stream, .error (.codecRefused "deflate" why))
        | (stream, none) => (trailed stream chunk.size, .ok (stream.size + trailerSize))

/-- The compressed form of a single chunk. -/
def compress (g : Gzip) (chunk : Bytes) (capacity : Nat) (z : Deflater := .builtin) :
    Except Failure Bytes :=
  match g.deflate z 0 chunk capacity with
  | (out, .ok _) => .ok out
  | (_, .error e) => .error e

/-! ## Reading -/

/-- The length in the trailer of a compressed chunk. -/
def trailer? (stored : Bytes) : Option Nat :=
  if stored.size < trailerSize then none
  else some (Bytes.bigEndian (stored.rest (stored.size - trailerSize)).toText)

/-- The raw bytes of a compressed chunk; the trailer is left to the caller. -/
def inflate? (stored : Bytes) (inflate : Bytes → Option Bytes := Zlib.decompress) :
    Option Bytes :=
  if stored.size < trailerSize then none
  else inflate (stored.first (stored.size - trailerSize))

/-- The raw chunk of a compressed one whose trailer tells its length. -/
def decode? (inflate : Bytes → Option Bytes := Zlib.decompress) (stored : Bytes) :
    Option Bytes :=
  match inflate? stored inflate, trailer? stored with
  | some raw, some length => if raw.size = length then some raw else none
  | _, _ => none

end Gzip
end ForwardIndex
