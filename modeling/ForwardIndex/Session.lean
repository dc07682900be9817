import ForwardIndex.Compressor
import ForwardIndex.Logger
import ForwardIndex.Volume.Operations

/-!
# Sessions

What writers share: the volume, the error stream, and the record of what was done to the compressors
handed over so far, each known by a number.
-/
set_option autoImplicit false
namespace ForwardIndex

inductive CodecEvent where
  | compressed (id : Nat)
  | closed (id : Nat)
  deriving DecidableEq

structure Session where
  volume : Volume := .initial
  /-- What was written to the error stream. -/
  log : Text := []
  /-- What was done to compressors, in order. -/
  events : Array CodecEvent := #[]
  /-- How many compressors were handed over. -/
  handed : Nat := 0

/-- A compressor at work: its number and how often it was called. -/
structure Codec where
  compressor : Compressor
  id : Nat
  calls : Nat := 0

namespace Session

/-- Writes to the error stream. -/
def report (s : Session) (line : Text) : Session := { s with log := s.log ++ line }

/-- Takes a compressor over. -/
def handOver (s : Session) (c : Compressor) : Codec × Session :=
  (⟨c, s.handed, 0⟩, { s with handed := s.handed + 1 })

def closeCodec (s : Session) (c : Codec) : Session :=
  { s with events := s.events.push (.closed c.id) }

end Session
end ForwardIndex
