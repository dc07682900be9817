import ForwardIndex.Bytes

/-!
# Tokens

A token is a byte, or a copy of bytes that came before. `Token.ofBytes` cuts bytes into tokens
greedily: it copies where three bytes or more come again, found through the last position at which
the next three bytes had the same key.
-/
set_option autoImplicit false
namespace ForwardIndex.Zlib

inductive Token where
  | literal (byte : UInt8)
  | copy (length distance : Nat)
  deriving DecidableEq

namespace Token

def minLength : Nat := 3

def maxLength : Nat := 258

def maxDistance : Nat := 32768

/-- Appends bytes one by one from so far back; a copy may run into its own bytes. -/
def copyBack (out : Bytes) (distance : Nat) : Nat → Bytes
  | 0 => out
  | n + 1 => copyBack (out.push (out.byteAt (out.size - distance))) distance n

/-- What the bytes become with a token after them; `none` if a copy reaches back too far. -/
def apply (out : Bytes) : Token → Option Bytes
  | literal byte => some (out.push byte)
  | copy length distance =>
    if distance = 0 ∨ out.size < distance then none else some (copyBack out distance length)

/-- The length up to a limit to which the bytes at two positions agree. -/
def agreement (data : Bytes) (i j : Nat) : Nat → Nat
  | 0 => 0
  | limit + 1 =>
    if data.byteAt i = data.byteAt j then agreement data (i + 1) (j + 1) limit + 1 else 0

/-- The number of keys. -/
def keys : Nat := 4096

/-- The key of the three bytes at a position. -/
def key (data : Bytes) (i : Nat) : Nat :=
  ((data.byteAt i).toNat * 961 + (data.byteAt (i + 1)).toNat * 31 +
    (data.byteAt (i + 2)).toNat) % keys

/-- How many bytes at a position can be copied from an earlier one. `candidate` counts from one;
zero is none. -/
def copyLength (data : Bytes) (position candidate : Nat) : Nat :=
  if candidate = 0 ∨ position < candidate ∨ maxDistance < position + 1 - candidate then 0
  else agreement data (candidate - 1) position (min maxLength (data.size - position))

/-- The tokens from a position on, behind those found before. `recent` holds the last position of
every key, counted from one. Every step takes a byte at least, so `steps` is how many are left. -/
def scan (data : Bytes) : Nat → Nat → Array Nat → Array Token → Array Token
  | 0, _, _, found => found
  | steps + 1, position, recent, found =>
    if position < data.size then
      let k := key data position
      let candidate := recent.getD k 0
      let recent := recent.setIfInBounds k (position + 1)
      let length := copyLength data position candidate
      if minLength ≤ length then
        scan data steps (position + length) recent
          (found.push (copy length (position + 1 - candidate)))
      else scan data steps (position + 1) recent (found.push (literal (data.byteAt position)))
    else found

def ofBytes (data : Bytes) : List Token :=
  (scan data data.size 0 (Array.replicate keys 0) #[]).toList

end Token
end ForwardIndex.Zlib
