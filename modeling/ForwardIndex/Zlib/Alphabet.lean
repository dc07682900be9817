import ForwardIndex.Zlib.Code

/-!
# Alphabets of the deflate format

Symbols below 256 are bytes, 256 ends a block, and those above stand for the lengths of copies;
distances have an alphabet of their own. A length or distance symbol gives the least value of its
range and the number of bits that follow to tell the value. The fixed codes are those of blocks that
bring no code of their own.
-/
set_option autoImplicit false
namespace ForwardIndex.Zlib

def endOfBlock : Nat := 256

/-- The symbol of the shortest copy. -/
def firstLength : Nat := 257

/-- Least length and number of further bits, from the shortest copy on. -/
def lengthRanges : List (Nat × Nat) :=
  [(3, 0), (4, 0), (5, 0), (6, 0), (7, 0), (8, 0), (9, 0), (10, 0), (11, 1), (13, 1), (15, 1),
    (17, 1), (19, 2), (23, 2), (27, 2), (31, 2), (35, 3), (43, 3), (51, 3), (59, 3), (67, 4),
    (83, 4), (99, 4), (115, 4), (131, 5), (163, 5), (195, 5), (227, 5), (258, 0)]

/-- Least distance and number of further bits. -/
def distanceRanges : List (Nat × Nat) :=
  [(1, 0), (2, 0), (3, 0), (4, 0), (5, 1), (7, 1), (9, 2), (13, 2), (17, 3), (25, 3), (33, 4),
    (49, 4), (65, 5), (97, 5), (129, 6), (193, 6), (257, 7), (385, 7), (513, 8), (769, 8),
    (1025, 9), (1537, 9), (2049, 10), (3073, 10), (4097, 11), (6145, 11), (8193, 12), (12289, 12),
    (16385, 13), (24577, 13)]

/-- The last range that starts at or below a value: its index, its bits, and the value within it. -/
def locateIn (ranges : List (Nat × Nat)) (value : Nat) : Nat × Nat × Nat :=
  let index := (ranges.takeWhile (·.1 ≤ value)).length - 1
  let (least, width) := ranges.getD index (0, 0)
  (index, width, value - least)

/-- The lengths of the words of the fixed code for bytes, block ends and lengths. -/
def fixedLengths : List Nat :=
  List.replicate 144 8 ++ List.replicate 112 9 ++ List.replicate 24 7 ++ List.replicate 8 8

def fixedSymbols : Code := Code.ofLengths fixedLengths

def fixedDistances : Code := Code.ofLengths (List.replicate 32 5)

/-- The words of a code's symbols below a bound. -/
def wordTable (c : Code) (bound : Nat) : Array Bits :=
  ((List.range bound).map fun symbol => (c.word? symbol).getD []).toArray

def fixedSymbolWords : Array Bits := wordTable fixedSymbols 288

def fixedDistanceWords : Array Bits := wordTable fixedDistances 32

end ForwardIndex.Zlib
