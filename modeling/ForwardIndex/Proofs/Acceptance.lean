import ForwardIndex.Proofs.ColumnPlan
import Mathlib.Algebra.Order.Floor.Div
import Mathlib.Data.Nat.Log

/-!
# What the encoders take

Where the compression is built in and the file can be created, the numbers alone decide whether a
writer is opened. `FixedWriter.Takes` and `VariableWriter.Takes` are the rules, in numbers without a
width; `encoders_open_exactly` says that the words which are computed with follow them, for all
versions, numbers of documents and sizes of entries.
-/
set_option autoImplicit false
namespace ForwardIndex

namespace Layout

/-! ## Rounding -/

/-- How many documents a chunk of fixed-width values holds if so many are asked for: as many in
version 2, and the least power of two with room for them after it. -/
def docsHeld (version docsPerChunk : Int32) : Nat :=
  if version = 2 then docsPerChunk.toNatClampNeg else 2 ^ Nat.clog 2 docsPerChunk.toNatClampNeg

theorem le_docsHeld (version docsPerChunk : Int32) :
    docsPerChunk.toNatClampNeg ≤ docsHeld version docsPerChunk := by
  unfold docsHeld
  split
  · exact Nat.le_refl _
  · exact Nat.le_pow_clog (by omega) _

theorem docsHeld_pos {version docsPerChunk : Int32} (some : 0 < docsPerChunk.toInt) :
    0 < docsHeld version docsPerChunk := by
  have enough := le_docsHeld version docsPerChunk
  rw [← Int32.toNat_toInt] at enough
  omega

/-- What cannot be rounded is held only in chunks that are too large. -/
theorem maxInt32_lt_docsHeld {version docsPerChunk : Int32} (later : 3 ≤ version)
    (large : FixedWriter.maxRoundable < docsPerChunk) :
    maxInt32 < docsHeld version docsPerChunk := by
  have large : 2 ^ 30 < docsPerChunk.toNatClampNeg := by
    rw [Int32.lt_iff_toInt_lt] at large
    rw [← Int32.toNat_toInt]
    simp [FixedWriter.maxRoundable] at large
    omega
  have two : version ≠ 2 := by
    rintro rfl
    exact absurd later (by decide)
  have power : 30 < Nat.clog 2 docsPerChunk.toNatClampNeg :=
    (Nat.lt_clog_iff_pow_lt (by omega)).2 large
  have next : 2 ^ 31 ≤ 2 ^ Nat.clog 2 docsPerChunk.toNatClampNeg :=
    Nat.pow_le_pow_right (by omega) power
  rw [docsHeld, if_neg two, maxInt32]
  omega

theorem nextPowerOfTwo_eq {n : Int32} (positive : 0 < n.toInt) (most : n.toInt ≤ 2 ^ 30) :
    (nextPowerOfTwo n).toInt = (2 ^ Nat.clog 2 n.toNatClampNeg : Nat) := by
  obtain ⟨k, power, above, below⟩ := nextPowerOfTwo_spec positive most
  obtain ⟨m, hm⟩ := Int.eq_ofNat_of_zero_le (Int.le_of_lt positive)
  have nat : n.toNatClampNeg = m := by rw [← Int32.toNat_toInt, hm, Int.toNat_natCast]
  rw [hm] at above below
  have above : m ≤ 2 ^ k := by exact_mod_cast above
  have below : 2 ^ k < 2 * m := by exact_mod_cast below
  have least : k ≤ Nat.clog 2 m := by
    by_contra less
    have reached := Nat.le_pow_clog (b := 2) (by omega) m
    have half : 2 ^ (Nat.clog 2 m + 1) ≤ 2 ^ k := Nat.pow_le_pow_right (by omega) (by omega)
    rw [Nat.pow_succ] at half
    omega
  rw [power, nat, Nat.le_antisymm least (Nat.clog_le_of_le_pow above)]
  norm_cast

/-- Neither the step down to the number before nor the step up from its smeared bits wraps. -/
theorem smear_pred_add_one {n : Int32} (positive : 0 < n.toInt) (most : n.toInt ≤ 2 ^ 30) :
    (n.toUInt32 - 1).toNat + 1 = n.toNatClampNeg ∧
      (smear (n.toUInt32 - 1)).toNat + 1 = 2 ^ Nat.clog 2 n.toNatClampNeg := by
  have word {x : Int32} (least : 0 < x.toInt) : x.toUInt32.toNat = x.toInt.toNat := by
    rw [Int32.toNat_toUInt32_of_le (Int32.le_iff_toInt_le.2 (by simpa using Int.le_of_lt least)),
      Int32.toNat_toInt]
  have power := nextPowerOfTwo_eq positive most
  have some : 0 < 2 ^ Nat.clog 2 n.toNatClampNeg := Nat.two_pow_pos _
  constructor
  · have one : 1 ≤ n.toUInt32 := by
      rw [UInt32.le_iff_toNat_le, word positive, UInt32.toNat_one]
      omega
    rw [UInt32.toNat_sub_of_le _ _ one, word positive, UInt32.toNat_one, ← Int32.toNat_toInt]
    omega
  · have sum := word (power ▸ Int.natCast_pos.2 some)
    rw [power, Int.toNat_natCast, nextPowerOfTwo, UInt32.toUInt32_toInt32, UInt32.toNat_add,
      UInt32.toNat_one] at sum
    have below := (smear (n.toUInt32 - 1)).toNat_lt
    omega

/-- As far as a number of documents can be rounded, the rounded one is the number held. -/
theorem toInt_roundedDocs {version docsPerChunk : Int32} (least : 2 ≤ version)
    (positive : 0 < docsPerChunk.toInt)
    (roundable : 3 ≤ version → docsPerChunk ≤ FixedWriter.maxRoundable) :
    (roundedDocs version docsPerChunk).toInt = docsHeld version docsPerChunk := by
  have some : ¬ docsPerChunk ≤ 0 := by
    rw [Int32.le_iff_toInt_le]
    simpa using positive
  unfold roundedDocs docsHeld
  by_cases two : version = 2
  · subst two
    rw [if_pos (.inl (by decide)), if_pos rfl, ← Int32.toNat_toInt]
    omega
  · have later : 3 ≤ version := by
      rw [← Int32.toInt_inj] at two
      rw [Int32.le_iff_toInt_le] at least ⊢
      simp at two least ⊢
      omega
    have most : docsPerChunk.toInt ≤ 2 ^ 30 := Int32.le_iff_toInt_le.1 (roundable later)
    rw [if_neg (not_or.2 ⟨Int32.not_lt.2 later, some⟩), if_neg two,
      nextPowerOfTwo_eq positive most]

/-! ## Versions -/

theorem checkVersion_ok_iff {version : Int32} {fixedWidth : Bool} :
    checkVersion version fixedWidth = .ok () ↔
      2 ≤ version.toInt ∧ version.toInt ≤ if fixedWidth then 5 else 3 := by
  unfold checkVersion
  simp only [← Int32.toInt_inj]
  cases fixedWidth with
  | false =>
    simp
    omega
  | true =>
    simp
    omega

theorem docs_pos_of_rounded {version docsPerChunk : Int32}
    (h : 0 < (roundedDocs version docsPerChunk).toInt) : 0 < docsPerChunk.toInt := by
  by_contra none
  have few : docsPerChunk ≤ 0 := by
    rw [Int32.le_iff_toInt_le]
    simpa using none
  rw [roundedDocs, if_pos (.inr few)] at h
  exact none h

end Layout

/-! ## Checked parameters -/

namespace Parameters

theorem check_ok_iff {p : Parameters} : p.check = .ok () ↔ p.Admitted := by
  refine ⟨check_ok, fun a => ?_⟩
  have chunk := a.chunkSize_pos
  have most := a.chunkSize_le
  have docs := a.docs_pos
  have total := a.totalDocs
  have entry := a.entrySize
  unfold check
  rw [a.version, if_neg (by omega), if_neg, if_neg, if_neg, if_neg]
  · rw [Int32.lt_iff_toInt_lt]
    simpa using entry
  · rw [Int32.lt_iff_toInt_lt]
    simpa using total
  · rw [Int32.le_iff_toInt_le]
    simpa using docs
  · rw [Int64.le_iff_toInt_le]
    simpa using chunk

theorem check_error {p : Parameters} {e : Failure} (h : p.check = .error e) :
    e.kind = .configuration := by
  unfold check Layout.checkVersion at h
  grind [Failure.kind]

end Parameters

namespace ChunkWriter

/-! ## One opening -/

/-- What a writer has once it is opened for so many documents, with so many of them in a chunk and
so many bytes of room for one. Its sizes fit in 64 bits. -/
structure OpenFor (total docs : Nat) (room : Int) (compression : Compression) (z : Deflater)
    (w : ChunkWriter) : Prop where
  isOpen : w.isOpen
  docsPerChunk : w.header.docsPerChunk.toInt = docs
  chunkCount : w.header.chunkCount.toInt = (total ⌈/⌉ docs : Nat)
  capacity : w.buffer.capacity = room
  header_lt : w.header.size < 2 ^ 64
  staging_lt : ∀ c, Compressor.ofType compression z = .ok c → c.bound w.buffer.capacity < 2 ^ 64

theorem OpenFor.of_works {w : ChunkWriter} {p : Parameters} {c : Compressor} {room : Nat}
    {z : Deflater} (admitted : p.Admitted) (header : w.header = p.header p.compression)
    (works : w.Works c (.new p.chunkSize.toInt.toNat) room) :
    OpenFor p.totalDocs.toNatClampNeg p.docsPerChunk.toNatClampNeg p.chunkSize.toInt p.compression
      z w := by
  have docs := admitted.docs_pos
  have positive := admitted.chunkSize_pos
  have most := admitted.chunkSize_le
  have capacity : w.buffer.capacity = p.chunkSize.toInt.toNat := by
    rw [works.buffer, Buffer.capacity_new]
  refine ⟨works.isOpen, ?_, ?_, by omega, ?_, fun c builtin => ?_⟩
  · rw [header, ← Int32.toNat_toInt]
    exact (Int.toNat_of_nonneg (Int.le_of_lt docs)).symm
  · rw [header, Nat.ceilDiv_eq_add_pred_div]
    exact Layout.toInt_chunkCount admitted.totalDocs docs
  · have chunks := w.header.chunkCount.toNatClampNeg_lt
    have width : w.header.offsetWidth ≤ 8 := by
      unfold Header.offsetWidth Layout.offsetWidth
      split <;> omega
    calc w.header.size ≤ 28 + 2 ^ 31 * 8 :=
          Nat.add_le_add_left (Nat.mul_le_mul (Nat.le_of_lt chunks) width) 28
      _ < 2 ^ 64 := by omega
  · have small : w.buffer.capacity < 2 ^ 31 := by
      unfold Layout.maxInt32 at most
      omega
    obtain ⟨-, rfl⟩ | ⟨-, -, rfl⟩ := Compressor.ofType_cases builtin
    · exact Nat.lt_trans small (by omega)
    · simp only [Compressor.gzip, Compressor.ofFunction, Gzip.bound, Deflater.bound,
        Gzip.trailerSize, Nat.shiftRight_eq_div_pow]
      omega

/-- What comes of an opening that a rule decides: it is accepted exactly under the rule, and refused
as a configuration, without a trace on the volume. -/
structure Decided (rule : Prop) (opened : ChunkWriter → Prop) (s : Session)
    (r : Outcome × ChunkWriter × Session) : Prop where
  accepted : r.1 = .ok () ↔ rule
  opened : r.1 = .ok () → opened r.2.1
  refused : ∀ e, r.1 = .error e → e.kind = .configuration ∧ r.2.2.volume = s.volume

theorem Decided.imp {rule rule' : Prop} {opened opened' : ChunkWriter → Prop} {s : Session}
    {r : Outcome × ChunkWriter × Session} (d : Decided rule opened s r) (same : rule ↔ rule')
    (step : rule → ∀ w, opened w → opened' w) : Decided rule' opened' s r :=
  ⟨d.accepted.trans same, fun ok => step (d.accepted.1 ok) _ (d.opened ok), d.refused⟩

theorem Unused.openBuiltin_error {w : ChunkWriter} (unused : w.Unused) {path : Text}
    {p : Parameters} {s : Session} {z : Deflater} {e : Failure} (check : p.check = .error e) :
    w.openBuiltin path p s z = (.error e, w, s) := by
  rw [openBuiltin, unused.unopened, check]
  rfl

/-- The check of the parameters decides, where the compression is built in and the file can be
created. -/
theorem Unused.decided {w : ChunkWriter} (unused : w.Unused) {path : Text} {p : Parameters}
    {s : Session} {z : Deflater} (builtin : ∃ c, Compressor.ofType p.compression z = .ok c)
    (creatable : ∃ opened, s.volume.openWrite path = .ok opened) :
    Decided p.Admitted (OpenFor p.totalDocs.toNatClampNeg p.docsPerChunk.toNatClampNeg
      p.chunkSize.toInt p.compression z) s (w.openBuiltin path p s z) := by
  have accepted := unused.openBuiltin_ok_iff path p s z
  rw [and_iff_left ⟨builtin, creatable⟩, Parameters.check_ok_iff] at accepted
  refine ⟨accepted, fun ok => ?_, fun e failed => ?_⟩
  · rcases h : w.openBuiltin path p s z with ⟨outcome, w', s'⟩
    have admitted := accepted.1 ok
    rw [h] at ok
    cases ok
    cases h ▸ w.openBuiltin_opening path p s z with
    | accepted fresh check header file cursor works => exact .of_works admitted header works
  · cases check : p.check with
    | ok u =>
      rw [accepted.2 (Parameters.check_ok check)] at failed
      cases failed
    | error e' =>
      rw [unused.openBuiltin_error check] at failed ⊢
      cases failed
      exact ⟨Parameters.check_error check, rfl⟩

end ChunkWriter

/-! ## The rules of the encoders -/

section Rules

variable (totalDocs docsPerChunk entrySize version : Int32)

/-- The numbers that a writer of fixed-width values is opened with. -/
structure FixedWriter.Takes : Prop where
  version_ge : 2 ≤ version.toInt
  version_le : version.toInt ≤ 5
  total : 0 ≤ totalDocs.toInt
  docs : 1 ≤ docsPerChunk.toInt
  entry : 1 ≤ entrySize.toInt
  chunk : entrySize.toInt * Layout.docsHeld version docsPerChunk ≤ Layout.maxInt32

/-- The numbers that a writer of variable-width values is opened with. -/
structure VariableWriter.Takes : Prop where
  version_ge : 2 ≤ version.toInt
  version_le : version.toInt ≤ 3
  total : 0 ≤ totalDocs.toInt
  docs : 1 ≤ docsPerChunk.toInt
  longest : 0 ≤ entrySize.toInt
  chunk : docsPerChunk.toInt * (4 + entrySize.toInt) ≤ Layout.maxInt32

end Rules

section Encoders

variable (compression : Compression) (totalDocs docsPerChunk entrySize version : Int32)

/-- A writer of fixed-width values passes both checks, its own and that of the parameters, exactly
under its rule. -/
theorem FixedWriter.takes_iff :
    (3 ≤ version → docsPerChunk ≤ maxRoundable) ∧
        (parameters compression totalDocs docsPerChunk entrySize version).Admitted ↔
      Takes totalDocs docsPerChunk entrySize version := by
  have size := Layout.toInt_fixedChunkSize entrySize (Layout.roundedDocs version docsPerChunk)
  constructor
  · rintro ⟨roundable, a⟩
    obtain ⟨least, most⟩ : 2 ≤ version.toInt ∧ version.toInt ≤ 5 :=
      Layout.checkVersion_ok_iff.1 a.version
    have docs := Layout.docs_pos_of_rounded a.docs_pos
    rw [Layout.toInt_roundedDocs (Int32.le_iff_toInt_le.2 least) docs roundable] at size
    have positive : 0 < entrySize.toInt * Layout.docsHeld version docsPerChunk :=
      size ▸ a.chunkSize_pos
    have entry : 0 < entrySize.toInt :=
      Int.pos_of_mul_pos_left positive (Int.natCast_pos.2 (Layout.docsHeld_pos docs))
    exact ⟨least, most, a.totalDocs, docs, entry, size ▸ a.chunkSize_le⟩
  · rintro ⟨least, most, total, docs, entry, chunk⟩
    have some : (0 : Int) < Layout.docsHeld version docsPerChunk :=
      Int.natCast_pos.2 (Layout.docsHeld_pos docs)
    have roundable : 3 ≤ version → docsPerChunk ≤ maxRoundable := by
      intro later
      by_contra large
      have beyond := Layout.maxInt32_lt_docsHeld later (Int32.not_le.1 large)
      have larger := Int.mul_le_mul_of_nonneg_right entry (Int.le_of_lt some)
      omega
    have held := Layout.toInt_roundedDocs (Int32.le_iff_toInt_le.2 least) docs roundable
    rw [held] at size
    have positive : 0 < entrySize.toInt * Layout.docsHeld version docsPerChunk :=
      Int.mul_pos entry some
    exact ⟨roundable, Layout.checkVersion_ok_iff.2 ⟨least, most⟩, size ▸ positive, size ▸ chunk,
      held ▸ some, total, Int.le_of_lt entry⟩

/-- A writer of variable-width values passes the check of the parameters exactly under its rule. -/
theorem VariableWriter.takes_iff :
    (parameters compression totalDocs docsPerChunk entrySize version).Admitted ↔
      Takes totalDocs docsPerChunk entrySize version := by
  have size := Layout.toInt_variableChunkSize docsPerChunk entrySize
  constructor
  · intro a
    obtain ⟨least, most⟩ := Layout.checkVersion_ok_iff.1 a.version
    exact ⟨least, most, a.totalDocs, a.docs_pos, a.entrySize, size ▸ a.chunkSize_le⟩
  · rintro ⟨least, most, total, docs, longest, chunk⟩
    have positive : 0 < docsPerChunk.toInt * (4 + entrySize.toInt) :=
      Int.mul_pos docs (by omega)
    exact ⟨Layout.checkVersion_ok_iff.2 ⟨least, most⟩, size ▸ positive, size ▸ chunk, docs, total,
      longest⟩

variable {compression totalDocs docsPerChunk entrySize version} {path : Text} {s : Session}
  {z : Deflater}

theorem FixedWriter.decided (builtin : ∃ c, Compressor.ofType compression z = .ok c)
    (creatable : ∃ opened, s.volume.openWrite path = .ok opened) {w : FixedWriter}
    (unused : w.core.Unused) :
    let r := w.openAt path compression totalDocs docsPerChunk entrySize version s z
    let docs := Layout.docsHeld version docsPerChunk
    ChunkWriter.Decided (Takes totalDocs docsPerChunk entrySize version)
      (ChunkWriter.OpenFor totalDocs.toNatClampNeg docs (entrySize.toInt * docs) compression z) s
      (r.1, r.2.1.core, r.2.2) := by
  have same := takes_iff compression totalDocs docsPerChunk entrySize version
  dsimp only
  unfold openAt
  split
  · next large =>
    refine ⟨iff_of_false nofun fun takes => ?_, nofun, fun e refused => ?_⟩
    · exact Int32.not_lt.2 ((same.2 takes).1 large.2) large.1
    · cases refused
      exact ⟨rfl, rfl⟩
  · next small =>
    have roundable : 3 ≤ version → docsPerChunk ≤ maxRoundable := fun later =>
      Int32.not_lt.1 fun large => small ⟨large, later⟩
    rw [and_iff_right roundable] at same
    refine (ChunkWriter.Unused.decided unused builtin creatable).imp same fun admitted w' held => ?_
    have takes := same.1 admitted
    have docs := Layout.toInt_roundedDocs (Int32.le_iff_toInt_le.2 takes.version_ge) takes.docs
      roundable
    have size := Layout.toInt_fixedChunkSize entrySize (Layout.roundedDocs version docsPerChunk)
    rw [docs] at size
    rw [← size, ← Int.toNat_natCast (Layout.docsHeld version docsPerChunk), ← docs,
      Int32.toNat_toInt]
    exact held

theorem FixedWriter.openAt_error {w : FixedWriter} (unused : w.core.Unused)
    (roundable : 3 ≤ version → docsPerChunk ≤ maxRoundable) {e : Failure}
    (check : (parameters compression totalDocs docsPerChunk entrySize version).check = .error e) :
    w.openAt path compression totalDocs docsPerChunk entrySize version s z = (.error e, w, s) := by
  unfold openAt
  rw [if_neg fun large => Int32.not_lt.2 (roundable large.2) large.1,
    unused.openBuiltin_error check]

theorem VariableWriter.decided (builtin : ∃ c, Compressor.ofType compression z = .ok c)
    (creatable : ∃ opened, s.volume.openWrite path = .ok opened) {w : VariableWriter}
    (unused : w.core.Unused) :
    let r := w.openAt path compression totalDocs docsPerChunk entrySize version s z
    ChunkWriter.Decided (Takes totalDocs docsPerChunk entrySize version)
      (ChunkWriter.OpenFor totalDocs.toNatClampNeg docsPerChunk.toNatClampNeg
        (docsPerChunk.toInt * (4 + entrySize.toInt)) compression z) s (r.1, r.2.1.core, r.2.2) := by
  have same := takes_iff compression totalDocs docsPerChunk entrySize version
  have size := Layout.toInt_variableChunkSize docsPerChunk entrySize
  have core := ChunkWriter.Unused.decided unused
    (p := parameters compression totalDocs docsPerChunk entrySize version) builtin creatable
  have decided := core.imp same fun _ w' held => size ▸ held
  dsimp only
  unfold openAt
  rcases opens : w.core.openBuiltin path
    (parameters compression totalDocs docsPerChunk entrySize version) s z with ⟨outcome, core', s'⟩
  simp only [opens] at decided ⊢
  cases outcome with
  | ok u => exact decided
  | error e => exact decided

end Encoders

/-! ## All numbers -/

/-- The words that an opening computes with hold the numbers that they stand for. -/
structure Layout.NothingWraps (totalDocs docsPerChunk entrySize version : Int32) : Prop where
  fixedSize : (fixedChunkSize entrySize (roundedDocs version docsPerChunk)).toInt =
    entrySize.toInt * (roundedDocs version docsPerChunk).toInt
  variableSize : (variableChunkSize docsPerChunk entrySize).toInt =
    docsPerChunk.toInt * (4 + entrySize.toInt)
  slots : docsPerChunk.toNatClampNeg * slotWidth < 2 ^ 64
  rounding : 0 < docsPerChunk.toInt → docsPerChunk ≤ FixedWriter.maxRoundable →
    (docsPerChunk.toUInt32 - 1).toNat + 1 = docsPerChunk.toNatClampNeg ∧
      (smear (docsPerChunk.toUInt32 - 1)).toNat + 1 =
        2 ^ Nat.clog 2 docsPerChunk.toNatClampNeg ∧
      (nextPowerOfTwo docsPerChunk).toInt = (2 ^ Nat.clog 2 docsPerChunk.toNatClampNeg : Nat)
  sum (docs : Int32) : (Int64.ofInt (totalDocs.toInt + docs.toInt - 1)).toInt =
    totalDocs.toInt + docs.toInt - 1
  count (docs : Int32) : 0 ≤ totalDocs.toInt → 0 < docs.toInt →
    (chunkCount totalDocs docs).toInt = (totalDocs.toNatClampNeg ⌈/⌉ docs.toNatClampNeg : Nat)

theorem Layout.nothingWraps (totalDocs docsPerChunk entrySize version : Int32) :
    NothingWraps totalDocs docsPerChunk entrySize version where
  fixedSize := toInt_fixedChunkSize entrySize (roundedDocs version docsPerChunk)
  variableSize := toInt_variableChunkSize docsPerChunk entrySize
  slots := by
    have := docsPerChunk.toNatClampNeg_lt
    unfold slotWidth
    omega
  rounding positive most := by
    have most : docsPerChunk.toInt ≤ 2 ^ 30 := Int32.le_iff_toInt_le.1 most
    obtain ⟨before, after⟩ := smear_pred_add_one positive most
    exact ⟨before, after, nextPowerOfTwo_eq positive most⟩
  sum docs := by
    have total := natAbs_toInt_le totalDocs
    have more := natAbs_toInt_le docs
    exact Int64.toInt_ofInt_of_le (by omega) (by omega)
  count docs total positive := by
    rw [Nat.ceilDiv_eq_add_pred_div]
    exact toInt_chunkCount total positive

/-- With a built-in compression and a file that can be created, both encoders are opened exactly
under their rules, whatever the numbers. Opened, they have the number of documents of a chunk, the
number of chunks and the room that the rules tell; refused, they report a configuration and leave
the volume. No word on the way wraps. -/
theorem encoders_open_exactly {compression : Compression} {z : Deflater} {path : Text} {s : Session}
    (builtin : ∃ c, Compressor.ofType compression z = .ok c)
    (creatable : ∃ opened, s.volume.openWrite path = .ok opened)
    (totalDocs docsPerChunk entrySize version : Int32) :
    (∀ w : FixedWriter, w.core.Unused →
      let r := w.openAt path compression totalDocs docsPerChunk entrySize version s z
      let docs := Layout.docsHeld version docsPerChunk
      ChunkWriter.Decided (FixedWriter.Takes totalDocs docsPerChunk entrySize version)
        (ChunkWriter.OpenFor totalDocs.toNatClampNeg docs (entrySize.toInt * docs) compression z) s
        (r.1, r.2.1.core, r.2.2)) ∧
    (∀ w : VariableWriter, w.core.Unused →
      let r := w.openAt path compression totalDocs docsPerChunk entrySize version s z
      ChunkWriter.Decided (VariableWriter.Takes totalDocs docsPerChunk entrySize version)
        (ChunkWriter.OpenFor totalDocs.toNatClampNeg docsPerChunk.toNatClampNeg
          (docsPerChunk.toInt * (4 + entrySize.toInt)) compression z) s
        (r.1, r.2.1.core, r.2.2)) ∧
    Layout.NothingWraps totalDocs docsPerChunk entrySize version :=
  ⟨fun _ => FixedWriter.decided builtin creatable, fun _ => VariableWriter.decided builtin creatable,
    Layout.nothingWraps totalDocs docsPerChunk entrySize version⟩

/-- Twenty values of four bytes, five to a chunk, in version 3: eight go into one of the three
chunks. Compressed texts of up to four bytes go into four chunks of five. -/
theorem encoders_open_exactly_five :
    let fixed := FixedWriter.openAt {} [102] .passThrough 20 5 4 3 {} .builtin
    let varying := VariableWriter.openAt {} [102] .gzip 20 5 4 3 {} .builtin
    (∃ c, Compressor.ofType .passThrough .builtin = .ok c) ∧
    (∃ c, Compressor.ofType .gzip .builtin = .ok c) ∧
    (∃ opened, Volume.initial.openWrite [102] = .ok opened) ∧
    (fixed.1 = .ok () ∧ fixed.2.1.core.header.docsPerChunk.toInt = 8 ∧
      fixed.2.1.core.header.chunkCount.toInt = 3 ∧ fixed.2.1.core.buffer.capacity = 32) ∧
    varying.1 = .ok () ∧ varying.2.1.core.header.docsPerChunk.toInt = 5 ∧
      varying.2.1.core.header.chunkCount.toInt = 4 ∧ varying.2.1.core.buffer.capacity = 40 := by
  have stored : ∃ c, Compressor.ofType .passThrough .builtin = .ok c := ⟨_, rfl⟩
  have zipped : ∃ c, Compressor.ofType .gzip .builtin = .ok c := ⟨_, rfl⟩
  have creatable : ∃ opened, Volume.initial.openWrite [102] = .ok opened := ⟨_, rfl⟩
  refine ⟨stored, zipped, creatable, ?_, ?_⟩
  · obtain ⟨fixed, -, -⟩ := encoders_open_exactly (s := {}) stored creatable 20 5 4 3
    obtain ⟨accepted, opened, -⟩ := fixed {} (.new _)
    have eight : Layout.docsHeld 3 5 = 8 := by decide
    rw [eight] at opened
    have ok := accepted.2 ⟨by decide, by decide, by decide, by decide, by decide, by decide⟩
    have held := opened ok
    have three : (20 : Int32).toNatClampNeg ⌈/⌉ 8 = 3 := by decide
    refine ⟨ok, held.docsPerChunk, ?_, Int.ofNat.inj held.capacity⟩
    rw [held.chunkCount, three]
    rfl
  · obtain ⟨-, varying, -⟩ := encoders_open_exactly (s := {}) zipped creatable 20 5 4 3
    obtain ⟨accepted, opened, -⟩ := varying {} (.new _)
    have ok := accepted.2 ⟨by decide, by decide, by decide, by decide, by decide, by decide⟩
    have held := opened ok
    have four : (20 : Int32).toNatClampNeg ⌈/⌉ (5 : Int32).toNatClampNeg = 4 := by decide
    refine ⟨ok, held.docsPerChunk, ?_, Int.ofNat.inj held.capacity⟩
    rw [held.chunkCount, four]
    rfl

end ForwardIndex
