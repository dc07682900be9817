import ForwardIndex.Proofs.Acceptance
import ForwardIndex.Proofs.ColumnBuild
import ForwardIndex.Tool

/-!
# Chunks and the target size

The number of documents of a chunk is decided twice: a build asks for as many as the target size has
room for, and a writer of fixed-width values then rounds up to a power of two, except in version 2.
What is asked for stays within the target. What becomes of it does so exactly if a power of two lies
in between; it is always less than twice the target.
-/
set_option autoImplicit false
namespace ForwardIndex

/-! ## Admitted configurations -/

/-- What the tool admits. -/
structure BuildConfig.Admitted (config : BuildConfig) : Prop where
  target_pos : 0 < config.targetChunkSize.toInt
  target_le : config.targetChunkSize.toInt ≤ Layout.maxInt32
  docs_pos : 0 < config.targetDocs.toInt
  version_ge : 2 ≤ config.version.toInt
  version_le : config.version.toInt ≤ 5

namespace Tool

theorem targetDocsOf_pos {c : CommandLine} {docs : Int32} (h : targetDocsOf c = .ok docs) :
    0 < docs.toInt := by
  unfold targetDocsOf at h
  dsimp only at h
  split at h
  · cases h
  · next some =>
    cases h
    rw [Int32.lt_iff_toInt_lt] at some
    simp at some
    omega

theorem versionOf_between {c : CommandLine} {version : Int32} (h : versionOf c = .ok version) :
    2 ≤ version.toInt ∧ version.toInt ≤ 5 := by
  unfold versionOf at h
  dsimp only at h
  split at h
  · cases h
  · next legal =>
    cases h
    rw [not_or, Int32.not_lt, Int32.not_lt, Int32.le_iff_toInt_le, Int32.le_iff_toInt_le] at legal
    exact legal

theorem chunkSizeOf_between {c : CommandLine} {size : Int64} (h : chunkSizeOf c = .ok size) :
    0 < size.toInt ∧ size.toInt ≤ Layout.maxInt32 := by
  unfold chunkSizeOf at h
  split at h
  · cases h
    decide
  · next text _ =>
    dsimp only at h
    split at h
    · cases h
    · next legal =>
      cases h
      rw [not_or, Nat.not_lt] at legal
      have small : SizeText.parse text < 2 ^ 63 :=
        Nat.lt_of_le_of_lt legal.2 (by decide)
      rw [Int64.toInt_ofNat_of_lt small]
      exact ⟨Int.natCast_pos.2 (Nat.pos_of_ne_zero legal.1), Int.ofNat_le.2 legal.2⟩

theorem of_bind_ok {α β : Type} {x : Except Refusal α} {f : α → Except Refusal β} {b : β}
    (h : x >>= f = .ok b) : ∃ a, x = .ok a ∧ f a = .ok b := by
  cases x with
  | error r => cases h
  | ok a => exact ⟨a, rfl, h⟩

/-- A configuration that the tool comes to is admitted. -/
theorem configOf_admitted {c : CommandLine} {config : BuildConfig} (h : configOf c = .ok config) :
    config.Admitted := by
  obtain ⟨type, -, h⟩ := of_bind_ok h
  obtain ⟨version, legal, h⟩ := of_bind_ok h
  obtain ⟨size, within, h⟩ := of_bind_ok h
  obtain ⟨docs, some, h⟩ := of_bind_ok h
  cases h
  obtain ⟨least, most⟩ := versionOf_between legal
  obtain ⟨positive, small⟩ := chunkSizeOf_between within
  exact ⟨positive, small, targetDocsOf_pos some, least, most⟩

end Tool

/-! ## What a build asks for -/

theorem Layout.toNat_docsWithin {targetDocs : Int32} (some : 0 < targetDocs.toInt) (room : Nat) :
    (docsWithin targetDocs room).toNatClampNeg = max 1 (min targetDocs.toNatClampNeg room) := by
  have most := targetDocs.toInt_lt
  rw [docsWithin, ← Int32.toNat_toInt, ← Int32.toNat_toInt,
    Int32.toInt_ofInt_of_le (by omega) (by omega)]
  omega

theorem Layout.two_pow_clog_lt {n : Nat} (some : 0 < n) : 2 ^ Nat.clog 2 n < 2 * n := by
  obtain rfl | more : n = 1 ∨ 1 < n := by omega
  · decide
  · have below := Nat.pow_pred_clog_lt_self (b := 2) (by omega) more
    have exponent := Nat.succ_pred_eq_of_pos (Nat.clog_pos (b := 2) (by omega) more)
    rw [← exponent, Nat.pow_succ]
    omega

theorem ColumnType.width_cases {type : ColumnType} (isFixed : type.isFixedWidth) :
    type.width = 2 ^ 2 ∨ type.width = 2 ^ 3 := by
  revert isFixed
  cases type <;> decide

namespace Column

/-- The bytes that an entry takes in a chunk, with its slot where it has one. -/
def entryBytes (column : Column) : Nat :=
  if column.type.isFixedWidth then column.entryLength else Layout.slotWidth + column.entryLength

section Asked

variable {column : Column} {config : BuildConfig}

theorem entryBytes_fixed {values : List FixedValue} (fixed : column.stored = .fixed values)
    (isFixed : column.type.isFixedWidth) : column.entryBytes = column.type.width := by
  rw [entryBytes, if_pos isFixed, entryLength, fixed]

theorem entryBytes_varying {values : List Text} (varying : column.stored = .varying values)
    (varies : column.type.isFixedWidth = false) :
    column.entryBytes = Layout.slotWidth + longestLength values := by
  rw [entryBytes, if_neg (by simp [varies]), entryLength, varying]

theorem four_le_entryBytes (column : Column) : 4 ≤ column.entryBytes := by
  obtain ⟨values, fixed, isFixed, -⟩ | ⟨values, varying, varies, -⟩ := column.stored_cases
  · rw [entryBytes_fixed fixed isFixed]
    obtain four | eight := ColumnType.width_cases isFixed <;> omega
  · rw [entryBytes_varying varying varies]
    exact Nat.le_add_right _ _

theorem entryLength_le (small : column.entryBytes ≤ Layout.maxInt32) :
    column.entryLength ≤ Layout.maxInt32 := by
  unfold entryBytes at small
  split at small <;> omega

/-- A build asks for as many documents as the configuration, as far as the target size has room for
their entries, but for one at least. -/
theorem toNat_chunkDocs (admitted : config.Admitted) (small : column.entryBytes ≤ Layout.maxInt32) :
    (column.chunkDocs config).toNatClampNeg = max 1 (min config.targetDocs.toNatClampNeg
      (config.targetChunkSize.toInt.toNat / column.entryBytes)) := by
  have size := toInt_entrySize_of_le (entryLength_le small)
  obtain ⟨target, ht⟩ := Int.eq_ofNat_of_zero_le (Int.le_of_lt admitted.target_pos)
  have some := column.four_le_entryBytes
  rw [← Layout.toNat_docsWithin admitted.docs_pos, ht, Int.toNat_natCast]
  obtain ⟨values, fixed, isFixed, -⟩ | ⟨values, varying, varies, -⟩ := column.stored_cases
  · have entry : column.entryLength = column.entryBytes := (if_pos isFixed).symm
    have positive : 0 < column.entrySize := by
      rw [Int32.lt_iff_toInt_lt, size]
      exact Int.natCast_pos.2 (by omega)
    rw [chunkDocs_fixed fixed, Layout.fixedDocsPerChunk, if_pos positive, size, entry, ht,
      ← Int.ofNat_tdiv]
  · have entry : column.entryLength + Layout.slotWidth = column.entryBytes := by
      rw [entryBytes, if_neg (by simp [varies]), Nat.add_comm]
    rw [chunkDocs_varying varying, Layout.variableDocsPerChunk, size, ← Int.natCast_add, entry, ht,
      ← Int.ofNat_tdiv]

theorem chunkDocs_pos (admitted : config.Admitted) (small : column.entryBytes ≤ Layout.maxInt32) :
    0 < (column.chunkDocs config).toNatClampNeg := by
  rw [toNat_chunkDocs admitted small]
  omega

/-- The most bytes that a chunk is to have: the target, or an entry if that is more. -/
def chunkLimit (column : Column) (config : BuildConfig) : Nat :=
  max config.targetChunkSize.toInt.toNat column.entryBytes

/-- What is asked for stays within the limit. -/
theorem asked_le (admitted : config.Admitted) (small : column.entryBytes ≤ Layout.maxInt32) :
    (column.chunkDocs config).toNatClampNeg * column.entryBytes ≤ column.chunkLimit config := by
  rw [toNat_chunkDocs admitted small, chunkLimit]
  obtain one | room := Nat.le_total (min config.targetDocs.toNatClampNeg
    (config.targetChunkSize.toInt.toNat / column.entryBytes)) 1
  · rw [Nat.max_eq_left one, Nat.one_mul]
    exact Nat.le_max_right _ _
  · rw [Nat.max_eq_right room]
    calc _ ≤ config.targetChunkSize.toInt.toNat / column.entryBytes * column.entryBytes :=
          Nat.mul_le_mul_right _ (Nat.min_le_right _ _)
      _ ≤ config.targetChunkSize.toInt.toNat := Nat.div_mul_le_self _ _
      _ ≤ _ := Nat.le_max_left _ _

/-! ## What a writer makes of it -/

/-- The writer rounds the number of documents of a chunk. -/
def IsRounded (column : Column) (config : BuildConfig) : Prop :=
  column.type.isFixedWidth ∧ config.version ≠ 2

/-- How many documents a chunk comes to hold. -/
def docsHeld (column : Column) (config : BuildConfig) : Nat :=
  if column.type.isFixedWidth then Layout.docsHeld config.version (column.chunkDocs config)
  else (column.chunkDocs config).toNatClampNeg

theorem docsHeld_rounded (rounded : column.IsRounded config) :
    column.docsHeld config = 2 ^ Nat.clog 2 (column.chunkDocs config).toNatClampNeg := by
  rw [docsHeld, if_pos rounded.1, Layout.docsHeld, if_neg rounded.2]

theorem docsHeld_asked (plain : ¬ column.IsRounded config) :
    column.docsHeld config = (column.chunkDocs config).toNatClampNeg := by
  unfold docsHeld Layout.docsHeld
  split
  · next isFixed =>
    split
    · rfl
    · next later => exact absurd ⟨isFixed, later⟩ plain
  · rfl

theorem docsHeld_pos (admitted : config.Admitted) (small : column.entryBytes ≤ Layout.maxInt32) :
    0 < column.docsHeld config := by
  have some := chunkDocs_pos admitted small
  by_cases rounded : column.IsRounded config
  · rw [docsHeld_rounded rounded]
    exact Nat.two_pow_pos _
  · rw [docsHeld_asked rounded]
    exact some

theorem docsHeld_lt (admitted : config.Admitted) (small : column.entryBytes ≤ Layout.maxInt32) :
    column.docsHeld config < 2 * (column.chunkDocs config).toNatClampNeg := by
  have some := chunkDocs_pos admitted small
  by_cases rounded : column.IsRounded config
  · rw [docsHeld_rounded rounded]
    exact Layout.two_pow_clog_lt some
  · rw [docsHeld_asked rounded]
    omega

theorem chunkLimit_le (admitted : config.Admitted) (small : column.entryBytes ≤ Layout.maxInt32) :
    column.chunkLimit config ≤ Layout.maxInt32 := by
  have target := admitted.target_le
  unfold chunkLimit
  omega

theorem chunkDocs_roundable (admitted : config.Admitted)
    (small : column.entryBytes ≤ Layout.maxInt32) :
    column.chunkDocs config ≤ FixedWriter.maxRoundable := by
  have asked := asked_le admitted small
  have limit := chunkLimit_le admitted small
  have four := Nat.mul_le_mul_left (column.chunkDocs config).toNatClampNeg column.four_le_entryBytes
  have docs := Layout.toInt_eq_natCast (chunkDocs_pos admitted small)
  unfold Layout.maxInt32 at limit
  rw [Int32.le_iff_toInt_le, docs]
  show _ ≤ ((2 ^ 30 : Nat) : Int)
  omega

theorem toInt_docsPerChunk (admitted : config.Admitted)
    (small : column.entryBytes ≤ Layout.maxInt32) :
    (column.parameters config).docsPerChunk.toInt = column.docsHeld config := by
  have positive := chunkDocs_pos admitted small
  have docs := Layout.toInt_eq_natCast positive
  obtain ⟨values, fixed, isFixed, -⟩ | ⟨values, varying, varies, -⟩ := column.stored_cases
  · have least : 2 ≤ config.version := Int32.le_iff_toInt_le.2 admitted.version_ge
    rw [parameters_fixed fixed, docsHeld, if_pos isFixed]
    exact Layout.toInt_roundedDocs least (docs ▸ Int.natCast_pos.2 positive)
      fun _ => chunkDocs_roundable admitted small
  · rw [parameters_varying varying, docsHeld, if_neg (by simp [varies])]
    exact docs

/-- The room for a chunk is that for the entries of as many documents as it holds. -/
theorem toInt_chunkSize (admitted : config.Admitted)
    (small : column.entryBytes ≤ Layout.maxInt32) :
    (column.parameters config).chunkSize.toInt =
      (column.docsHeld config * column.entryBytes : Nat) := by
  have size := toInt_entrySize_of_le (entryLength_le small)
  have docs := toInt_docsPerChunk admitted small
  rw [Int.natCast_mul, ← docs]
  obtain ⟨values, fixed, isFixed, -⟩ | ⟨values, varying, varies, -⟩ := column.stored_cases
  · rw [parameters_fixed fixed, entryBytes, if_pos isFixed, ← size, Int.mul_comm]
    exact Layout.toInt_fixedChunkSize _ _
  · rw [parameters_varying varying, entryBytes, if_neg (by simp [varies]), Int.natCast_add, ← size]
    exact Layout.toInt_variableChunkSize _ _

/-! ## Chunks that are too large -/

theorem docsHeld_mul_lt (admitted : config.Admitted)
    (small : column.entryBytes ≤ Layout.maxInt32) :
    column.docsHeld config * column.entryBytes < 2 * column.chunkLimit config := by
  have some := column.four_le_entryBytes
  calc column.docsHeld config * column.entryBytes
      < 2 * (column.chunkDocs config).toNatClampNeg * column.entryBytes :=
        Nat.mul_lt_mul_of_pos_right (docsHeld_lt admitted small) (by omega)
    _ = 2 * ((column.chunkDocs config).toNatClampNeg * column.entryBytes) := Nat.mul_assoc _ _ _
    _ ≤ 2 * column.chunkLimit config := Nat.mul_le_mul_left 2 (asked_le admitted small)

/-- A chunk exceeds the limit exactly if no power of two is between what is asked for and what the
limit has room for. -/
theorem chunkLimit_lt_iff (admitted : config.Admitted)
    (small : column.entryBytes ≤ Layout.maxInt32) :
    column.chunkLimit config < column.docsHeld config * column.entryBytes ↔
      column.IsRounded config ∧ ∀ k, (column.chunkDocs config).toNatClampNeg ≤ 2 ^ k →
        column.chunkLimit config < 2 ^ k * column.entryBytes := by
  by_cases rounded : column.IsRounded config
  · rw [docsHeld_rounded rounded, and_iff_right rounded]
    constructor
    · intro exceeds k enough
      have least := Nat.pow_le_pow_right (n := 2) (by omega) (Nat.clog_le_of_le_pow enough)
      exact Nat.lt_of_lt_of_le exceeds (Nat.mul_le_mul_right _ least)
    · exact fun exceeds => exceeds _ (Nat.le_pow_clog (by omega) _)
  · rw [docsHeld_asked rounded]
    exact iff_of_false (Nat.not_lt.2 (asked_le admitted small)) fun h => rounded h.1

/-- Rounded chunks that are too large are of just one size. -/
theorem docsHeld_mul_eq (admitted : config.Admitted) (small : column.entryBytes ≤ Layout.maxInt32)
    (rounded : column.IsRounded config)
    (large : 2 ^ 30 < (column.chunkDocs config).toNatClampNeg * column.entryBytes) :
    column.docsHeld config * column.entryBytes = 2 ^ 31 := by
  have below := docsHeld_mul_lt admitted small
  have limit := chunkLimit_le admitted small
  obtain ⟨j, entry⟩ : ∃ j, column.entryBytes = 2 ^ j := by
    obtain ⟨values, fixed, isFixed, -⟩ | ⟨values, varying, varies, -⟩ := column.stored_cases
    · rw [entryBytes_fixed fixed isFixed]
      obtain four | eight := ColumnType.width_cases isFixed
      · exact ⟨2, four⟩
      · exact ⟨3, eight⟩
    · simp [IsRounded, varies] at rounded
  have enough := Nat.mul_le_mul_right column.entryBytes
    (Nat.le_pow_clog (b := 2) (by omega) (column.chunkDocs config).toNatClampNeg)
  unfold Layout.maxInt32 at limit
  rw [docsHeld_rounded rounded, entry, ← Nat.pow_add] at below ⊢
  rw [entry, ← Nat.pow_add] at enough
  rw [entry] at large
  have least := (Nat.pow_lt_pow_iff_right (a := 2) (by omega)).1 (Nat.lt_of_lt_of_le large enough)
  have most := (Nat.pow_lt_pow_iff_right (a := 2) (m := 32) (by omega)).1
    (Nat.lt_of_lt_of_le below (by omega))
  congr 1
  omega

theorem maxInt32_lt_iff (admitted : config.Admitted)
    (small : column.entryBytes ≤ Layout.maxInt32) :
    Layout.maxInt32 < column.docsHeld config * column.entryBytes ↔ column.IsRounded config ∧
      2 ^ 30 < (column.chunkDocs config).toNatClampNeg * column.entryBytes := by
  constructor
  · intro exceeds
    have limit := chunkLimit_le admitted small
    refine ⟨((chunkLimit_lt_iff admitted small).1 (by omega)).1, ?_⟩
    have some := column.four_le_entryBytes
    have below := Nat.mul_lt_mul_of_pos_right (docsHeld_lt admitted small)
      (show 0 < column.entryBytes by omega)
    rw [Nat.mul_assoc] at below
    unfold Layout.maxInt32 at exceeds
    omega
  · rintro ⟨rounded, large⟩
    rw [docsHeld_mul_eq admitted small rounded large]
    decide

/-! ## Columns that are refused -/

/-- What the check of the parameters says is what becomes of a column of a fixed width. -/
theorem writeValues_error (logger : Logger) (summary : Summary) (s : Session) (z : Deflater)
    {e : Failure} (isFixed : column.type.isFixedWidth)
    (roundable : column.chunkDocs config ≤ FixedWriter.maxRoundable)
    (check : (column.parameters config).check = .error e)
    (docs : summary.docs = Int32.ofNat column.size) :
    writeValues column config logger summary s z = (.error e, summary, s) := by
  obtain ⟨values, fixed, -⟩ | ⟨values, varying, varies, -⟩ := column.stored_cases
  · rw [parameters_fixed fixed] at check
    simp only [writeValues, fixed]
    rw [writeFixed_eq, docs, ← entrySize_fixed fixed, ← chunkDocs_fixed fixed,
      FixedWriter.openAt_error (.new logger) (fun _ => roundable) check, Encoder.writeOut]
  · simp [varies] at isFixed

section Legal

variable (legal : Layout.checkVersion config.version column.type.isFixedWidth = .ok ())
  (admitted : config.Admitted) (small : column.entryBytes ≤ Layout.maxInt32)
  (size : column.size ≤ Layout.maxInt32)
include legal admitted small size

/-- Of a column of a type that the version takes, no more than the room for a chunk is refused. -/
theorem check_parameters :
    (column.parameters config).check =
      if Layout.maxInt32 < column.docsHeld config * column.entryBytes then
        .error (.chunkTooLarge (column.parameters config).chunkSize)
      else .ok () := by
  have room := toInt_chunkSize admitted small
  have version : Layout.checkVersion (column.parameters config).version
      (column.parameters config).fixedWidth = .ok () := by
    obtain ⟨values, fixed, isFixed, -⟩ | ⟨values, varying, varies, -⟩ := column.stored_cases
    · rw [isFixed] at legal
      rw [parameters_fixed fixed]
      exact legal
    · rw [varies] at legal
      rw [parameters_varying varying]
      exact legal
  by_cases large : Layout.maxInt32 < column.docsHeld config * column.entryBytes
  · rw [if_pos large, Parameters.check, version]
    exact if_pos (by omega)
  · rw [if_neg large, Parameters.check_ok_iff]
    have four := column.four_le_entryBytes
    have some := Nat.mul_pos (docsHeld_pos admitted small) (show 0 < column.entryBytes by omega)
    have total : (column.parameters config).totalDocs.toInt = column.size :=
      (congrArg Int32.toInt (header_totalDocs column config)).trans (toInt_size_of_le size)
    have entry : (column.parameters config).entrySize.toInt = column.entryLength :=
      (congrArg Int32.toInt (header_entrySize column config)).trans
        (toInt_entrySize_of_le (entryLength_le small))
    have docs := toInt_docsPerChunk admitted small
    have held := docsHeld_pos admitted small
    exact ⟨version, by omega, by omega, by omega, by omega, by omega⟩

/-- A column whose chunks are too large is refused for that, whatever its compression. -/
theorem build_chunkTooLarge (rounded : column.IsRounded config)
    (large : 2 ^ 30 < (column.chunkDocs config).toNatClampNeg * column.entryBytes) (name dir : Text)
    (logger : Logger) (s : Session) (z : Deflater) (before : Summary) :
    (build name column dir config logger s z before).1 = .error (.chunkTooLarge 2147483648) := by
  have held := docsHeld_mul_eq admitted small rounded large
  have room : (column.parameters config).chunkSize = 2147483648 := by
    rw [← Int64.toInt_inj, toInt_chunkSize admitted small, held]
    decide
  have check := check_parameters legal admitted small size
  rw [held, if_pos (show Layout.maxInt32 < 2 ^ 31 by decide), room] at check
  rw [build_eq size]
  simp only [writeValues_error logger (planned name dir column) _ z rounded.1
    (chunkDocs_roundable admitted small) check rfl]

theorem accepted_iff {z : Deflater}
    (builtin : ∃ c, Compressor.ofType config.compression z = .ok c) :
    column.Accepted config z ↔ ¬ (column.IsRounded config ∧
      2 ^ 30 < (column.chunkDocs config).toNatClampNeg * column.entryBytes) := by
  have check := check_parameters legal admitted small size
  rw [← maxInt32_lt_iff admitted small]
  constructor
  · intro accepted large
    rw [accepted.check, if_pos large] at check
    cases check
  · intro fits
    rw [if_neg fits] at check
    exact ⟨size, entryLength_le small, fun _ _ => chunkDocs_roundable admitted small, builtin,
      check⟩

end Legal

end Asked

/-- The chunks of a column of a type that the version takes, none of whose entries is too large for
a chunk: what a build asks for keeps to the limit. What the writer makes of it exceeds the limit
exactly if it is rounded and there is no power of two in between, but by less than twice; and it is
refused exactly if it is rounded to more than `2 ^ 30` bytes, for the size of the chunk. -/
theorem chunk_within_limit {column : Column} {config : BuildConfig} (admitted : config.Admitted)
    (legal : Layout.checkVersion config.version column.type.isFixedWidth = .ok ())
    (small : column.entryBytes ≤ Layout.maxInt32) :
    let asked := (column.chunkDocs config).toNatClampNeg
    let limit := column.chunkLimit config
    let held := (column.header config).docsPerChunk.toNatClampNeg
    let capacity := held * column.entryBytes
    (column.parameters config).chunkSize.toInt = capacity ∧
    asked * column.entryBytes ≤ limit ∧
    capacity < 2 * limit ∧
    (limit < capacity ↔ column.IsRounded config ∧
      ∀ k, asked ≤ 2 ^ k → limit < 2 ^ k * column.entryBytes) ∧
    (column.size ≤ Layout.maxInt32 →
      (∀ z, (∃ c, Compressor.ofType config.compression z = .ok c) →
        (column.Accepted config z ↔
          ¬ (column.IsRounded config ∧ 2 ^ 30 < asked * column.entryBytes))) ∧
      (column.IsRounded config → 2 ^ 30 < asked * column.entryBytes → ∀ name dir logger s z before,
        (build name column dir config logger s z before).1 = .error (.chunkTooLarge 2147483648))) := by
  have held : (column.header config).docsPerChunk.toNatClampNeg = column.docsHeld config := by
    rw [← Int32.toNat_toInt]
    exact (congrArg Int.toNat (toInt_docsPerChunk admitted small)).trans (Int.toNat_natCast _)
  dsimp only
  rw [held]
  exact ⟨toInt_chunkSize admitted small, asked_le admitted small, docsHeld_mul_lt admitted small,
    chunkLimit_lt_iff admitted small, fun size => ⟨fun _ => accepted_iff legal admitted small size,
      build_chunkTooLarge legal admitted small size⟩⟩

/-- Three numbers of four bytes in twelve bytes, in version 3. -/
def twelve : BuildConfig := { version := 3, targetChunkSize := 12 }

/-- As much as a chunk may have, in version 3. -/
def largest : BuildConfig := { version := 3, targetChunkSize := 2147483647, targetDocs := 2147483647 }

/-- Three numbers are rounded to four and exceed twelve bytes; and as many as the largest target has
room for are rounded to a chunk that no writer takes. -/
theorem chunk_within_limit_exceeded :
    let column := Column.int [1, 2, 3, 4]
    twelve.Admitted ∧ largest.Admitted ∧
    Layout.checkVersion twelve.version column.type.isFixedWidth = .ok () ∧
    column.entryBytes ≤ Layout.maxInt32 ∧
    column.chunkLimit twelve = 12 ∧ 12 < (column.parameters twelve).chunkSize.toInt ∧
    ∀ name dir logger s z before,
      (build name column dir largest logger s z before).1 = .error (.chunkTooLarge 2147483648) := by
  intro column
  have admitted : twelve.Admitted := ⟨by decide, by decide, by decide, by decide, by decide⟩
  have admitted' : largest.Admitted := ⟨by decide, by decide, by decide, by decide, by decide⟩
  have legal : Layout.checkVersion twelve.version column.type.isFixedWidth = .ok () := by decide
  have small : column.entryBytes ≤ Layout.maxInt32 := by decide
  obtain ⟨size, -, -, exceeds, -⟩ := chunk_within_limit admitted legal small
  obtain ⟨-, -, -, -, refused⟩ := chunk_within_limit admitted' legal small
  refine ⟨admitted, admitted', legal, small, by decide, ?_, ?_⟩
  · have three : (column.chunkDocs twelve).toNatClampNeg = 3 := by decide
    have above := exceeds.2 ⟨⟨by decide, by decide⟩, fun k enough => ?_⟩
    · rw [size]
      exact Int.ofNat_lt.2 above
    · rw [three] at enough
      have exponent : 1 < k := by
        by_contra low
        have := Nat.pow_le_pow_right (n := 2) (by omega) (Nat.not_lt.1 low)
        omega
      have four := Nat.pow_le_pow_right (n := 2) (by omega) exponent
      calc 12 < 2 ^ 2 * 4 := by decide
        _ ≤ 2 ^ k * 4 := Nat.mul_le_mul_right 4 four
  · exact (refused (by decide)).2 ⟨by decide, by decide⟩ (by decide)

end Column
end ForwardIndex
