import ForwardIndex.Column.Build
import ForwardIndex.Proofs.Lifecycle
import ForwardIndex.Proofs.FixedWriter
import ForwardIndex.Proofs.VariableWriter
import Mathlib.Algebra.Order.Floor.Div

/-!
# What a build asks for

The parameters, the header and the raw chunks that follow from a column and a configuration, and
what it takes for a writer to be opened for them. A writer that was not opened yet is opened exactly
if nothing in the parameters is refused and the system opens the path; otherwise the volume stays as
it is.
-/
set_option autoImplicit false
namespace ForwardIndex

/-! ## Opening a writer -/

section Opening

variable {path : Text} {s s' : Session} {z : Deflater}

/-- A writer that was not opened yet. -/
structure ChunkWriter.Unused (w : ChunkWriter) : Prop where
  unopened : w.isUnopened
  shut : w.file.isOpen = false

theorem ChunkWriter.Unused.new (logger : Logger) : Unused { logger } := ⟨rfl, rfl⟩

/-- A writer that was not opened yet is opened exactly if the parameters pass their check, the
compression is built in, and the system opens the path. -/
theorem ChunkWriter.Unused.openBuiltin_ok_iff {w : ChunkWriter} (unused : w.Unused) (path : Text)
    (params : Parameters) (s : Session) (z : Deflater) :
    (w.openBuiltin path params s z).1 = .ok () ↔
      params.check = .ok () ∧ (∃ c, Compressor.ofType params.compression z = .ok c) ∧
        ∃ opened, s.volume.openWrite path = .ok opened := by
  obtain ⟨fresh, shut⟩ := unused
  unfold openBuiltin
  rw [fresh]
  cases check : params.check with
  | error e => simp
  | ok u =>
    cases builtin : Compressor.ofType params.compression z with
    | error e => simp
    | ok c =>
      cases opens : s.volume.openWrite path with
      | error e => simp [openWith, fresh, check, Session.handOver, FileHandle.openAt, shut, opens]
      | ok opened =>
        simp [openWith, fresh, check, Session.handOver, FileHandle.openAt, shut, opens]

theorem ChunkWriter.openBuiltin_refused {params : Parameters} {w w' : ChunkWriter} {e : Failure}
    (refused : w.openBuiltin path params s z = (.error e, w', s')) : s'.volume = s.volume := by
  cases refused ▸ w.openBuiltin_opening path params s z with
  | refused _ _ _ _ volume => exact volume

variable {compression : Compression} {totalDocs docsPerChunk entrySize version : Int32}

theorem FixedWriter.openAt_ok_iff {w : FixedWriter} (unused : w.core.Unused) :
    (w.openAt path compression totalDocs docsPerChunk entrySize version s z).1 = .ok () ↔
      (3 ≤ version → docsPerChunk ≤ maxRoundable) ∧
        (parameters compression totalDocs docsPerChunk entrySize version).check = .ok () ∧
        (∃ c, Compressor.ofType compression z = .ok c) ∧
        ∃ opened, s.volume.openWrite path = .ok opened := by
  have core := unused.openBuiltin_ok_iff path
    (parameters compression totalDocs docsPerChunk entrySize version) s z
  unfold openAt
  split
  · next large =>
    refine iff_of_false nofun fun small => ?_
    exact Int32.not_lt.2 (small.1 large.2) large.1
  · next small =>
    refine core.trans (iff_and_self.2 fun _ later => ?_)
    exact Int32.not_lt.1 fun large => small ⟨large, later⟩

theorem FixedWriter.openAt_refused {w w' : FixedWriter} {e : Failure}
    (refused : w.openAt path compression totalDocs docsPerChunk entrySize version s z =
      (.error e, w', s')) : s'.volume = s.volume := by
  unfold openAt at refused
  split at refused
  · cases refused
    rfl
  · rcases core : w.core.openBuiltin path
      (parameters compression totalDocs docsPerChunk entrySize version) s z with ⟨outcome, core', s₁⟩
    rw [core] at refused
    cases refused
    exact ChunkWriter.openBuiltin_refused core

theorem VariableWriter.openAt_ok_iff {w : VariableWriter} (unused : w.core.Unused) :
    (w.openAt path compression totalDocs docsPerChunk entrySize version s z).1 = .ok () ↔
      (parameters compression totalDocs docsPerChunk entrySize version).check = .ok () ∧
        (∃ c, Compressor.ofType compression z = .ok c) ∧
        ∃ opened, s.volume.openWrite path = .ok opened := by
  refine Iff.trans ?_ (unused.openBuiltin_ok_iff path
    (parameters compression totalDocs docsPerChunk entrySize version) s z)
  unfold openAt
  rcases core : w.core.openBuiltin path
    (parameters compression totalDocs docsPerChunk entrySize version) s z with ⟨outcome, w', s₁⟩
  cases outcome with
  | error e => simp [core]
  | ok u => simp [core]

theorem VariableWriter.openAt_refused {w w' : VariableWriter} {e : Failure}
    (refused : w.openAt path compression totalDocs docsPerChunk entrySize version s z =
      (.error e, w', s')) : s'.volume = s.volume := by
  unfold openAt at refused
  rcases core : w.core.openBuiltin path
    (parameters compression totalDocs docsPerChunk entrySize version) s z with ⟨outcome, core', s₁⟩
  simp only [core] at refused
  cases outcome with
  | error e =>
    cases refused
    exact ChunkWriter.openBuiltin_refused core
  | ok u => cases refused

end Opening

namespace Column

/-! ## What is asked for -/

/-- The length of every entry, or of the longest one. -/
def entryLength (column : Column) : Nat :=
  match column.stored with
  | .fixed _ => column.type.width
  | .varying values => longestLength values

def entrySize (column : Column) : Int32 := Int32.ofNat column.entryLength

/-- How many documents a chunk is to hold. -/
def chunkDocs (column : Column) (config : BuildConfig) : Int32 :=
  match column.stored with
  | .fixed _ =>
    Layout.fixedDocsPerChunk column.entrySize config.targetChunkSize config.targetDocs
  | .varying _ =>
    Layout.variableDocsPerChunk column.entrySize config.targetChunkSize config.targetDocs

/-- The parameters of the file of a column. -/
def parameters (column : Column) (config : BuildConfig) : Parameters :=
  let docs := Int32.ofNat column.size
  match column.stored with
  | .fixed _ =>
    FixedWriter.parameters config.compression docs (column.chunkDocs config) column.entrySize
      config.version
  | .varying _ =>
    VariableWriter.parameters config.compression docs (column.chunkDocs config) column.entrySize
      config.version

/-- The header of the file of a column, before its first chunk. -/
def header (column : Column) (config : BuildConfig) : Header :=
  (column.parameters config).header config.compression

/-- The raw chunks of the file of a column. -/
def rawChunks (column : Column) (config : BuildConfig) : List Bytes :=
  let docs := (column.header config).docsPerChunk.toNatClampNeg
  match column.stored with
  | .fixed values => Layout.chunked docs FixedWriter.rawChunk values
  | .varying values => Layout.chunked docs (VariableWriter.rawChunk docs) (values.map Bytes.ofText)

/-- The writer takes the column under a configuration: there are not too many values and they are
not too long, the number of documents of a chunk can be rounded where it must be, the compression is
built in, and the parameters pass their check. -/
structure Accepted (column : Column) (config : BuildConfig) (z : Deflater) : Prop where
  size : column.size ≤ Layout.maxInt32
  length : column.entryLength ≤ Layout.maxInt32
  roundable : column.type.isFixedWidth → 3 ≤ config.version →
    column.chunkDocs config ≤ FixedWriter.maxRoundable
  builtin : ∃ c, Compressor.ofType config.compression z = .ok c
  check : (column.parameters config).check = .ok ()

/-- Every start of a chunk can be told in the table of the header. -/
def Reaches (column : Column) (config : BuildConfig) (z : Deflater) : Prop :=
  config.version = 2 → ∀ start ∈ (column.header config).chunkStarts
    ((column.parameters config).encode z) (column.rawChunks config), start ≤ Layout.maxInt32

/-- Columns have values of the width of their type, or of varying length. -/
theorem stored_cases (column : Column) :
    (∃ values, column.stored = .fixed values ∧ column.type.isFixedWidth ∧
      column.size = values.length ∧ ∀ v ∈ values, v.width = column.type.width) ∨
    ∃ values, column.stored = .varying values ∧ column.type.isFixedWidth = false ∧
      column.size = values.length := by
  have all {α : Type} (value : α → FixedValue) (vs : List α) {width : Nat}
      (same : ∀ a, (value a).width = width) : ∀ v ∈ vs.map value, v.width = width :=
    List.forall_mem_map.2 fun a _ => same a
  cases column with
  | int vs => exact .inl ⟨_, rfl, rfl, (List.length_map _).symm, all .int vs fun _ => rfl⟩
  | long vs => exact .inl ⟨_, rfl, rfl, (List.length_map _).symm, all .long vs fun _ => rfl⟩
  | float vs => exact .inl ⟨_, rfl, rfl, (List.length_map _).symm, all .float vs fun _ => rfl⟩
  | double vs => exact .inl ⟨_, rfl, rfl, (List.length_map _).symm, all .double vs fun _ => rfl⟩
  | string vs => exact .inr ⟨vs, rfl, rfl, rfl⟩
  | bytes vs => exact .inr ⟨vs, rfl, rfl, rfl⟩

section Stored

variable {column : Column} {config : BuildConfig}

theorem entrySize_fixed {values : List FixedValue} (fixed : column.stored = .fixed values) :
    column.entrySize = Int32.ofNat column.type.width := by
  rw [entrySize, entryLength, fixed]

theorem chunkDocs_fixed {values : List FixedValue} (fixed : column.stored = .fixed values) :
    column.chunkDocs config =
      Layout.fixedDocsPerChunk column.entrySize config.targetChunkSize config.targetDocs := by
  rw [chunkDocs, fixed]

theorem parameters_fixed {values : List FixedValue} (fixed : column.stored = .fixed values) :
    column.parameters config = FixedWriter.parameters config.compression
      (Int32.ofNat column.size) (column.chunkDocs config) column.entrySize config.version := by
  rw [parameters, fixed]

theorem entrySize_varying {values : List Text} (varying : column.stored = .varying values) :
    column.entrySize = Int32.ofNat (longestLength values) := by
  rw [entrySize, entryLength, varying]

theorem chunkDocs_varying {values : List Text} (varying : column.stored = .varying values) :
    column.chunkDocs config =
      Layout.variableDocsPerChunk column.entrySize config.targetChunkSize config.targetDocs := by
  rw [chunkDocs, varying]

theorem parameters_varying {values : List Text} (varying : column.stored = .varying values) :
    column.parameters config = VariableWriter.parameters config.compression
      (Int32.ofNat column.size) (column.chunkDocs config) column.entrySize config.version := by
  rw [parameters, varying]

end Stored

/-! ## Opening for a column -/

section Opens

variable {column : Column} {config : BuildConfig} {path : Text} {s : Session}
  {z : Deflater}

/-- A writer of values of a width is opened for a column exactly if the column is accepted and the
system opens the path. -/
theorem opens_fixed_iff (logger : Logger) {values : List FixedValue}
    (fixed : column.stored = .fixed values) (isFixed : column.type.isFixedWidth)
    (size : column.size ≤ Layout.maxInt32) :
    (FixedWriter.openAt { core := { logger } } path config.compression (Int32.ofNat column.size)
        (column.chunkDocs config) column.entrySize config.version s z).1 = .ok () ↔
      column.Accepted config z ∧ ∃ opened, s.volume.openWrite path = .ok opened := by
  rw [FixedWriter.openAt_ok_iff (.new logger), ← parameters_fixed fixed]
  constructor
  · rintro ⟨roundable, check, builtin, opens⟩
    have width (type : ColumnType) : type.width ≤ Layout.maxInt32 := by cases type <;> decide
    have length : column.entryLength ≤ Layout.maxInt32 := by
      rw [entryLength, fixed]
      exact width column.type
    exact ⟨⟨size, length, fun _ => roundable, builtin, check⟩, opens⟩
  · rintro ⟨accepted, opens⟩
    exact ⟨accepted.roundable isFixed, accepted.check, accepted.builtin, opens⟩

/-- A writer of values of varying length is opened for a column whose values are not too long
exactly if the column is accepted and the system opens the path. -/
theorem opens_varying_iff (logger : Logger) {values : List Text}
    (varying : column.stored = .varying values) (varies : column.type.isFixedWidth = false)
    (size : column.size ≤ Layout.maxInt32) (length : column.entryLength ≤ Layout.maxInt32) :
    (VariableWriter.openAt { core := { logger } } path config.compression (Int32.ofNat column.size)
        (column.chunkDocs config) column.entrySize config.version s z).1 = .ok () ↔
      column.Accepted config z ∧ ∃ opened, s.volume.openWrite path = .ok opened := by
  rw [VariableWriter.openAt_ok_iff (.new logger), ← parameters_varying varying]
  constructor
  · rintro ⟨check, builtin, opens⟩
    exact ⟨⟨size, length, fun isFixed => by simp [varies] at isFixed, builtin, check⟩, opens⟩
  · rintro ⟨accepted, opens⟩
    exact ⟨accepted.check, accepted.builtin, opens⟩

end Opens

end Column

/-! ## Writing out -/

/-- What a build does when it has opened a writer, or failed to. -/
def Encoder.writeOut {W V : Type} (E : Encoder W V) (values : List V) (entrySize : Int32)
    (logger : Logger) (summary : Summary) : Outcome × W × Session → Outcome × Summary × Session
  | (.error e, _, s) => (.error e, summary, s)
  | (.ok (), w, s) =>
    match E.putAll w s values with
    | (.error e, w, s) =>
      let (closing, _, s) := E.close w s
      (.error e, summary, s.report (Column.closeLine logger closing))
    | (.ok (), w, s) =>
      match E.close w s with
      | (.error e, _, s) => (.error e, summary, s)
      | (.ok (), w, s) => (.ok (), Column.measured summary entrySize (E.core w), s)

/-- Writing out succeeds only if the opening, all puts and the close do. -/
theorem Encoder.writeOut_ok {W V : Type} {E : Encoder W V} {values : List V} {entrySize : Int32}
    {logger : Logger} {summary after : Summary} {r : Outcome × W × Session} {s' : Session}
    (ok : E.writeOut values entrySize logger summary r = (.ok (), after, s')) :
    ∃ w s w₁ s₁ w₂, r = (.ok (), w, s) ∧ E.putAll w s values = (.ok (), w₁, s₁) ∧
      E.close w₁ s₁ = (.ok (), w₂, s') ∧ after = Column.measured summary entrySize (E.core w₂) := by
  obtain ⟨outcome, w, s⟩ := r
  cases outcome with
  | error e => cases ok
  | ok u =>
    unfold Encoder.writeOut at ok
    dsimp only at ok
    rcases put : E.putAll w s values with ⟨outcome, w₁, s₁⟩
    rw [put] at ok
    cases outcome with
    | error e => cases ok
    | ok u =>
      dsimp only at ok
      rcases closed : E.close w₁ s₁ with ⟨outcome, w₂, s₂⟩
      rw [closed] at ok
      cases outcome with
      | error e => cases ok
      | ok u =>
        cases ok
        exact ⟨w, s, w₁, s₁, w₂, rfl, put, closed, rfl⟩

namespace Column

/-- A build of values of a width writes them out with a writer that it opens. -/
theorem writeFixed_eq (values : List FixedValue) (width : Nat) (config : BuildConfig)
    (logger : Logger) (summary : Summary) (s : Session) (z : Deflater) :
    writeFixed values width config logger summary s z =
      FixedWriter.encoder.writeOut values (Int32.ofNat width) logger summary
        (FixedWriter.openAt { core := { logger } } summary.path config.compression summary.docs
          (Layout.fixedDocsPerChunk (Int32.ofNat width) config.targetChunkSize config.targetDocs)
          (Int32.ofNat width) config.version s z) := by
  unfold writeFixed Encoder.writeOut
  dsimp only
  rcases FixedWriter.openAt _ _ _ _ _ _ _ s z with ⟨outcome, w, s⟩
  cases outcome with
  | error e => rfl
  | ok u =>
    dsimp only
    rw [FixedWriter.putAll_eq]
    rcases FixedWriter.encoder.putAll w s values with ⟨outcome, w, s⟩
    cases outcome with
    | error e => rfl
    | ok u =>
      dsimp only
      rw [show FixedWriter.encoder.close w s = w.close s from rfl]
      rcases w.close s with ⟨outcome, w, s⟩
      cases outcome <;> rfl

theorem writeVariable_eq {values : List Text} (config : BuildConfig) (logger : Logger)
    (summary : Summary) (s : Session) (z : Deflater)
    (short : ¬ Layout.maxInt32 < longestLength values) :
    writeVariable values config logger summary s z =
      let longest := Int32.ofNat (longestLength values)
      VariableWriter.encoder.writeOut (values.map Bytes.ofText) longest logger summary
        (VariableWriter.openAt { core := { logger } } summary.path config.compression summary.docs
          (Layout.variableDocsPerChunk longest config.targetChunkSize config.targetDocs)
          longest config.version s z) := by
  unfold writeVariable Encoder.writeOut
  dsimp only
  rw [if_neg short]
  rcases VariableWriter.openAt _ _ _ _ _ _ _ s z with ⟨outcome, w, s⟩
  cases outcome with
  | error e => rfl
  | ok u =>
    dsimp only
    rw [VariableWriter.putAll_eq]
    rcases VariableWriter.encoder.putAll w s (values.map Bytes.ofText) with ⟨outcome, w, s⟩
    cases outcome with
    | error e => rfl
    | ok u =>
      dsimp only
      rw [show VariableWriter.encoder.close w s = w.close s from rfl]
      rcases w.close s with ⟨outcome, w, s⟩
      cases outcome <;> rfl

/-- Whatever comes of writing, the path in the summary stays. -/
theorem path_writeValues (column : Column) (config : BuildConfig) (logger : Logger)
    (summary : Summary) (s : Session) (z : Deflater) :
    (writeValues column config logger summary s z).2.1.path = summary.path := by
  have writeOut {W V : Type} (E : Encoder W V) (values : List V) (entrySize : Int32)
      (r : Outcome × W × Session) :
      (E.writeOut values entrySize logger summary r).2.1.path = summary.path := by
    unfold Encoder.writeOut
    split
    · rfl
    · split
      · rfl
      · split <;> rfl
  unfold writeValues
  cases column.stored with
  | fixed values =>
    simp only [writeFixed_eq]
    exact writeOut ..
  | varying values =>
    by_cases long : Layout.maxInt32 < longestLength values
    · simp only [writeVariable, if_pos long]
    · simp only [writeVariable_eq _ _ _ _ _ long]
      exact writeOut ..

/-! ## Building -/

/-- The summary of a build before anything is written. -/
def planned (name dir : Text) (column : Column) : Summary :=
  { column := name, path := indexPath dir name, type := column.type,
    docs := Int32.ofNat column.size }

/-- What a build of a column that is not too large does: it writes the values, and what is left of a
failure is removed. -/
theorem build_eq {name dir : Text} {column : Column} {config : BuildConfig} {logger : Logger}
    {s : Session} {z : Deflater} {before : Summary} (size : column.size ≤ Layout.maxInt32) :
    build name column dir config logger s z before =
      let plan := planned name dir column
      match writeValues column config logger plan
          (s.report (logger.debug (buildingLine plan config))) z with
      | (.error e, summary, s) => (.error e, summary, cleanUp logger summary.path s)
      | (.ok (), summary, s) => (.ok (), summary, s.report (logger.debug (wroteLine summary))) := by
  rw [build, if_neg (Nat.not_lt.2 size)]
  rfl

end Column
end ForwardIndex
