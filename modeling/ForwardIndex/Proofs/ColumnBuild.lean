import ForwardIndex.Proofs.ColumnPlan
import ForwardIndex.Proofs.VariableRoundTrip

/-!
# Columns that are built

A column whose parameters are accepted is written as a whole: the file at the path of its index is
read as the column, no other file changes, and the summary tells what is in the header of the file.
-/
set_option autoImplicit false
namespace ForwardIndex

namespace Column

/-! ## Reading a column -/

/-- The column of a type with entries in their stored form. -/
def ofEntries (type : ColumnType) (entries : List Text) : Column :=
  let word32 (t : Text) : UInt32 := UInt32.ofNat (Bytes.bigEndian t)
  let word64 (t : Text) : UInt64 := UInt64.ofNat (Bytes.bigEndian t)
  match type with
  | .int => .int (entries.map fun t => (word32 t).toInt32)
  | .long => .long (entries.map fun t => (word64 t).toInt64)
  | .float => .float (entries.map word32)
  | .double => .double (entries.map word64)
  | .string => .string entries
  | .bytes => .bytes entries

/-- A column is known by its type and its entries. -/
theorem ofEntries_entries (column : Column) : ofEntries column.type column.entries = column := by
  have int32 (v : Int32) : Int32.ofNat v.toUInt32.toNat = v := by
    rw [← Int32.toBitVec_inj]
    simp
  have int64 (v : Int64) : Int64.ofNat v.toUInt64.toNat = v := by
    rw [← Int64.toBitVec_inj]
    simp
  cases column <;>
    simp [ofEntries, type, entries, stored, FixedValue.bytes, Function.comp_def, int32, int64]

end Column

/-- The entries of a file of a column of a type, in document order. -/
def IndexFile.entries? (inflate : Bytes → Option Bytes) (f : IndexFile) (type : ColumnType) :
    Option (List Text) :=
  if type.isFixedWidth then f.fixedEntries? inflate else f.variableValues? inflate

/-- The column in a file. -/
def IndexFile.column? (inflate : Bytes → Option Bytes) (f : IndexFile) (type : ColumnType) :
    Option Column :=
  (f.entries? inflate type).map (Column.ofEntries type)

namespace Column

theorem le_longestLength {values : List Text} {v : Text} (h : v ∈ values) :
    v.length ≤ longestLength values := by
  have grows (values : List Text) (n : Nat) :
      n ≤ values.foldl (fun n v => max n v.length) n ∧
      ∀ v ∈ values, v.length ≤ values.foldl (fun n v => max n v.length) n := by
    induction values generalizing n with
    | nil => exact ⟨Nat.le_refl n, nofun⟩
    | cons first rest ih =>
      obtain ⟨least, all⟩ := ih (max n first.length)
      refine ⟨(Nat.le_max_left _ _).trans least, fun v hv => ?_⟩
      obtain rfl | later := List.mem_cons.1 hv
      · exact (Nat.le_max_right _ _).trans least
      · exact all v later
  exact (grows values 0).2 v h

/-! ## Writing a column -/

section Written

variable {column : Column} {config : BuildConfig} {logger : Logger} {summary : Summary}
  {s : Session} {z : Deflater}

theorem toInt_size_of_le (small : column.size ≤ Layout.maxInt32) :
    (Int32.ofNat column.size).toInt = column.size :=
  Int32.toInt_ofNat_of_lt (by unfold Layout.maxInt32 at small; omega)

theorem toInt_size (accepted : column.Accepted config z) :
    (Int32.ofNat column.size).toInt = column.size :=
  toInt_size_of_le accepted.size

theorem toInt_entrySize_of_le (small : column.entryLength ≤ Layout.maxInt32) :
    column.entrySize.toInt = column.entryLength :=
  Int32.toInt_ofNat_of_lt (by unfold Layout.maxInt32 at small; omega)

theorem toInt_entrySize (accepted : column.Accepted config z) :
    column.entrySize.toInt = column.entryLength :=
  toInt_entrySize_of_le accepted.length

theorem header_totalDocs (column : Column) (config : BuildConfig) :
    (column.header config).totalDocs = Int32.ofNat column.size := by
  unfold Column.header parameters
  cases column.stored <;> rfl

theorem header_entrySize (column : Column) (config : BuildConfig) :
    (column.header config).entrySize = column.entrySize := by
  unfold Column.header parameters
  cases column.stored <;> rfl

theorem toNat_size (accepted : column.Accepted config z) :
    (Int32.ofNat column.size).toNatClampNeg = column.size := by
  rw [← Int32.toNat_toInt, toInt_size accepted, Int.toNat_natCast]

theorem toNat_entrySize (accepted : column.Accepted config z) :
    column.entrySize.toNatClampNeg = column.entryLength := by
  rw [← Int32.toNat_toInt, toInt_entrySize accepted, Int.toNat_natCast]

/-- Chunks are not empty. -/
theorem header_docs_pos (accepted : column.Accepted config z) :
    0 < (column.header config).docsPerChunk.toInt :=
  (Parameters.check_ok accepted.check).docs_pos

/-- The header declares as many chunks as the column fills. -/
theorem header_chunkCount (accepted : column.Accepted config z) :
    (column.header config).chunkCount.toInt =
      (column.size ⌈/⌉ (column.header config).docsPerChunk.toNatClampNeg : Nat) := by
  have admitted := Parameters.check_ok accepted.check
  rw [Nat.ceilDiv_eq_add_pred_div, ← toNat_size accepted, ← header_totalDocs column config]
  exact Layout.toInt_chunkCount admitted.totalDocs admitted.docs_pos

/-- Files of a configuration have its version. -/
theorem version_parameters (column : Column) (config : BuildConfig) :
    (column.parameters config).version = config.version := by
  unfold parameters
  cases column.stored <;> rfl

/-- Files of a configuration have its compression. -/
theorem compression_parameters (column : Column) (config : BuildConfig) :
    (column.parameters config).compression = config.compression := by
  unfold parameters
  cases column.stored <;> rfl

/-- The parameters lead to the header of the column. -/
theorem header_parameters (column : Column) (config : BuildConfig) :
    (column.parameters config).header (column.parameters config).compression =
      column.header config := by
  rw [compression_parameters, header]

/-- A column is written out with an encoder: its writer is opened exactly for a column that is
accepted, and then it is at the start of the values; otherwise the volume stays as it is. -/
structure Writes {W V : Type} (E : Encoder W V) (column : Column) (config : BuildConfig)
    (z : Deflater) (path : Text) (v : Volume) (values : List V) (r : Outcome × W × Session) :
    Prop where
  opens : r.1 = .ok () ↔ column.Accepted config z ∧ ∃ opened, v.openWrite path = .ok opened
  refused {e : Failure} {w : W} {s : Session} : r = (.error e, w, s) → s.volume = v
  starts {w : W} {s : Session} : r = (.ok (), w, s) → column.Accepted config z →
    (config.compression = .gzip → z.Documented) →
    ∃ job, E.Starts job path (column.parameters config) z v values (column.rawChunks config) w s

/-- Entries that are too long are turned away before anything is opened. -/
theorem writeValues_long (long : Layout.maxInt32 < column.entryLength) :
    writeValues column config logger summary s z =
      (.error (.entryTooLong column.entryLength), summary, s) := by
  cases h : column.stored with
  | fixed values =>
    have width (type : ColumnType) : type.width ≤ Layout.maxInt32 := by cases type <;> decide
    rw [entryLength, h] at long
    exact absurd long (Nat.not_lt.2 (width column.type))
  | varying values =>
    have same : column.entryLength = longestLength values := by rw [entryLength, h]
    rw [same] at long ⊢
    simp only [writeValues, h, writeVariable, if_pos long]

/-- One of two encoders writes a column out, by how its values are stored. -/
theorem writeValues_eq (config : BuildConfig) (logger : Logger) (s : Session) (z : Deflater)
    (size : column.size ≤ Layout.maxInt32) (length : column.entryLength ≤ Layout.maxInt32)
    (docs : summary.docs = Int32.ofNat column.size) :
    ∃ (W V : Type) (E : Encoder W V) (values : List V) (r : Outcome × W × Session),
      Writes E column config z summary.path s.volume values r ∧
      writeValues column config logger summary s z =
        E.writeOut values column.entrySize logger summary r := by
  obtain ⟨values, fixed, isFixed, total, widths⟩ | ⟨values, varying, varies, total⟩ :=
    column.stored_cases
  · refine ⟨_, _, FixedWriter.encoder, values, _, ⟨opens_fixed_iff logger fixed isFixed size,
      FixedWriter.openAt_refused, fun opened accepted doc => ?_⟩, ?_⟩
    · obtain ⟨job, start⟩ := FixedWriter.openAt_starts opened doc ((toNat_size accepted).trans total)
        (by rwa [toNat_entrySize accepted, entryLength, fixed])
      refine ⟨job, ?_⟩
      simp only [rawChunks, header, parameters_fixed fixed, fixed]
      exact start
    · simp only [writeValues, fixed]
      rw [writeFixed_eq, docs, ← entrySize_fixed fixed, ← chunkDocs_fixed fixed]
  · have longest : column.entryLength = longestLength values := by rw [entryLength, varying]
    refine ⟨_, _, VariableWriter.encoder, values.map Bytes.ofText, _,
      ⟨opens_varying_iff logger varying varies size length, VariableWriter.openAt_refused,
        fun opened accepted doc => ?_⟩, ?_⟩
    · obtain ⟨job, start⟩ := VariableWriter.openAt_starts opened doc
        ((toNat_size accepted).trans total) (by
          rw [toNat_entrySize accepted, longest]
          exact fun v hv => le_longestLength hv)
      refine ⟨job, ?_⟩
      simp only [rawChunks, header, parameters_varying varying, varying]
      exact start
    · have short : ¬ Layout.maxInt32 < longestLength values := Nat.not_lt.2 (longest ▸ length)
      simp only [writeValues, varying]
      rw [writeVariable_eq _ _ _ _ _ short]
      dsimp only
      rw [docs, ← entrySize_varying varying, ← chunkDocs_varying varying]

/-- A column whose values were all written was accepted, at a path that the system opens, and its
job is completed. -/
theorem writeValues_completes {after : Summary} {s' : Session}
    (ok : writeValues column config logger summary s z = (.ok (), after, s'))
    (size : column.size ≤ Layout.maxInt32) (docs : summary.docs = Int32.ofNat column.size) :
    column.Accepted config z ∧ (∃ opened, s.volume.openWrite summary.path = .ok opened) ∧
      ((config.compression = .gzip → z.Documented) →
        ∃ job core, after = measured summary column.entrySize core ∧
          Job.Completes job summary.path (column.parameters config) z (column.rawChunks config)
            s.volume core s'.volume) := by
  have length : column.entryLength ≤ Layout.maxInt32 := by
    by_contra long
    cases (writeValues_long (Nat.not_le.1 long)).symm.trans ok
  obtain ⟨W, V, E, values, r, writes, same⟩ := writeValues_eq config logger s z size length docs
  rw [same] at ok
  obtain ⟨w, s₁, w₁, s₂, w₂, opened, put, closed, measured⟩ := Encoder.writeOut_ok ok
  obtain ⟨accepted, opens⟩ := writes.opens.1 (congrArg Prod.fst opened)
  refine ⟨accepted, opens, fun doc => ?_⟩
  obtain ⟨job, start⟩ := writes.starts opened accepted doc
  have completes := start.completes put (congrArg Prod.fst closed)
  rw [closed] at completes
  exact ⟨job, _, measured, completes⟩

/-- A column that is accepted is written where nothing befalls the file. -/
theorem writeValues_ok (logger : Logger) (summary : Summary) (s : Session)
    (accepted : column.Accepted config z) (doc : config.compression = .gzip → z.Documented)
    (reaches : column.Reaches config z) (docs : summary.docs = Int32.ofNat column.size)
    (file : s.volume.LeadsToFile summary.path)
    (opens : ∃ opened, s.volume.openWrite summary.path = .ok opened) (calm : s.volume.WritesGoOn)
    (closes : s.volume.Closes) : (writeValues column config logger summary s z).1 = .ok () := by
  obtain ⟨W, V, E, values, ⟨outcome, w, s₁⟩, writes, same⟩ := writeValues_eq config logger s z
    accepted.size accepted.length docs
  obtain rfl : outcome = .ok () := writes.opens.2 ⟨accepted, opens⟩
  obtain ⟨job, start⟩ := writes.starts rfl accepted doc
  obtain ⟨w₁, s₂, w₂, s₃, put, closed, -⟩ := start.succeeds file calm closes fun narrow => by
    rw [header_parameters]
    exact reaches (by rwa [version_parameters] at narrow)
  rw [same, Encoder.writeOut, put]
  dsimp only
  rw [closed]

/-- The file of the raw chunks of a column is read as the column. -/
theorem column?_rawChunks {job : Job} {inflate : Bytes → Option Bytes} {f : IndexFile}
    (accepted : column.Accepted config z) (blank : job.blank = column.header config)
    (allows : job.Allows (column.rawChunks config))
    (reads : job.ReadsAs inflate (column.rawChunks config) f) :
    f.column? inflate column.type = some column := by
  have positive : 0 < (column.header config).docsPerChunk.toNatClampNeg := by
    rw [← Int32.toNat_toInt]
    exact Int.pos_iff_toNat_pos.1 (header_docs_pos accepted)
  have count : f.totalDocs.toInt = column.size := by
    rw [reads.totalDocs, blank, header_totalDocs, toInt_size accepted]
  have entries : f.entries? inflate column.type = some column.entries := by
    have chunks := reads.chunks
    unfold IndexFile.entries?
    unfold rawChunks at allows chunks
    obtain ⟨values, fixed, isFixed, size, widths⟩ | ⟨values, varying, varies, size⟩ :=
      column.stored_cases
    · have width : f.entrySize.toNatClampNeg = column.type.width := by
        rw [reads.entrySize, blank, header_entrySize, toNat_entrySize accepted, entryLength, fixed]
      rw [fixed] at chunks
      rw [if_pos isFixed, Column.entries, fixed]
      refine FixedWriter.fixedEntries?_chunked positive ?_ ?_ (by rw [count, size]) chunks
      · rw [width]
        exact Nat.pos_of_ne_zero (by simpa [ColumnType.isFixedWidth] using isFixed)
      · rwa [width]
    · rw [varying] at chunks allows
      rw [varies, Column.entries, varying]
      have texts : (values.map Bytes.ofText).map Bytes.toText = values := by
        simp [Function.comp_def]
      refine (VariableWriter.variableValues?_chunked positive ?_ ?_ ?_ chunks).trans
        (congrArg some texts)
      · rw [reads.docsPerChunk, blank]
        exact Layout.toInt_eq_natCast positive
      · rw [count, size, List.length_map]
      · intro chunk hc
        exact Nat.lt_of_le_of_lt ((allows.small chunk hc).trans job.small) (by decide)
  rw [IndexFile.column?, entries, Option.map_some, ofEntries_entries]

end Written

/-! ## The summary -/

/-- A summary that agrees with a column and the file it was written to. -/
structure Describes (summary : Summary) (name path : Text) (column : Column) (content : Bytes)
    (f : IndexFile) : Prop where
  name : summary.column = name
  path : summary.path = path
  type : summary.type = column.type
  docs : summary.docs.toInt = column.size
  totalDocs : summary.docs = f.totalDocs
  docsPerChunk : summary.docsPerChunk = f.docsPerChunk
  chunks : summary.chunks = f.chunkCount
  entrySize : summary.entrySize = f.entrySize
  positive : 0 < summary.docsPerChunk.toInt
  count : summary.chunks.toInt = (column.size ⌈/⌉ summary.docsPerChunk.toNatClampNeg : Nat)
  length : summary.entrySize.toInt = column.entryLength
  fileSize : summary.fileSize = content.size

/-- What is measured when a job is completed agrees with its file. -/
theorem describes_measured {job : Job} {core : ChunkWriter} {name dir : Text} {column : Column}
    {config : BuildConfig} {z : Deflater} {inflate : Bytes → Option Bytes} {v v' : Volume}
    {content : Bytes} {f : IndexFile} (accepted : column.Accepted config z)
    (completes : job.Completes (indexPath dir name) (column.parameters config) z
      (column.rawChunks config) v core v')
    (view : content.toText = job.contents (column.rawChunks config))
    (reads : job.ReadsAs inflate (column.rawChunks config) f) :
    Describes (measured (planned name dir column) column.entrySize core) name
      (indexPath dir name) column content f := by
  have blank : job.blank = column.header config :=
    completes.opens.blank.trans (header_parameters column config)
  have header : core.header = job.header (column.rawChunks config) := completes.finished.header
  have docs : core.header.docsPerChunk = (column.header config).docsPerChunk := by
    rw [header, ← blank]
    rfl
  have chunks : Int32.ofNat core.header.recorded = (column.header config).chunkCount := by
    have count := header_chunkCount accepted
    rw [header, job.recorded_header, completes.all, blank, Header.capacity,
      ← Int32.toNat_toInt, count, Int.toNat_natCast, ← Int32.toInt_inj, count]
    have small := (column.header config).chunkCount.toInt_lt
    exact Int32.toInt_ofNat_of_lt (by omega)
  refine ⟨rfl, rfl, rfl, toInt_size accepted, ?_, ?_, ?_, ?_, ?_, ?_, toInt_entrySize accepted, ?_⟩
  · rw [reads.totalDocs, blank, header_totalDocs]
    rfl
  · rw [reads.docsPerChunk, blank, ← docs]
    rfl
  · rw [reads.chunkCount, blank, ← chunks]
    rfl
  · rw [reads.entrySize, blank, header_entrySize]
    rfl
  · rw [measured, docs]
    exact header_docs_pos accepted
  · rw [measured, chunks, docs]
    exact header_chunkCount accepted
  · rw [← Bytes.length_toText, view, completes.finished.allows.length_contents,
      ← completes.finished.cursor]
    rfl

/-! ## A build that succeeds -/

section Built

variable {name dir : Text} {column : Column} {config : BuildConfig} {logger : Logger} {s : Session}
  {z : Deflater} {before : Summary}

/-- A build that succeeds has written all values. -/
theorem writeValues_of_build {after : Summary} {s' : Session}
    (ok : build name column dir config logger s z before = (.ok (), after, s')) :
    column.size ≤ Layout.maxInt32 ∧ ∃ s₁, s'.volume = s₁.volume ∧
      writeValues column config logger (planned name dir column) (s.report
        (logger.debug (buildingLine (planned name dir column) config))) z = (.ok (), after, s₁) := by
  have size : column.size ≤ Layout.maxInt32 := by
    by_contra large
    rw [build, if_pos (Nat.not_le.1 large)] at ok
    cases ok
  refine ⟨size, ?_⟩
  rw [build_eq size] at ok
  dsimp only at ok
  split at ok
  · cases ok
  · next summary s₁ writes =>
    cases ok
    exact ⟨s₁, rfl, writes⟩

/-- A build that succeeds was of a column that is accepted, at a path that the system opens. -/
theorem build_written (ok : (build name column dir config logger s z before).1 = .ok ()) :
    column.Accepted config z ∧
      ∃ opened, s.volume.openWrite (indexPath dir name) = .ok opened := by
  rcases built : build name column dir config logger s z before with ⟨outcome, after, s'⟩
  rw [built] at ok
  obtain rfl : outcome = .ok () := ok
  obtain ⟨size, s₁, -, written⟩ := writeValues_of_build built
  obtain ⟨accepted, opens, -⟩ := writeValues_completes written size rfl
  exact ⟨accepted, opens⟩

/-- A build that succeeds, at a path that led to a file or nowhere, leaves a file there that is read
as the column, and a summary that agrees with it. No other file changes. -/
theorem build_whole {inflate : Bytes → Option Bytes}
    (ok : (build name column dir config logger s z before).1 = .ok ())
    (doc : config.compression = .gzip → z.Documented)
    (undone : config.compression = .gzip → z.UndoneBy inflate)
    (file : s.volume.LeadsToFile (indexPath dir name)) :
    let r := build name column dir config logger s z before
    ∃ place content f, r.2.2.volume.find (indexPath dir name) = .ok place ∧
      r.2.2.volume.node? place = some (.file content) ∧
      (∀ q, q ≠ place → r.2.2.volume.node? q = s.volume.node? q) ∧
      IndexFile.parse content = some f ∧ f.column? inflate column.type = some column ∧
      Describes r.2.1 name (indexPath dir name) column content f := by
  rcases built : build name column dir config logger s z before with ⟨outcome, after, s'⟩
  rw [built] at ok
  obtain rfl : outcome = .ok () := ok
  obtain ⟨size, s₁, same, written⟩ := writeValues_of_build built
  obtain ⟨accepted, -, stored⟩ := writeValues_completes written size rfl
  obtain ⟨job, core, rfl, completes⟩ := stored doc
  obtain ⟨p, place, follows⟩ := completes.opens.place file
  obtain ⟨content, node, view⟩ := completes.finished.file p place
  have undoes := completes.opens.undoneBy (by rwa [compression_parameters])
  obtain ⟨f, parsed, reads⟩ :=
    undoes.parse_contents completes.finished.allows completes.all view
  have blank : job.blank = column.header config :=
    completes.opens.blank.trans (header_parameters column config)
  have path : job.path = indexPath dir name := completes.opens.path
  dsimp only
  rw [same]
  exact ⟨p, content, f, path ▸ completes.finished.find place, node,
    fun q hq => (completes.finished.others p place q hq).trans (follows.others q hq), parsed,
    column?_rawChunks accepted blank completes.finished.allows reads,
    describes_measured accepted completes view reads⟩

/-- A build of a column that is accepted, at a path that leads to a file or nowhere, where opening,
writing and closing the file go well, succeeds. The file is read as the column, no other file
changes, and the summary agrees with the file. In version 2 the starts of the chunks must fit the
table. -/
theorem build_ok {inflate : Bytes → Option Bytes} (logger : Logger) (before : Summary)
    (accepted : column.Accepted config z) (doc : config.compression = .gzip → z.Documented)
    (undone : config.compression = .gzip → z.UndoneBy inflate) (reaches : column.Reaches config z)
    (file : s.volume.LeadsToFile (indexPath dir name))
    (opens : ∃ opened, s.volume.openWrite (indexPath dir name) = .ok opened)
    (calm : s.volume.WritesGoOn) (closes : s.volume.Closes) :
    ∃ summary s' place content f,
      build name column dir config logger s z before = (.ok (), summary, s') ∧
      s'.volume.find (indexPath dir name) = .ok place ∧
      s'.volume.read (indexPath dir name) = .bytes content ∧
      (∀ q, q ≠ place → s'.volume.node? q = s.volume.node? q) ∧
      IndexFile.parse content = some f ∧ f.column? inflate column.type = some column ∧
      Describes summary name (indexPath dir name) column content f := by
  have ok : (build name column dir config logger s z before).1 = .ok () := by
    have written := writeValues_ok logger (planned name dir column)
      (s.report (logger.debug (buildingLine (planned name dir column) config))) accepted doc reaches
      rfl file opens calm closes
    rw [build_eq accepted.size]
    dsimp only
    split
    · next writes => rw [writes] at written; exact written
    · rfl
  obtain ⟨place, content, f, find, node, others, parsed, decoded, describes⟩ :=
    build_whole ok doc undone file
  refine ⟨_, _, place, content, f, Prod.ext ok rfl, find, ?_, others, parsed, decoded, describes⟩
  rw [Volume.read, find]
  simp only [node]

end Built

/-- A column of three texts. -/
def threeTexts : Column := .string [[97], [], [98, 99]]

/-- Compressed chunks of one document each. -/
def singly : BuildConfig := { compression := .gzip, version := 3, targetDocs := 1 }

theorem build_ok_threeTexts : threeTexts.Accepted singly .builtin ∧
    threeTexts.Reaches singly .builtin ∧
    ∃ summary s' content f,
      build [99] threeTexts [] singly { level := 0 } {} .builtin {} = (.ok (), summary, s') ∧
      s'.volume.read "c.sv.raw.fwd" = .bytes content ∧ IndexFile.parse content = some f ∧
      f.column? Zlib.decompress .string = some threeTexts ∧ summary.entrySize.toInt = 2 ∧
      summary.fileSize = content.size := by
  have accepted : threeTexts.Accepted singly .builtin :=
    ⟨by decide, by decide, by decide, ⟨_, rfl⟩, rfl⟩
  have reaches : threeTexts.Reaches singly .builtin := nofun
  have file : ({} : Session).volume.LeadsToFile (indexPath [] [99]) := by
    intro p h
    cases h
  obtain ⟨summary, s', place, content, f, built, _, read, _, parsed, decoded, describes⟩ :=
    build_ok { level := 0 } {} accepted (fun _ => Deflater.builtin_documented)
      (fun _ => Deflater.builtin_undoneBy) reaches file ⟨_, rfl⟩ (fun _ => List.forall_mem_nil _)
      fun _ => rfl
  exact ⟨accepted, reaches, summary, s', content, f, built, read, parsed, decoded, describes.length,
    describes.fileSize⟩

end Column
end ForwardIndex
