import ForwardIndex.Column.Basic
import ForwardIndex.FixedWriter
import ForwardIndex.VariableWriter

/-!
# Building a column's index

`Column.build` writes the forward index of one column into a directory and sums up what it wrote.
When it fails, what stands at the path of the index is removed.
-/
set_option autoImplicit false
namespace ForwardIndex

/-- How columns are indexed. -/
structure BuildConfig where
  compression : Compression := .passThrough
  version : Int32 := Layout.defaultVersion
  targetChunkSize : Int64 := Layout.defaultTargetChunkSize
  targetDocs : Int32 := Layout.defaultTargetDocs
  deriving DecidableEq

/-- What was built. -/
structure Summary where
  column : Text := []
  path : Text := []
  type : ColumnType := .int
  docs : Int32 := 0
  docsPerChunk : Int32 := 0
  chunks : Int32 := 0
  /-- The size of an entry, or of the longest one. -/
  entrySize : Int32 := 0
  fileSize : Nat := 0
  deriving DecidableEq

namespace Column

/-- A name below a directory, unless the name is a path from the root. -/
def joinPath (dir name : Text) : Text :=
  if name.head? = some 47 ∨ dir = [] then name
  else if dir.getLast? = some 47 then dir ++ name
  else dir ++ [47] ++ name

def indexExtension : Text := ".sv.raw.fwd"

/-- The path of a column's index. -/
def indexPath (dir column : Text) : Text := joinPath dir (column ++ indexExtension)

/-- What a finished file adds to the summary. -/
def measured (summary : Summary) (entrySize : Int32) (core : ChunkWriter) : Summary :=
  { summary with
    entrySize
    docsPerChunk := core.header.docsPerChunk
    chunks := Int32.ofNat core.header.recorded
    fileSize := core.cursor }

/-- The line about a failure of a close that follows another failure. -/
def closeLine (logger : Logger) : Outcome → Text
  | .ok () => []
  | .error e => logger.debug ("close after failure: " ++ e.render.untilNul)

/-- Writes values of a fixed width. -/
def writeFixed (values : List FixedValue) (width : Nat) (config : BuildConfig) (logger : Logger)
    (summary : Summary) (s : Session) (z : Deflater) : Outcome × Summary × Session :=
  let entrySize := Int32.ofNat width
  let docs := Layout.fixedDocsPerChunk entrySize config.targetChunkSize config.targetDocs
  let writer : FixedWriter := { core := { logger } }
  match writer.openAt summary.path config.compression summary.docs docs entrySize config.version
      s z with
  | (.error e, _, s) => (.error e, summary, s)
  | (.ok (), writer, s) =>
    match writer.putAll values s with
    | (.error e, writer, s) =>
      let (closing, _, s) := writer.close s
      (.error e, summary, s.report (closeLine logger closing))
    | (.ok (), writer, s) =>
      match writer.close s with
      | (.error e, _, s) => (.error e, summary, s)
      | (.ok (), writer, s) => (.ok (), measured summary entrySize writer.core, s)

/-- The length of the longest text. -/
def longestLength (values : List Text) : Nat := values.foldl (fun n v => max n v.length) 0

/-- Writes values of varying width. -/
def writeVariable (values : List Text) (config : BuildConfig) (logger : Logger)
    (summary : Summary) (s : Session) (z : Deflater) : Outcome × Summary × Session :=
  let longest := longestLength values
  if Layout.maxInt32 < longest then (.error (.entryTooLong longest), summary, s)
  else
    let entrySize := Int32.ofNat longest
    let docs := Layout.variableDocsPerChunk entrySize config.targetChunkSize config.targetDocs
    let writer : VariableWriter := { core := { logger } }
    match writer.openAt summary.path config.compression summary.docs docs entrySize config.version
        s z with
    | (.error e, _, s) => (.error e, summary, s)
    | (.ok (), writer, s) =>
      match writer.putAll values s with
      | (.error e, writer, s) =>
        let (closing, _, s) := writer.close s
        (.error e, summary, s.report (closeLine logger closing))
      | (.ok (), writer, s) =>
        match writer.close s with
        | (.error e, _, s) => (.error e, summary, s)
        | (.ok (), writer, s) => (.ok (), measured summary entrySize writer.core, s)

/-- Removes what stands at the path of an index that could not be built. -/
def cleanUp (logger : Logger) (path : Text) (s : Session) : Session :=
  match s.volume.remove path with
  | .ok volume => { s with volume }
  | .error e =>
    s.report (logger.warn ("cannot remove partial file '" ++ path.untilNul ++ "': " ++ e.text))

def buildingLine (summary : Summary) (config : BuildConfig) : Text :=
  "building '" ++ summary.path.untilNul ++ "' (" ++ summary.type.name ++ ", " ++
    Text.ofInt summary.docs.toInt ++ " docs, version " ++ Text.ofInt config.version.toInt ++ ", " ++
    config.compression.name ++ ")"

def wroteLine (summary : Summary) : Text :=
  "wrote '" ++ summary.path.untilNul ++ "': " ++ Text.ofInt summary.chunks.toInt ++
    " chunk(s) of " ++ Text.ofInt summary.docsPerChunk.toInt ++ " docs, " ++
    Text.ofNat summary.fileSize ++ " bytes"

/-- Writes the values of a column in the way in which they are stored. -/
def writeValues (column : Column) (config : BuildConfig) (logger : Logger)
    (summary : Summary) (s : Session) (z : Deflater) : Outcome × Summary × Session :=
  match column.stored with
  | .fixed values => writeFixed values column.type.width config logger summary s z
  | .varying values => writeVariable values config logger summary s z

/-- Builds the index of a column with a name in a directory. A column that is too long is turned
away at once and leaves the caller the summary from before. -/
def build (name : Text) (column : Column) (dir : Text) (config : BuildConfig)
    (logger : Logger) (s : Session) (z : Deflater := .builtin) (before : Summary := {}) :
    Outcome × Summary × Session :=
  if Layout.maxInt32 < column.size then (.error (.tooManyDocs name column.size), before, s)
  else
    let summary : Summary :=
      { column := name, type := column.type, docs := Int32.ofNat column.size,
        path := indexPath dir name }
    let s := s.report (logger.debug (buildingLine summary config))
    match writeValues column config logger summary s z with
    | (.error e, summary, s) => (.error e, summary, cleanUp logger summary.path s)
    | (.ok (), summary, s) => (.ok (), summary, s.report (logger.debug (wroteLine summary)))

end Column
end ForwardIndex
