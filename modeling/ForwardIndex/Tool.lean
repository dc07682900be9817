import ForwardIndex.Column.Reader
import ForwardIndex.Column.Source
import ForwardIndex.CommandLine
import ForwardIndex.Report
import ForwardIndex.SizeText

/-!
# The index builder

The command-line tool reads columns from text files and builds the index of each in an output
directory. Every column is a task of its own that neither needs nor disturbs another; errors are
reported in the order of the command line after all tasks are done. `run` is the whole program as a
function of its words and the volume; the display of its progress, which tells the time, is left
out.
-/
set_option autoImplicit false
namespace ForwardIndex.Tool

def toolName : Text := "chunkfwdbuild"

def versionNumber : Text := "0.1.0"

/-- The options of the program, line by line. -/
def optionLines : List String :=
  ["",
    "Required:",
    "  -col <name>:<TYPE>:<path>  Column to index (repeatable)",
    "                             TYPE: INT, LONG, FLOAT, DOUBLE, STRING, BYTES",
    "                             path: text file, one value per line",
    "                             (BYTES values are hex encoded)",
    "  -o <dir>                   Output directory",
    "",
    "Options:",
    "  -compression <type>        PASS_THROUGH or GZIP (default: PASS_THROUGH)",
    "  -version <2|3|4|5>         Raw format version (default: 2)",
    "                             4 and 5 are valid for fixed-width types only",
    "  -max_chunk_size <size>     Target max uncompressed chunk size",
    "                             Accepts K, M, G suffixes (default: 1M)",
    "  -docs_per_chunk <int>      Target docs per chunk (default: 1000)",
    "  -report <path|->           Write a JSON build report ('-' = stdout)",
    "  -threads <int>             Number of threads (default: all cores)",
    "  -v, --verbose              Verbose output",
    "  -h, --help                 Show this help",
    "  --version                  Show version"]

/-- How to call the program of a name. -/
def usage (program : Text) : Text :=
  "Usage: " ++ program.untilNul ++ " [options]\n" ++ Text.unlines (optionLines.map Text.lit)

/-- The line that answers `--version`, if the key is there. -/
def versionLine? (c : CommandLine) (name : Text) : Option Text :=
  if c.has "--version" then some (name.untilNul ++ " " ++ versionNumber ++ "\n") else none

/-- The logger that a command line asks for. -/
def loggerOf (c : CommandLine) : Logger :=
  { level := if c.isVerbose then Logger.debugLevel else Logger.infoLevel }

/-- Why the program stops before it builds anything. -/
inductive Refusal where
  | badColumns (failure : Failure)
  | noColumn
  | noDirectory
  | unknownCompression (name : Text)
  | versionOutOfRange
  | badChunkSize (text : Text)
  | badDocsPerChunk
  | directory (path : Text) (reason : SystemError)
  deriving DecidableEq

namespace Refusal

def message : Refusal → Text
  | badColumns failure => failure.message.untilNul
  | noColumn => "at least one -col is required"
  | noDirectory => "-o is required"
  | unknownCompression name => "unknown -compression '" ++ name.untilNul ++ "'"
  | versionOutOfRange =>
    "-version must be between " ++ Text.ofInt Layout.minVersion.toInt ++ " and " ++
      Text.ofInt Layout.maxVersion.toInt
  | badChunkSize text => "invalid -max_chunk_size '" ++ text.untilNul ++ "' (1 byte to 2G)"
  | badDocsPerChunk => "-docs_per_chunk must be >= 1"
  | directory path reason =>
    "cannot create output directory '" ++ path.untilNul ++ "': " ++ reason.text

/-- The usage is shown after the message. -/
def showsUsage : Refusal → Bool
  | noColumn | noDirectory => true
  | _ => false

end Refusal

def errorLine (message : Text) : Text := "Error: " ++ message.untilNul ++ "\n"

/-! ## What a command line asks for -/

/-- The columns, the directory and the configuration of a run. -/
structure Job where
  columns : List Column.Source
  directory : Text
  config : BuildConfig
  deriving DecidableEq

def compressionOf (c : CommandLine) : Except Refusal Compression :=
  match c.value? "-compression" with
  | none => .ok .passThrough
  | some name =>
    match Compression.ofName? name with
    | some type => .ok type
    | none => .error (.unknownCompression name)

def versionOf (c : CommandLine) : Except Refusal Int32 :=
  let version := c.integer "-version" Layout.defaultVersion
  if version < Layout.minVersion ∨ Layout.maxVersion < version then .error .versionOutOfRange
  else .ok version

def chunkSizeOf (c : CommandLine) : Except Refusal Int64 :=
  match c.value? "-max_chunk_size" with
  | none => .ok Layout.defaultTargetChunkSize
  | some text =>
    let size := SizeText.parse text
    if size = 0 ∨ Layout.maxInt32 < size then .error (.badChunkSize text)
    else .ok (Int64.ofNat size)

def targetDocsOf (c : CommandLine) : Except Refusal Int32 :=
  let docs := c.integer "-docs_per_chunk" Layout.defaultTargetDocs
  if docs < 1 then .error .badDocsPerChunk else .ok docs

def configOf (c : CommandLine) : Except Refusal BuildConfig := do
  let compression ← compressionOf c
  let version ← versionOf c
  let targetChunkSize ← chunkSizeOf c
  let targetDocs ← targetDocsOf c
  return { compression, version, targetChunkSize, targetDocs }

/-- The job of a command line. -/
def jobOf (c : CommandLine) : Except Refusal Job :=
  match Column.Source.parseAll (c.values "-col") with
  | (.error e, _) => .error (.badColumns e)
  | (.ok (), []) => .error .noColumn
  | (.ok (), columns) =>
    let directory := c.value "-o" []
    if directory = [] then .error .noDirectory
    else
      match configOf c with
      | .error r => .error r
      | .ok config => .ok { columns, directory, config }

/-! ## Tasks -/

/-- The task of a column: read it, build its index. -/
def buildColumn (job : Job) (logger : Logger) (source : Column.Source) (s : Session)
    (z : Deflater) : Outcome × Summary × Session :=
  match Column.read source.type source.path s.volume with
  | (.error e, _) => (.error e, {}, s)
  | (.ok (), values) =>
    Column.build source.name values job.directory job.config (logger.withTag source.name) s z {}

/-- What became of a column. -/
structure Result where
  source : Column.Source
  outcome : Outcome
  summary : Summary
  deriving DecidableEq

/-- Runs tasks one after the other. -/
def buildAll (job : Job) (logger : Logger) (z : Deflater) :
    List Column.Source → Session → List Result × Session
  | [], s => ([], s)
  | source :: rest, s =>
    let (outcome, summary, s) := buildColumn job logger source s z
    let (results, s) := buildAll job logger z rest s
    (⟨source, outcome, summary⟩ :: results, s)

/-- The line about a column that failed. -/
def Result.errorLine? (r : Result) : Option Text :=
  match r.outcome with
  | .ok () => none
  | .error e =>
    some (errorLine ("column '" ++ r.source.name.untilNul ++ "': " ++ e.render.untilNul))

/-! ## The program -/

/-- How the program ends. -/
structure Ending where
  exitCode : Nat
  session : Session
  /-- What was written to the standard output. -/
  output : Text := []

def columnsLine (job : Job) : Text :=
  "Columns: " ++ Text.ofNat job.columns.length ++ ", output: " ++ job.directory.untilNul

def parametersLine (job : Job) (threads : Int32) : Text :=
  "Parameters: version=" ++ Text.ofInt job.config.version.toInt ++
    ", compression=" ++ job.config.compression.name ++
    ", max_chunk_size=" ++ Text.ofInt job.config.targetChunkSize.toInt ++
    ", docs_per_chunk=" ++ Text.ofInt job.config.targetDocs.toInt ++
    ", threads=" ++ Text.ofInt threads.toInt

def summaryLine (s : Summary) : Text :=
  s.column.untilNul ++ ": " ++ Text.ofInt s.docs.toInt ++ " docs, " ++
    Text.ofInt s.chunks.toInt ++ " chunk(s), " ++ Text.ofNat s.fileSize ++ " bytes -> " ++
    s.path.untilNul

/-- Writes the report if one is asked for, after all columns were built. -/
def finish (c : CommandLine) (job : Job) (logger : Logger) (results : List Result) (s : Session)
    (print : Report.Value → Text) : Ending :=
  let summaries := results.map (·.summary)
  let s := s.report (summaries.flatMap fun summary => logger.info (summaryLine summary))
  let done := logger.info "All columns completed successfully."
  match c.value? "-report" with
  | none => ⟨0, s.report done, []⟩
  | some path =>
    match Report.write ⟨job.config, summaries⟩ path s.volume print with
    | (.error e, output, volume) =>
      ⟨1, { s with volume }.report (errorLine e.message), output⟩
    | (.ok (), output, volume) => ⟨0, { s with volume }.report done, output⟩

/-- Makes the directory and builds all columns of a job. -/
def perform (c : CommandLine) (job : Job) (processors : Int32) (s : Session) (z : Deflater)
    (print : Report.Value → Text) : Ending :=
  let logger := loggerOf c
  match s.volume.createDirectories job.directory with
  | (some e, volume) =>
    ⟨1, { s with volume }.report (errorLine (Refusal.directory job.directory e).message), []⟩
  | (none, volume) =>
    let s := { s with volume }.report (logger.info (columnsLine job))
    let s := s.report (logger.info (parametersLine job (c.threads "-threads" processors)))
    let (results, s) := buildAll job logger z job.columns s
    if results.all (·.outcome == .ok ()) then finish c job logger results s print
    else ⟨1, s.report (results.filterMap Result.errorLine?).flatten, []⟩

/-- The program: the words with its own name first, the number of processors, the volume, and the
libraries that compress chunks and print a report. -/
def run (words : List Text) (processors : Int32) (v : Volume) (z : Deflater := .builtin)
    (print : Report.Value → Text := Report.Value.inline) : Ending :=
  let s : Session := { volume := v }
  let program := words.headD []
  let c := CommandLine.ofWords words.tail
  match versionLine? c toolName with
  | some line => ⟨0, s.report line, []⟩
  | none =>
    if words.length < 2 then ⟨1, s.report (usage program), []⟩
    else if c.has "-h" ∨ c.has "--help" then ⟨0, s.report (usage program), []⟩
    else
      match jobOf c with
      | .error r =>
        let line := errorLine r.message
        ⟨1, s.report (if r.showsUsage then line ++ usage program else line), []⟩
      | .ok job => perform c job processors s z print

end ForwardIndex.Tool
