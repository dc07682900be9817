import ForwardIndex.Tool

/-!
# Command line

The outer layer of the index builder. It copies the files that a command line names into a volume,
runs the tool on it with the libraries that come with the program, and puts the indexes and the
report where the tool put them.
-/
set_option autoImplicit false
namespace ForwardIndex.CommandLine

/-- A path as the system takes it. -/
def systemPath (path : Text) : String := (String.fromUTF8? path.untilNul.toByteArray).getD ""

/-- Copies a file into a volume; one that cannot be read is left out. -/
def mount (v : Volume) (path : Text) : IO Volume := do
  try
    let content ← IO.FS.readBinFile (systemPath path)
    let parent := ((path.reverse.dropWhile (· != 47)).drop 1).reverse
    return (FileHandle.create path content (v.createDirectories parent).2).2
  catch _ => return v

/-- Puts a file of a volume where it belongs, and takes away what the volume does not have. -/
def publish (v : Volume) (path : Text) : IO Unit := do
  try
    match v.read path with
    | .bytes content => IO.FS.writeBinFile (systemPath path) content
    | _ => IO.FS.removeFile (systemPath path)
  catch _ => return

/-- The files that a job reads, its directory's name included: a file may be in its way. -/
def inputs (job : Tool.Job) : List Text := job.directory :: job.columns.map (·.path)

/-- The files that a job makes. -/
def indexes (job : Tool.Job) : List Text :=
  job.columns.map fun source => Column.indexPath job.directory source.name

/-- The number of processors, at least one. -/
def processors : IO Nat := do
  try
    let lines := (← IO.FS.lines "/proc/cpuinfo").toList
    return max 1 (lines.countP (·.startsWith "processor"))
  catch _ => return 1

/-- Runs the tool on copies of the files that the words name. -/
def runWords (words : List Text) : IO Tool.Ending := do
  let run := fun v =>
    return Tool.run words (Int32.ofNat (← processors)) v .builtin Report.Value.inline
  let c := CommandLine.ofWords words.tail
  match Tool.jobOf c with
  | .error _ => run .initial
  | .ok job =>
    let v ← (inputs job).foldlM mount .initial
    let ending ← run v
    let done := ending.session.volume
    if done.find job.directory matches .ok _ then
      try IO.FS.createDirAll (systemPath job.directory) catch _ => pure ()
    (indexes job).forM (publish done)
    if ending.exitCode = 0 then
      ((c.value? "-report").toList.filter (· != Report.standardOutput)).forM (publish done)
    return ending

end ForwardIndex.CommandLine

open ForwardIndex in
/-- The program: writes what the tool wrote and ends with its exit code. -/
def main (args : List String) : IO UInt32 := do
  let ending ← CommandLine.runWords (Tool.toolName :: args.map Text.lit)
  (← IO.getStderr).write (Bytes.ofText ending.session.log)
  (← IO.getStdout).write (Bytes.ofText ending.output)
  return ending.exitCode.toUInt32
