import ForwardIndex.Compression
import ForwardIndex.ColumnType
import ForwardIndex.Volume.SystemError

/-!
# Failures

A failure is a cause with the values that its message names. Causes fall into five kinds; `kind` and
`message` are the only places that know the classification and the wording.
-/
set_option autoImplicit false
namespace ForwardIndex

inductive Failure.Kind where
  /-- Illegal parameters or input values. -/
  | configuration
  /-- An offset does not fit the offset table's width. -/
  | overflow
  /-- A compressor failed on a chunk. -/
  | compression
  /-- Opening, reading, writing or closing a file failed. -/
  | io
  /-- The operation is not valid in the present state. -/
  | usage
  deriving DecidableEq, Repr

inductive Failure where
  | illegalVersion (version : Int32) (fixedWidth : Bool)
  | chunkTooLarge (size : Int64)
  | chunkNotPositive (size : Int64)
  | docsPerChunkNotPositive (docs : Int32)
  | docsPerChunkNotRoundable (docs : Int32)
  | negativeTotalDocs (docs : Int32)
  | negativeEntrySize (size : Int32)
  | codecUnavailable (type : Compression)
  | codecUnknown (type : Compression)
  | noCompressor (path : Text)
  | entryTooLong (size : Nat)
  | tooManyDocs (column : Text) (count : Nat)
  | columnShape (spec : Text)
  | columnName (spec : Text)
  | columnType (column typeName : Text)
  | columnInput (column : Text)
  | duplicateColumn (column : Text)
  | invalidValue (source : Text) (line : Nat) (type : ColumnType) (value : Text)
  | offsetTooLarge (offset : Nat) (version : Int32)
  /-- A call of the deflate library fails, with the library's own words. -/
  | codecRefused (call reason : Text)
  | codecClosed
  | codecInputTooLarge (size : Nat)
  | stagingBelowBound (capacity bound : Nat)
  | stagingTooSmall (size capacity : Nat)
  | overReported (codec : Text) (reported capacity : Nat)
  | writeOpening (path : Text) (reason : SystemError)
  | writeFailed (size offset : Nat) (path : Text) (reason : SystemError)
  | writeStalled (path : Text) (offset : Nat)
  | closeFailed (path : Text) (reason : SystemError)
  | columnOpening (path : Text) (reason : SystemError)
  | columnReading (source : Text) (line : Nat)
  | reportOpening (path : Text) (reason : SystemError)
  | reportWriting (path : Text)
  | alreadyOpen (path : Text)
  | writeOnClosed
  | reopened (path : Text)
  | flushNotOpen
  | flushEmpty
  | allChunksWritten (path : Text) (declared : Int32)
  | offsetTableFull (declared totalDocs : Int32)
  | closeUnopened
  | closeAgain (path : Text)
  | closedShort (written : Nat) (declared : Int32)
  | putNotOpen (fixedWidth : Bool)
  | widthMismatch (width : Nat) (entrySize : Int32)
  | valueTooLong (size : Nat) (entrySize : Int32)
  | chunkFull
  | valueDoesNotFit (size : Nat)
  | slotPastBuffer (position : Nat)
  | dataPastBuffer (position : Nat)
  /-- A failure in a compressor's own words. -/
  | reported (kind : Failure.Kind) (message : Text)
  /-- A failure and the one met while cleaning up after it. -/
  | followedBy (first second : Failure)
  deriving DecidableEq, Repr

namespace Failure

def Kind.name : Kind → Text
  | configuration => "ConfigurationError"
  | overflow => "OverflowError"
  | compression => "CompressionError"
  | io => "IOError"
  | usage => "UsageError"

def kind : Failure → Kind
  | illegalVersion .. | chunkTooLarge .. | chunkNotPositive .. | docsPerChunkNotPositive ..
  | docsPerChunkNotRoundable .. | negativeTotalDocs .. | negativeEntrySize .. | codecUnavailable ..
  | codecUnknown .. | noCompressor .. | entryTooLong .. | tooManyDocs .. | columnShape ..
  | columnName .. | columnType .. | columnInput .. | duplicateColumn .. | invalidValue .. =>
    .configuration
  | offsetTooLarge .. => .overflow
  | codecRefused .. | codecClosed | codecInputTooLarge .. | stagingBelowBound .. | stagingTooSmall ..
  | overReported .. =>
    .compression
  | writeOpening .. | writeFailed .. | writeStalled .. | closeFailed .. | columnOpening ..
  | columnReading .. | reportOpening .. | reportWriting .. => .io
  | alreadyOpen .. | writeOnClosed | reopened .. | flushNotOpen | flushEmpty | allChunksWritten ..
  | offsetTableFull .. | closeUnopened | closeAgain .. | closedShort .. | putNotOpen ..
  | widthMismatch .. | valueTooLong .. | chunkFull | valueDoesNotFit .. | slotPastBuffer ..
  | dataPastBuffer .. => .usage
  | reported kind _ => kind
  | followedBy first _ => first.kind

def int32 (v : Int32) : Text := Text.ofInt v.toInt

def int64 (v : Int64) : Text := Text.ofInt v.toInt

def message : Failure → Text
  | illegalVersion v true => "illegal version: " ++ int32 v ++ " for fixed bytes values"
  | illegalVersion v false => "illegal version: " ++ int32 v ++ " for variable bytes values"
  | chunkTooLarge n => "chunk size limited to 2GB, got " ++ int64 n ++ " bytes"
  | chunkNotPositive n => "chunk size must be positive, got " ++ int64 n
  | docsPerChunkNotPositive n => "docs per chunk must be positive, got " ++ int32 n
  | docsPerChunkNotRoundable n =>
    "docs per chunk " ++ int32 n ++ " cannot be rounded to a power of two"
  | negativeTotalDocs n => "total docs must not be negative, got " ++ int32 n
  | negativeEntrySize n => "entry size must not be negative, got " ++ int32 n
  | codecUnavailable t => "compression type " ++ t.name ++ " is not available in this build"
  | codecUnknown t => "unknown compression type value " ++ int32 t.code
  | noCompressor path => "no compressor supplied for '" ++ path ++ "'"
  | entryTooLong n => "entry of " ++ Text.ofNat n ++ " bytes exceeds the 2GB entry limit"
  | tooManyDocs column n =>
    "column '" ++ column ++ "' has " ++ Text.ofNat n ++
      " docs, more than a forward index can address"
  | columnShape spec => "column '" ++ spec ++ "' must be <name>:<TYPE>:<path>"
  | columnName spec => "invalid column name in '" ++ spec ++ "'"
  | columnType column t =>
    "unknown data type '" ++ t ++ "' for column '" ++ column ++
      "' (INT, LONG, FLOAT, DOUBLE, STRING, BYTES)"
  | columnInput column => "missing input path for column '" ++ column ++ "'"
  | duplicateColumn column => "duplicate column '" ++ column ++ "'"
  | invalidValue source line t value =>
    source ++ ":" ++ Text.ofNat line ++ ": invalid " ++ t.name ++ " value '" ++ value ++ "'"
  | offsetTooLarge offset v =>
    "integer overflow detected: chunk offset " ++ Text.ofNat offset ++
      " does not fit a version " ++ int32 v ++
      " offset table. Try to use raw version 3 or 4, reduce docs per chunk or max chunk size"
  | codecRefused call reason => "gzip: " ++ call ++ " failed: " ++ reason
  | codecClosed => "gzip: compressor is not initialized or already closed"
  | codecInputTooLarge size =>
    "gzip: chunk of " ++ Text.ofNat size ++ " bytes exceeds deflate input limit"
  | stagingBelowBound capacity bound =>
    "gzip: staging buffer of " ++ Text.ofNat capacity ++ " bytes is below bound " ++
      Text.ofNat bound
  | stagingTooSmall size capacity =>
    "pass-through: " ++ Text.ofNat size ++ " bytes do not fit staging buffer of " ++
      Text.ofNat capacity
  | overReported codec n capacity =>
    codec ++ ": reported " ++ Text.ofNat n ++ " compressed bytes for a staging buffer of " ++
      Text.ofNat capacity
  | writeOpening path reason => "cannot open '" ++ path ++ "' for writing: " ++ reason.text
  | writeFailed size offset path reason =>
    "write of " ++ Text.ofNat size ++ " bytes at offset " ++ Text.ofNat offset ++ " to '" ++
      path ++ "' failed: " ++ reason.text
  | writeStalled path offset =>
    "write to '" ++ path ++ "' made no progress at offset " ++ Text.ofNat offset
  | closeFailed path reason => "close of '" ++ path ++ "' failed: " ++ reason.text
  | columnOpening path reason => "cannot open column file '" ++ path ++ "': " ++ reason.text
  | columnReading source line => "read error on " ++ source ++ " after line " ++ Text.ofNat line
  | reportOpening path reason => "cannot open report '" ++ path ++ "': " ++ reason.text
  | reportWriting path => "cannot write report '" ++ path ++ "'"
  | alreadyOpen path => "DataFile: '" ++ path ++ "' is already open"
  | writeOnClosed => "DataFile: write on a closed file"
  | reopened path => "forward index writer for '" ++ path ++ "' cannot be reopened"
  | flushNotOpen => "flush on a forward index writer that is not open"
  | flushEmpty => "flush of an empty chunk would waste an offset table slot"
  | allChunksWritten path declared =>
    "'" ++ path ++ "': all " ++ int32 declared ++ " declared chunks are already written"
  | offsetTableFull declared total =>
    "chunk offset table is full: " ++ int32 declared ++ " chunk(s) declared for " ++
      int32 total ++ " docs"
  | closeUnopened => "close on a forward index writer that was never opened"
  | closeAgain path => "forward index writer for '" ++ path ++ "' is already closed"
  | closedShort written declared =>
    "closed after " ++ Text.ofNat written ++ " of " ++ int32 declared ++
      " declared chunks; trailing chunk offsets are zero"
  | putNotOpen true => "put on a fixed-byte writer that is not open"
  | putNotOpen false => "put on a var-byte writer that is not open"
  | widthMismatch width entry =>
    "value of " ++ Text.ofNat width ++ " bytes does not match entry size " ++ int32 entry
  | valueTooLong size entry =>
    "value of " ++ Text.ofNat size ++ " bytes exceeds the longest entry size " ++ int32 entry
  | chunkFull => "chunk buffer is full after a failed flush"
  | valueDoesNotFit size => "value of " ++ Text.ofNat size ++ " bytes does not fit the chunk buffer"
  | slotPastBuffer position =>
    "row offset slot " ++ Text.ofNat position ++ " is past the chunk buffer"
  | dataPastBuffer position =>
    "chunk data position " ++ Text.ofNat position ++ " is past the chunk buffer"
  | reported _ text => text
  | followedBy first second =>
    first.message ++ "; then " ++ second.kind.name ++ ": " ++ second.message

/-- A failure as one line: its kind, then its message. -/
def render (f : Failure) : Text := f.kind.name ++ ": " ++ f.message

/-- The number that stands for a kind; zero is success. -/
def Kind.ofCode? : Int → Option Kind
  | 1 => some configuration
  | 2 => some overflow
  | 3 => some compression
  | 4 => some io
  | 5 => some usage
  | _ => none

/-- The name shown for a number, whether a kind has it or not. -/
def codeName (code : Int) : Text :=
  if code = 0 then "OK"
  else match Kind.ofCode? code with
    | some kind => kind.name
    | none => "UnknownError"

/-- The line shown for a number and a message; success has no message. -/
def renderCode (code : Int) (message : Text) : Text :=
  if code = 0 then "OK" else codeName code ++ ": " ++ message

end Failure

/-- What an operation reports. -/
abbrev Outcome := Except Failure Unit

instance : DecidableEq Outcome
  | .ok (), .ok () => isTrue rfl
  | .ok (), .error _ => isFalse nofun
  | .error _, .ok () => isFalse nofun
  | .error e, .error f => decidable_of_iff (e = f) ⟨congrArg _, Except.error.inj⟩

def Outcome.render : Outcome → Text
  | .ok () => "OK"
  | .error f => f.render

end ForwardIndex
