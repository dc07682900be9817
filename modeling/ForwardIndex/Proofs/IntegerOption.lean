import ForwardIndex.Proofs.ChunkSize
import ForwardIndex.Proofs.CommandWords
import ForwardIndex.Tool

/-!
# An integer as the value of an option

What a command line says that gives an option the decimal text of an integer. The text is read as
the integer; but a negative one starts with a dash, and so it is a key of its own and not the value
of the option, which then has the value of a flag.
-/
set_option autoImplicit false
namespace ForwardIndex

namespace Text

/-! ## Decimal text -/

/-- The decimal text of an integer in the range of a width is read as the integer. -/
theorem toInteger?_ofInt {bits : Nat} {n : Int} (range : InRange bits n) :
    toInteger? bits (ofInt n) = some n := by
  have decimal := decimal_ofInt n
  have solid := decimal.solid.2
  have whole : (ofInt n).untilNul = ofInt n :=
    untilNul_eq_self fun known => (solid 0 known).2 rfl
  have start : (ofInt n).dropWhile isBlank = ofInt n := by
    cases text : ofInt n with
    | nil => rfl
    | cons c rest =>
      rw [List.dropWhile_cons_of_neg]
      simp [(solid c (text ▸ List.mem_cons_self)).1]
  rw [toInteger?_eq_some, whole, start]
  exact ⟨decimal, range⟩

theorem inRange_toInt (v : Int32) : InRange 32 v.toInt := by
  have least := v.le_toInt
  have most := v.toInt_lt
  unfold InRange
  omega

/-- The decimal text of a number has a first byte, and it is no dash. -/
theorem ofNat_eq_cons (n : Nat) : ∃ c rest, ofNat n = c :: rest ∧ c ≠ 45 := by
  have digits := (digits_ofNat n).1
  obtain ⟨c, rest, text⟩ := List.exists_cons_of_ne_nil digits.some
  refine ⟨c, rest, text, ?_⟩
  rintro rfl
  exact absurd (digits.all 45 (text ▸ List.mem_cons_self)) (by decide)

end Text

namespace CommandLine

/-! ## Words -/

/-- The decimal text of an integer passes for a key exactly if the integer is negative. -/
theorem isKey_ofInt (n : Int) : isKey (Text.ofInt n) = decide (n < 0) := by
  cases n with
  | ofNat n =>
    obtain ⟨c, rest, text, other⟩ := Text.ofNat_eq_cons n
    have positive : ¬ Int.ofNat n < 0 := Int.not_lt.2 (Int.natCast_nonneg n)
    rw [Text.ofInt, text, decide_eq_false positive]
    exact isKey_eq_false_iff.2 (.inr (.inr (by simpa using other)))
  | negSucc n =>
    obtain ⟨c, rest, text, -⟩ := Text.ofNat_eq_cons (n + 1)
    rw [Text.ofInt, text, decide_eq_true (Int.negSucc_lt_zero n)]
    rfl

/-- It is never an assignment. -/
theorem assignment?_ofInt (n : Int) : assignment? (Text.ofInt n) = none := by
  refine assignment?_eq_none_iff.2 ?_
  rintro ⟨rest, same⟩
  cases n with
  | ofNat n =>
    obtain ⟨c, tail, text, other⟩ := Text.ofNat_eq_cons n
    rw [Text.ofInt, text] at same
    exact absurd (List.cons.inj same).1.symm other
  | negSucc n =>
    obtain ⟨c, tail, text, other⟩ := Text.ofNat_eq_cons (n + 1)
    rw [Text.ofInt, text] at same
    exact absurd (List.cons.inj (List.cons.inj same).2).1.symm other

/-- The items of words that a key divides. -/
theorem parse_append_key {key : Text} (divides : isKey key) (before rest : List Text) :
    parse (before ++ key :: rest) = parse before ++ parse (key :: rest) := by
  induction before using parse_induction with
  | nil => rfl
  | positional word more plain ih => exact (parse_positional _ plain).trans (congrArg _ ih)
  | assignment word _ _ more split ih =>
    have isKey := isKey_of_dashes (assignment?_eq_some.1 split).1
    exact (parse_assignment _ isKey split).trans (congrArg _ ih)
  | pair word value more isKey whole plain ih =>
    exact (parse_pair _ isKey whole plain).trans (congrArg _ ih)
  | flag word more isKey whole follows ih =>
    refine (parse_flag isKey whole fun next first => ?_).trans (congrArg _ ih)
    cases more with
    | nil => cases first; exact divides
    | cons other more => exact follows next first

@[simp] theorem values_append (items more : List Item) (key : Text) :
    values ⟨items ++ more⟩ key = values ⟨items⟩ key ++ values ⟨more⟩ key :=
  List.filterMap_append

/-- A key of its own takes no value away from another one. -/
theorem values_parse_cons {word key : Text} (isKey : isKey word)
    (plain : assignment? word = none) (other : word ≠ key) (after : List Text) :
    values ⟨parse (word :: after)⟩ key = values ⟨parse after⟩ key := by
  cases after with
  | nil => simp [parse, isKey, plain, values, Item.valueOf?, other]
  | cons next rest =>
    by_cases follows : CommandLine.isKey next
    · simp [parse, isKey, plain, follows, values, Item.valueOf?, other]
    · cases rest <;> simp [parse, isKey, plain, follows, values, Item.valueOf?, other]

/-- The command line that gives an option a value between other words. -/
def given (before : List Text) (option value : Text) (after : List Text) : CommandLine :=
  ⟨parse before ++ .pair option value :: parse after⟩

theorem values_given (before : List Text) (option value : Text) (after : List Text) (key : Text) :
    (given before option value after).values key = values ⟨parse before⟩ key ++
      if option = key then value :: values ⟨parse after⟩ key else values ⟨parse after⟩ key := by
  rw [given, values_append]
  congr 1
  by_cases same : option = key <;> simp [values, Item.valueOf?, same]

section Given

variable {option : Text} (isKey : isKey option) (plain : assignment? option = none)
  (before after : List Text)
include isKey plain

/-- A word that passes for no key is the value of the option before it. -/
theorem ofWords_given {value : Text} (word : CommandLine.isKey value = false) :
    ofWords (before ++ option :: value :: after) = given before option value after := by
  rw [ofWords, parse_append_key isKey, parse_pair after isKey plain word]
  rfl

/-- A word that passes for a key leaves the option before it with the value of a flag. -/
theorem values_ofWords_key {value key : Text} (word : CommandLine.isKey value)
    (single : assignment? value = none) (other : value ≠ key) :
    (ofWords (before ++ option :: value :: after)).values key =
      (given before option "1" after).values key := by
  have items : parse (option :: value :: after) = [.flag option] ++ parse (value :: after) :=
    parse_flag isKey plain fun next first => by cases first; exact word
  rw [ofWords, parse_append_key isKey, items, values_append, values_append,
    values_parse_cons word single other, values_given]
  by_cases same : option = key <;> simp [values, Item.valueOf?, same]

end Given

end CommandLine

namespace Tool

/-! ## The number of documents of a chunk -/

/-- The keys that the program asks for, but for the number of documents of a chunk. -/
def otherKeys : List Text :=
  ["-col", "-o", "-compression", "-version", "-max_chunk_size", "-report", "-threads", "-v",
    "--verbose", "-h", "--help", "--version"]

def docsKey : Text := "-docs_per_chunk"

/-- None of the keys is a negative number: the byte behind the dash is no digit. -/
theorem ofInt_ne_key {n : Int} (negative : n < 0) {key : Text}
    (known : key ∈ docsKey :: otherKeys) : Text.ofInt n ≠ key := by
  have plain : ∀ key ∈ docsKey :: otherKeys, key[1]?.any Text.isDigit = false := by decide
  rintro rfl
  have second := plain _ known
  cases n with
  | ofNat n => exact absurd negative (Int.not_lt.2 (Int.natCast_nonneg n))
  | negSucc n =>
    have digits := (Text.digits_ofNat (n + 1)).1
    obtain ⟨c, rest, text⟩ := List.exists_cons_of_ne_nil digits.some
    have digit := digits.all c (text ▸ List.mem_cons_self)
    rw [Text.ofInt, text] at second
    simp [digit] at second

/-- A job with another number of documents to a chunk. -/
def Job.withDocs (job : Job) (docs : Int32) : Job :=
  { job with config := { job.config with targetDocs := docs } }

section Agree

variable {c c' : CommandLine} (agree : ∀ key ∈ otherKeys, c.values key = c'.values key)
include agree

theorem value?_agree (key : Text) (other : key ∈ otherKeys) : c.value? key = c'.value? key := by
  rw [CommandLine.value?, CommandLine.value?, agree key other]

theorem has_agree (key : Text) (other : key ∈ otherKeys) : c.has key = c'.has key := by
  rw [CommandLine.has, CommandLine.has, agree key other]

theorem integer_agree (key : Text) (other : key ∈ otherKeys) (default : Int32) :
    c.integer key default = c'.integer key default := by
  rw [CommandLine.integer, CommandLine.integer, value?_agree agree key other]

/-- The tool does with a job what it does under any command line that gives the other keys the same
values. -/
theorem perform_agree (job : Job) (processors : Int32) (s : Session) (z : Deflater)
    (print : Report.Value → Text) :
    perform c job processors s z print = perform c' job processors s z print := by
  have logger : loggerOf c = loggerOf c' := by
    rw [loggerOf, loggerOf, CommandLine.isVerbose, CommandLine.isVerbose,
      has_agree agree "-v" (by decide), has_agree agree "--verbose" (by decide)]
  have threads : c.threads "-threads" processors = c'.threads "-threads" processors := by
    rw [CommandLine.threads, CommandLine.threads, integer_agree agree "-threads" (by decide)]
  have finish : finish c = finish c' := by
    funext job logger results s print
    rw [Tool.finish, Tool.finish, value?_agree agree "-report" (by decide)]
  rw [perform, perform, logger, threads, finish]

/-- The configuration of such a command line has the number of documents that it asks for. -/
theorem configOf_agree {config : BuildConfig} (valid : configOf c = .ok config) :
    configOf c' = (targetDocsOf c').map fun docs => { config with targetDocs := docs } := by
  have compression : compressionOf c' = compressionOf c := by
    rw [compressionOf, compressionOf, value?_agree agree "-compression" (by decide)]
  have version : versionOf c' = versionOf c := by
    rw [versionOf, versionOf, integer_agree agree "-version" (by decide)]
  have size : chunkSizeOf c' = chunkSizeOf c := by
    rw [chunkSizeOf, chunkSizeOf, value?_agree agree "-max_chunk_size" (by decide)]
  obtain ⟨type, ht, rest⟩ := of_bind_ok valid
  obtain ⟨number, hv, rest⟩ := of_bind_ok rest
  obtain ⟨bytes, hs, rest⟩ := of_bind_ok rest
  obtain ⟨docs, -, rest⟩ := of_bind_ok rest
  cases rest
  rw [configOf, compression, version, size, ht, hv, hs]
  cases targetDocsOf c' <;> rfl

theorem jobOf_agree {job : Job} (valid : jobOf c = .ok job) :
    jobOf c' = (targetDocsOf c').map job.withDocs := by
  have directory : c'.value "-o" [] = c.value "-o" [] := by
    rw [CommandLine.value, CommandLine.value, value?_agree agree "-o" (by decide)]
  unfold jobOf at valid ⊢
  rw [← agree "-col" (by decide), directory]
  rcases parsed : Column.Source.parseAll (c.values "-col") with ⟨outcome, columns⟩
  rw [parsed] at valid
  cases outcome with
  | error e => cases valid
  | ok u =>
    cases columns with
    | nil => cases valid
    | cons source rest =>
      dsimp only at valid ⊢
      by_cases none : c.value "-o" [] = []
      · rw [if_pos none] at valid
        cases valid
      · rw [if_neg none] at valid ⊢
        cases config : configOf c with
        | error r =>
          rw [config] at valid
          cases valid
        | ok config' =>
          rw [config] at valid
          cases valid
          rw [configOf_agree agree config]
          cases targetDocsOf c' <;> rfl

end Agree

/-- An integer as the last value of the option is the number of documents of a chunk, unless it is
too small. -/
theorem targetDocsOf_ofInt {c : CommandLine} {v : Int32}
    (value : c.value? docsKey = some (Text.ofInt v.toInt)) :
    targetDocsOf c = if v < 1 then .error .badDocsPerChunk else .ok v := by
  have docs : c.integer docsKey Layout.defaultTargetDocs = v := by
    rw [CommandLine.integer, value]
    simp [Text.toInteger?_ofInt (Text.inRange_toInt v)]
  unfold targetDocsOf
  rw [show c.integer "-docs_per_chunk" Layout.defaultTargetDocs = v from docs]

/-- The program does not stop to show its version or its usage. -/
structure Silent (c : CommandLine) : Prop where
  version : c.has "--version" = false
  short : c.has "-h" = false
  long : c.has "--help" = false

theorem run_silent {words : List Text} (silent : Silent (.ofWords words)) (some : words ≠ [])
    (program : Text) (processors : Int32) (v : Volume) (z : Deflater)
    (print : Report.Value → Text) :
    run (program :: words) processors v z print =
      match jobOf (.ofWords words) with
      | .error r =>
        let line := errorLine r.message
        ⟨1, Session.report { volume := v }
          (if r.showsUsage then line ++ usage program else line), []⟩
      | .ok job => perform (.ofWords words) job processors { volume := v } z print := by
  have line : versionLine? (.ofWords words) toolName = none := by
    rw [versionLine?, silent.version]
    rfl
  have several : ¬ (program :: words).length < 2 := by
    have := List.length_pos_iff.2 some
    rw [List.length_cons]
    omega
  have help :
      ¬ ((CommandLine.ofWords words).has "-h" ∨ (CommandLine.ofWords words).has "--help") := by
    simp [silent.short, silent.long]
  unfold run
  dsimp only [List.tail_cons]
  rw [line]
  dsimp only
  rw [if_neg several, if_neg help]
  rfl

section Given

variable {before after : List Text} {job : Job}
  (last : CommandLine.values ⟨CommandLine.parse after⟩ docsKey = [])
  (valid : jobOf (.given before docsKey "1" after) = .ok job)
  (silent : Silent (.given before docsKey "1" after))

theorem values_given_other {key : Text} (other : docsKey ≠ key) (value : Text) :
    (CommandLine.given before docsKey value after).values key =
      CommandLine.values ⟨CommandLine.parse before⟩ key ++
        CommandLine.values ⟨CommandLine.parse after⟩ key := by
  rw [CommandLine.values_given, if_neg other]

include last in
theorem value?_given (value : Text) :
    (CommandLine.given before docsKey value after).value? docsKey = some value := by
  rw [CommandLine.value?, CommandLine.values_given, if_pos rfl, last, List.getLast?_concat]

include last valid silent

/-- What the program makes of words that give the keys the values they have where the number of
documents is given as so many. -/
theorem run_heard {words : List Text} {w : Int32}
    (heard : ∀ key ∈ docsKey :: otherKeys, (CommandLine.ofWords words).values key =
      (CommandLine.given before docsKey (Text.ofInt w.toInt) after).values key)
    (some : words ≠ []) (program : Text) (processors : Int32) (volume : Volume) (z : Deflater)
    (print : Report.Value → Text) :
    run (program :: words) processors volume z print =
      if w < 1 then ⟨1, { volume, log := errorLine Refusal.badDocsPerChunk.message }, []⟩
      else perform (.given before docsKey (Text.ofInt w.toInt) after) (job.withDocs w) processors
        { volume } z print := by
  have agree : ∀ key ∈ otherKeys, (CommandLine.ofWords words).values key =
      (CommandLine.given before docsKey (Text.ofInt w.toInt) after).values key :=
    fun key known => heard key (List.mem_cons_of_mem _ known)
  have plain : ∀ key ∈ otherKeys, (CommandLine.given before docsKey "1" after).values key =
      (CommandLine.ofWords words).values key := by
    intro key known
    have other : docsKey ≠ key := fun same => absurd (same ▸ known) (by decide)
    rw [agree key known, values_given_other other, values_given_other other]
  have value : (CommandLine.ofWords words).value? docsKey = Option.some (Text.ofInt w.toInt) := by
    rw [CommandLine.value?, heard docsKey List.mem_cons_self]
    exact value?_given last _
  have quiet : Silent (.ofWords words) :=
    ⟨(has_agree plain "--version" (by decide)).symm.trans silent.version,
      (has_agree plain "-h" (by decide)).symm.trans silent.short,
      (has_agree plain "--help" (by decide)).symm.trans silent.long⟩
  rw [run_silent quiet some, jobOf_agree plain valid, targetDocsOf_ofInt value]
  by_cases few : w < 1
  · rw [if_pos few, if_pos few]
    rfl
  · rw [if_neg few, if_neg few]
    exact perform_agree agree _ _ _ _ _

end Given

/-- What the program makes of a command line that is valid otherwise and gives the number of
documents of a chunk as an integer, with no other number of them behind it. A positive one is the
number of documents; at zero the program stops before it builds anything; and for a negative one it
builds as if the number were one. Every other key has the values that the words around give it. -/
theorem run_docsPerChunk {before after : List Text} {job : Job} (program : Text) (v : Int32)
    (processors : Int32) (volume : Volume) (z : Deflater) (print : Report.Value → Text)
    (last : CommandLine.values ⟨CommandLine.parse after⟩ docsKey = [])
    (valid : jobOf (.given before docsKey "1" after) = .ok job)
    (silent : Silent (.given before docsKey "1" after)) :
    let text := Text.ofInt v.toInt
    let words := before ++ docsKey :: text :: after
    let ending := run (program :: words) processors volume z print
    (1 ≤ v.toInt → ending = perform (.given before docsKey text after) (job.withDocs v) processors
      { volume } z print) ∧
    (v = 0 → ending = ⟨1, { volume, log := errorLine Refusal.badDocsPerChunk.message }, []⟩) ∧
    (v.toInt < 0 → ending = perform (.given before docsKey "1" after) (job.withDocs 1) processors
      { volume } z print) ∧
    ∀ key, key ≠ docsKey → (v.toInt < 0 → key ≠ text) →
      (CommandLine.ofWords words).values key =
        CommandLine.values ⟨CommandLine.parse before⟩ key ++
          CommandLine.values ⟨CommandLine.parse after⟩ key := by
  intro text words ending
  have isKey : CommandLine.isKey docsKey := by decide
  have plain : CommandLine.assignment? docsKey = none := by decide
  have some : words ≠ [] := by simp [words]
  have one : Text.ofInt (1 : Int32).toInt = "1" := by
    show Text.ofNat 1 = _
    rw [Text.ofNat]
    rfl
  have written (least : 0 ≤ v.toInt) :
      CommandLine.ofWords words = .given before docsKey text after :=
    CommandLine.ofWords_given isKey plain before after
      ((CommandLine.isKey_ofInt _).trans (decide_eq_false (Int.not_lt.2 least)))
  have swallowed (negative : v.toInt < 0) {key : Text} (other : text ≠ key) :
      (CommandLine.ofWords words).values key =
        (CommandLine.given before docsKey "1" after).values key :=
    CommandLine.values_ofWords_key isKey plain before after
      ((CommandLine.isKey_ofInt _).trans (decide_eq_true negative))
      (CommandLine.assignment?_ofInt _) other
  refine ⟨fun positive => ?_, fun zero => ?_, fun negative => ?_, fun key other free => ?_⟩
  · have enough : ¬ v < 1 := by
      rw [Int32.lt_iff_toInt_lt]
      exact Int.not_lt.2 positive
    exact (run_heard last valid silent (fun key _ => by rw [written (by omega)]) some program
      processors volume z print).trans (if_neg enough)
  · subst zero
    exact (run_heard last valid silent (fun key _ => by rw [written (by decide)]) some program
      processors volume z print).trans (if_pos (by decide))
  · have heard := run_heard last valid silent (w := 1)
      (fun key known => by rw [swallowed negative (ofInt_ne_key negative known), one]) some
      program processors volume z print
    rw [one] at heard
    exact heard
  · obtain negative | least := lt_or_ge v.toInt 0
    · rw [swallowed negative (free negative).symm, values_given_other other.symm]
    · rw [written least, values_given_other other.symm]

/-- A volume with a text of two lines. -/
def twoLines : Volume :=
  { Volume.initial with
    nodes := Volume.initial.nodes ++
      [(Text.lit "in" :: Place.working, .file (Bytes.ofText "1\n2\n"))] }

/-- One column, built in a directory by one thread. -/
def oneColumn : List Text := ["-col", "a:INT:in", "-o", "out", "-threads", "1"]

def oneJob : Job where
  columns := [⟨"a", .int, "in"⟩]
  directory := "out"
  config := { targetDocs := 1 }

/-- With minus five documents to a chunk the column is built, one document to a chunk. -/
theorem run_docsPerChunk_minusFive :
    CommandLine.values ⟨CommandLine.parse []⟩ docsKey = [] ∧
    jobOf (.given oneColumn docsKey "1" []) = .ok oneJob ∧
    Silent (.given oneColumn docsKey "1" []) ∧
    run ("chunkfwdbuild" :: (oneColumn ++ [docsKey, Text.ofInt (-5)])) 1 twoLines .builtin
        Report.Value.inline =
      perform (.given oneColumn docsKey "1" []) (oneJob.withDocs 1) 1 { volume := twoLines } .builtin
        Report.Value.inline ∧
    (perform (.given oneColumn docsKey "1" []) (oneJob.withDocs 1) 1 { volume := twoLines } .builtin
      Report.Value.inline).exitCode = 0 := by
  have last : CommandLine.values ⟨CommandLine.parse []⟩ docsKey = [] := rfl
  have valid : jobOf (.given oneColumn docsKey "1" []) = .ok oneJob := by decide +kernel
  have silent : Silent (.given oneColumn docsKey "1" []) :=
    ⟨by decide +kernel, by decide +kernel, by decide +kernel⟩
  obtain ⟨-, -, built, -⟩ := run_docsPerChunk "chunkfwdbuild" (-5) 1 twoLines .builtin
    Report.Value.inline last valid silent
  exact ⟨last, valid, silent, built (by decide), by decide +kernel⟩

end Tool
end ForwardIndex
