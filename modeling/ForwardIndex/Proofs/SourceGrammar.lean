import ForwardIndex.Column.Build
import ForwardIndex.Column.Source
import ForwardIndex.Proofs.IntegerLines
import Mathlib.Data.Finset.Insert
import Mathlib.Data.List.Forall2

/-!
# The grammar of column sources

A text tells of a source if it is the source's name, the name of a type in letters of either case
and the path, with colons between them; of the colons only those in the path may be more. A source
is read into a place that keeps what it held unless the whole text is read. A list of sources is
emptied, then filled up to the first text that tells of none or repeats a name; the names in it have
indexes of their own.
-/
set_option autoImplicit false
namespace ForwardIndex

/-! ## Letters of either case -/

namespace Text

/-- One text but for the case of its letters. -/
def SameLetters (s t : Text) : Prop := s.map lowerByte = t.map lowerByte

theorem upperByte_lowerByte (c : UInt8) : upperByte (lowerByte c) = upperByte c := by
  have all : ∀ n, upperByte (lowerByte (.ofFin n)) = upperByte (.ofFin n) := by decide +kernel
  exact all c.toFin

theorem lowerByte_upperByte (c : UInt8) : lowerByte (upperByte c) = lowerByte c := by
  have all : ∀ n, lowerByte (upperByte (.ofFin n)) = lowerByte (.ofFin n) := by decide +kernel
  exact all c.toFin

/-- Texts in one case are the same exactly if they are in the other. -/
theorem sameLetters_iff {s t : Text} : SameLetters s t ↔ s.uppercase = t.uppercase := by
  constructor
  · intro same
    have raised := congrArg (List.map upperByte) same
    simpa [uppercase, Function.comp_def, upperByte_lowerByte] using raised
  · intro same
    have lowered := congrArg (List.map lowerByte) same
    simpa [uppercase, SameLetters, Function.comp_def, lowerByte_upperByte] using lowered

end Text

theorem ColumnType.ofName?_eq_some {t : Text} {type : ColumnType} :
    ofName? t = some type ↔ Text.SameLetters t type.name := by
  have shown : type.name.uppercase = type.name := by cases type <;> rfl
  rw [Text.sameLetters_iff, shown]
  constructor
  · intro found
    have named := List.find?_some (show all.find? (·.name == t.uppercase) = some type from found)
    exact (beq_iff_eq.1 named).symm
  · intro same
    rw [ofName?, same]
    cases type <;> rfl

namespace Column.Source

/-! ## One source -/

/-- What a text can tell of. -/
structure Tellable (c : Column.Source) : Prop where
  name : c.name ≠ []
  colon : 58 ∉ c.name
  slash : 47 ∉ c.name
  path : c.path ≠ []

/-- The texts of a source. -/
structure Tells (t : Text) (c : Column.Source) : Prop where
  tellable : c.Tellable
  parts : ∃ typeName, 58 ∉ typeName ∧ Text.SameLetters typeName c.type.name ∧
    t = c.name ++ [58] ++ typeName ++ [58] ++ c.path

/-- A text is split at the first of its colons. -/
theorem splitColon_eq_some {t before after : Text} :
    splitColon t = some (before, after) ↔ t = before ++ [58] ++ after ∧ 58 ∉ before := by
  rw [← Text.cut_iff]
  unfold splitColon
  split
  · next none => simp only [none, reduceCtorEq, exists_const, and_false]
  · next c rest left => simp [left]

/-- A text tells of a source exactly if it is read as that one. -/
theorem parse_eq_ok_iff {t : Text} {c : Column.Source} : parse t = .ok c ↔ Tells t c := by
  constructor
  · intro read
    unfold parse at read
    split at read
    · cases read
    next name rest first =>
    split at read
    · cases read
    next typeName path second =>
    split at read
    · cases read
    next named =>
    split at read
    · cases read
    next type known =>
    split at read
    · cases read
    next some =>
    cases read
    obtain ⟨rfl, colon⟩ := splitColon_eq_some.1 first
    obtain ⟨rfl, single⟩ := splitColon_eq_some.1 second
    obtain ⟨nameSome, slash⟩ := not_or.1 named
    exact ⟨⟨nameSome, colon, slash, some⟩, typeName, single, ColumnType.ofName?_eq_some.1 known,
      by simp⟩
  · rintro ⟨tellable, typeName, single, same, rfl⟩
    have first : splitColon (c.name ++ [58] ++ typeName ++ [58] ++ c.path) =
        some (c.name, typeName ++ [58] ++ c.path) :=
      splitColon_eq_some.2 ⟨by simp, tellable.colon⟩
    have second : splitColon (typeName ++ [58] ++ c.path) = some (typeName, c.path) :=
      splitColon_eq_some.2 ⟨rfl, single⟩
    have named := not_or.2 ⟨tellable.name, tellable.slash⟩
    simp only [parse, first, second, if_neg named, ColumnType.ofName?_eq_some.2 same,
      if_neg tellable.path]

theorem Tellable.tells_render {c : Column.Source} (tellable : c.Tellable) : Tells c.render c := by
  have single : 58 ∉ c.type.name := by cases c.type <;> decide
  exact ⟨tellable, c.type.name, single, rfl, rfl⟩

/-- What is not read is a matter of configuration. -/
theorem kind_of_parse {t : Text} {e : Failure} (read : parse t = .error e) :
    e.kind = .configuration := by
  revert read
  fun_cases parse t
  all_goals
    rintro ⟨⟩
    try rfl

/-- Reads a text into a source. -/
def readInto (t : Text) : ExceptT Failure (StateM Column.Source) Unit := do
  let c ← ExceptT.mk (pure (parse t))
  set c

theorem readInto_ok {t : Text} {c : Column.Source} (tells : Tells t c) (out : Column.Source) :
    (readInto t).run.run out = (.ok (), c) := by
  rw [readInto, parse_eq_ok_iff.2 tells]
  rfl

/-- A text that tells of no source leaves what is there. -/
theorem readInto_error {t : Text} (none : ∀ c, ¬ Tells t c) (out : Column.Source) :
    ∃ e, (readInto t).run.run out = (.error e, out) ∧ e.kind = .configuration := by
  cases read : parse t with
  | ok c => exact absurd (parse_eq_ok_iff.1 read) (none c)
  | error e =>
    refine ⟨e, ?_, kind_of_parse read⟩
    rw [readInto, read]
    rfl

/-! ## Several sources -/

/-- Reads texts one after the other onto a list, with the names seen before. -/
def collect (seen : Finset Text) : List Text → ExceptT Failure (StateM (List Column.Source)) Unit
  | [] => pure ()
  | t :: rest => do
    let c ← ExceptT.mk (pure (parse t))
    if c.name ∈ seen then throw (.duplicateColumn c.name)
    else
      modify (· ++ [c])
      collect (insert c.name seen) rest

/-- Reads texts into a list, which is emptied first. -/
def readAllInto (ts : List Text) : ExceptT Failure (StateM (List Column.Source)) Unit := do
  set ([] : List Column.Source)
  collect ∅ ts

theorem collect_eq {seen : Finset Text} {found : List Column.Source}
    (names : ∀ name, name ∈ seen ↔ name ∈ found.map (·.name)) (ts : List Text) :
    (collect seen ts).run.run found = parseFrom found ts := by
  induction ts generalizing seen found with
  | nil => rfl
  | cons t rest ih =>
    cases read : parse t with
    | error e =>
      rw [collect, parseFrom, read]
      rfl
    | ok c =>
      have step : (collect seen (t :: rest)).run.run found =
          if c.name ∈ seen then (.error (.duplicateColumn c.name), found)
          else (collect (insert c.name seen) rest).run.run (found ++ [c]) := by
        rw [collect, read]
        show (if c.name ∈ seen then _ else _ : ExceptT _ (StateM _) _).run.run found = _
        split_ifs <;> rfl
      have twice : (found.any (·.name == c.name)) = true ↔ c.name ∈ seen := by
        simp [names]
      have more : ∀ name, name ∈ insert c.name seen ↔ name ∈ (found ++ [c]).map (·.name) := by
        intro name
        simp [names, or_comm, eq_comm]
      simp only [step, parseFrom, read, twice, ih more]

/-- Reading into a list comes to the sources of the texts, whatever the list held. -/
theorem readAllInto_eq (ts : List Text) (out : List Column.Source) :
    (readAllInto ts).run.run out = parseAll ts :=
  collect_eq (by simp) ts

/-- Why a text cannot follow sources: it tells of none, and is refused as it is alone, or it tells of
one whose name is taken. -/
inductive Refused (found : List Column.Source) (t : Text) : Failure → Prop
  | untold {e : Failure} (none : ∀ c, ¬ Tells t c) (alone : parse t = .error e) : Refused found t e
  | taken {c : Column.Source} (tells : Tells t c) (known : c.name ∈ found.map (·.name)) :
      Refused found t (.duplicateColumn c.name)

theorem Refused.kind {found : List Column.Source} {t : Text} {e : Failure} (h : Refused found t e) :
    e.kind = .configuration := by
  cases h with
  | untold none alone => exact kind_of_parse alone
  | taken tells known => rfl

/-- Texts are read onto sources of different names up to the first that cannot follow. -/
theorem parseFrom_spec {found : List Column.Source} (distinct : (found.map (·.name)).Nodup)
    (ts : List Text) :
    ∃ before rest sources outcome, ts = before ++ rest ∧ List.Forall₂ Tells before sources ∧
      ((found ++ sources).map (·.name)).Nodup ∧ parseFrom found ts = (outcome, found ++ sources) ∧
      (rest = [] ∧ outcome = .ok () ∨
        ∃ bad more e, rest = bad :: more ∧ outcome = .error e ∧
          Refused (found ++ sources) bad e) := by
  induction ts generalizing found with
  | nil => exact ⟨[], [], [], .ok (), rfl, .nil, by simpa, by simp [parseFrom], .inl ⟨rfl, rfl⟩⟩
  | cons t rest ih =>
    cases read : parse t with
    | error e =>
      have none (c : Column.Source) (tells : Tells t c) : False := by
        rw [parse_eq_ok_iff.2 tells] at read
        cases read
      exact ⟨[], t :: rest, [], .error e, rfl, .nil, by simpa, by simp [parseFrom, read],
        .inr ⟨t, rest, e, rfl, rfl, .untold none read⟩⟩
    | ok c =>
      have tells := parse_eq_ok_iff.1 read
      by_cases known : c.name ∈ found.map (·.name)
      · have twice : found.any (·.name == c.name) = true := by simpa using known
        exact ⟨[], t :: rest, [], .error (.duplicateColumn c.name), rfl, .nil, by simpa,
          by simp [parseFrom, read, twice],
          .inr ⟨t, rest, _, rfl, rfl, .taken tells (by simpa using known)⟩⟩
      · have new : ¬ found.any (·.name == c.name) = true := by simpa using known
        have grown : ((found ++ [c]).map (·.name)).Nodup := by
          rw [List.map_append]
          exact distinct.append (List.nodup_singleton _) (by simpa using known)
        obtain ⟨before, rest, sources, outcome, rfl, all, names, parsed, finish⟩ := ih grown
        rw [List.append_assoc, List.singleton_append] at names parsed finish
        exact ⟨t :: before, rest, c :: sources, outcome, rfl, .cons tells all, names,
          by rw [parseFrom, read, ← parsed]; exact if_neg new, finish⟩

theorem parseFrom_all {found sources : List Column.Source} {ts : List Text}
    (all : List.Forall₂ Tells ts sources) (distinct : ((found ++ sources).map (·.name)).Nodup) :
    parseFrom found ts = (.ok (), found ++ sources) := by
  induction all generalizing found with
  | nil => simp [parseFrom]
  | @cons t c ts sources tells all ih =>
    have new : ¬ found.any (·.name == c.name) = true := by
      rw [List.map_append] at distinct
      obtain ⟨-, -, apart⟩ := List.nodup_append.1 distinct
      intro known
      obtain ⟨other, among, same⟩ := List.any_eq_true.1 known
      exact apart _ (List.mem_map_of_mem among) c.name (by simp) (beq_iff_eq.1 same)
    rw [List.append_cons] at distinct ⊢
    rw [parseFrom, parse_eq_ok_iff.2 tells, ← ih distinct]
    exact if_neg new

theorem parseAll_spec (ts : List Text) :
    ∃ before rest sources outcome, ts = before ++ rest ∧ List.Forall₂ Tells before sources ∧
      (sources.map (·.name)).Nodup ∧ parseAll ts = (outcome, sources) ∧
      (rest = [] ∧ outcome = .ok () ∨
        ∃ bad more e, rest = bad :: more ∧ outcome = .error e ∧ Refused sources bad e) :=
  @parseFrom_spec [] List.nodup_nil ts

/-- All texts are read exactly if each tells of a source and no name is there twice. -/
theorem parseAll_ok_iff {ts : List Text} {sources : List Column.Source} :
    parseAll ts = (.ok (), sources) ↔
      List.Forall₂ Tells ts sources ∧ (sources.map (·.name)).Nodup := by
  constructor
  · intro read
    obtain ⟨before, rest, found, outcome, rfl, all, names, parsed, finish⟩ := parseAll_spec ts
    cases parsed.symm.trans read
    obtain ⟨rfl, -⟩ | ⟨bad, more, e, -, failed, -⟩ := finish
    · rw [List.append_nil]
      exact ⟨all, names⟩
    · cases failed
  · rintro ⟨all, distinct⟩
    exact parseFrom_all all distinct

end Column.Source

/-! ## Paths of indexes -/

/-- Names without a slash have different indexes in a directory. -/
theorem Column.indexPath_injective {dir name other : Text} (slash : 47 ∉ name)
    (slash' : 47 ∉ other) (same : indexPath dir name = indexPath dir other) : name = other := by
  have below {name : Text} (slash : 47 ∉ name) : (name ++ indexExtension).head? ≠ some 47 :=
    fun first => List.not_mem_append slash (by decide) (List.mem_of_head? first)
  unfold indexPath joinPath at same
  simp only [below slash, below slash', false_or] at same
  split_ifs at same
  · exact List.append_cancel_right same
  · exact List.append_cancel_right (List.append_cancel_left same)
  · exact List.append_cancel_right (List.append_cancel_left same)

namespace Column.Source

/-- A text is read as a source exactly if it tells of it, and otherwise leaves what is there; and what
a source shows is read as the source. Texts are read exactly if they tell of sources with different
names; otherwise up to the first that cannot follow those before it, which are what is left, whatever
was there. Sources that texts tell of have indexes of their own if they have names of their own. -/
theorem read_exactly :
    (∀ t out,
      (∀ c, (readInto t).run.run out = (.ok (), c) ↔ Tells t c) ∧
      (∀ c, parse t = .ok c ↔ Tells t c) ∧
      ((∀ c, ¬ Tells t c) →
        ∃ e, (readInto t).run.run out = (.error e, out) ∧ e.kind = .configuration)) ∧
    (∀ c out, Tellable c → (readInto c.render).run.run out = (.ok (), c)) ∧
    (∀ ts out,
      (∀ sources, (readAllInto ts).run.run out = (.ok (), sources) ↔
        List.Forall₂ Tells ts sources ∧ (sources.map (·.name)).Nodup) ∧
      ∃ before rest sources outcome, ts = before ++ rest ∧ List.Forall₂ Tells before sources ∧
        (sources.map (·.name)).Nodup ∧ (readAllInto ts).run.run out = (outcome, sources) ∧
        parseAll ts = (outcome, sources) ∧
        (rest = [] ∧ outcome = .ok () ∨
          ∃ bad more e, rest = bad :: more ∧ outcome = .error e ∧ Refused sources bad e ∧
            e.kind = .configuration)) ∧
    ∀ dir t t' c c', Tells t c → Tells t' c' → c.name ≠ c'.name →
      indexPath dir c.name ≠ indexPath dir c'.name := by
  refine ⟨fun t out => ⟨fun c => ⟨fun read => ?_, fun tells => readInto_ok tells out⟩,
    fun c => parse_eq_ok_iff, fun none => readInto_error none out⟩,
    fun c out tellable => readInto_ok tellable.tells_render out, fun ts out => ?_,
    fun dir t t' c c' tells tells' ne same => ?_⟩
  · by_contra untold
    obtain ⟨d, tells⟩ | none := em (∃ d, Tells t d)
    · rw [readInto_ok tells] at read
      cases read
      exact untold tells
    · obtain ⟨e, failed, -⟩ := readInto_error (not_exists.1 none) out
      rw [failed] at read
      cases read
  · rw [readAllInto_eq]
    obtain ⟨before, rest, sources, outcome, eq, all, names, parsed, finish⟩ := parseAll_spec ts
    refine ⟨fun sources => parseAll_ok_iff, before, rest, sources, outcome, eq, all, names, parsed,
      parsed, finish.imp id ?_⟩
    rintro ⟨bad, more, e, eq, failed, refused⟩
    exact ⟨bad, more, e, eq, failed, refused, refused.kind⟩
  · exact ne (indexPath_injective tells.tellable.slash tells'.tellable.slash same)

/-- A path with a colon and type names in letters of both cases; a name that is there twice, behind
which nothing is read; and a text without a path. -/
theorem read_exactly_repeated :
    let stale : Column.Source := ⟨"old", .bytes, "f"⟩
    let first : Column.Source := ⟨"a", .int, "x:y"⟩
    let second : Column.Source := ⟨"b", .string, "p"⟩
    Tells "a:Int:x:y" first ∧ Tells "b:sTRING:p" second ∧
    (readAllInto ["a:Int:x:y", "b:sTRING:p", "a:LONG:q", "?"]).run.run [stale] =
      (.error (.duplicateColumn "a"), [first, second]) ∧
    (readAllInto ["a:Int:x:y", "b:sTRING:p"]).run.run [stale] = (.ok (), [first, second]) ∧
    (∃ e, (readInto "a:INT:").run.run stale = (.error e, stale) ∧ e.kind = .configuration) ∧
    indexPath "out/" "a" ≠ indexPath "out/" "b" := by
  intro stale first second
  obtain ⟨one, -, several, paths⟩ := read_exactly
  have tells : Tells "a:Int:x:y" first := ((one _ stale).2.1 first).1 (by decide +kernel)
  have tells' : Tells "b:sTRING:p" second := ((one _ stale).2.1 second).1 (by decide +kernel)
  have none (c : Column.Source) : ¬ Tells "a:INT:" c := by
    intro tells
    have read := ((one _ stale).2.1 c).2 tells
    rw [show parse "a:INT:" = .error (.columnInput "a") by decide +kernel] at read
    cases read
  have stops : parseAll ["a:Int:x:y", "b:sTRING:p", "a:LONG:q", "?"] =
      (.error (.duplicateColumn "a"), [first, second]) := by decide +kernel
  refine ⟨tells, tells', (readAllInto_eq _ _).trans stops, ?_, (one _ stale).2.2 none,
    paths "out/" _ _ first second tells tells' (by decide +kernel)⟩
  exact ((several _ [stale]).1 [first, second]).2
    ⟨.cons tells (.cons tells' .nil), by decide +kernel⟩

end Column.Source
end ForwardIndex
