import ForwardIndex.CommandLine
import ForwardIndex.Proofs.IntegerLines
import Mathlib.Logic.ExistsUnique
import Mathlib.Logic.Function.Basic

/-!
# Words and items

The words of a command line are those of exactly one list of items, so none is lost and none counts
twice: a word that passes for a key never is the value of another key, and a bare flag stands at the
end or in front of such a word. The words of a list of items are read as the list; the values of a
key are those that the items with the key have, in order, and the rest are positional words. A table
that is filled word by word, with a look at the next one, answers every question in the same way.
-/
set_option autoImplicit false
namespace ForwardIndex.CommandLine

/-! ## Items and their words -/

/-- A word of two bytes at least that starts with a dash. -/
def Dashed (word : Text) : Prop := word.head? = some 45 ∧ 2 ≤ word.length

instance (word : Text) : Decidable (Dashed word) := inferInstanceAs (Decidable (_ ∧ _))

/-- A word that can be positional or a value: an empty one, a dash, or one that starts with another
byte. -/
def Plain (word : Text) : Prop := word = [] ∨ word = [45] ∨ word.head? ≠ some 45

/-- A word that is a key as a whole: behind two dashes there is no equals sign. -/
def WholeKey (key : Text) : Prop := Dashed key ∧ ([45, 45] <+: key → 61 ∉ key)

namespace Item

/-- What an item is written as. -/
def words : Item → List Text
  | positional word => [word]
  | pair key value => [key, value]
  | flag key => [key]
  | assignment key value => [key ++ [61] ++ value]

/-- Items that can be written. -/
inductive Sound : Item → Prop
  | positional {word : Text} (plain : Plain word) : Sound (.positional word)
  | pair {key value : Text} (whole : WholeKey key) (plain : Plain value) : Sound (.pair key value)
  | flag {key : Text} (whole : WholeKey key) : Sound (.flag key)
  | assignment {key : Text} (dashes : [45, 45] <+: key) (single : 61 ∉ key) (value : Text) :
      Sound (.assignment key value)

/-- The word of an item that belongs to no key. -/
def positional? : Item → Option Text
  | positional word => some word
  | _ => none

end Item

/-- Items that can be written one after the other: what follows a bare flag is a word that starts
with a dash and goes on. -/
inductive WellFormed : List Item → Prop
  | nil : WellFormed []
  | cons {item : Item} {rest : List Item} (sound : item.Sound)
      (follows : ∀ key, item = .flag key →
        ∀ word, (rest.flatMap Item.words).head? = some word → Dashed word)
      (more : WellFormed rest) : WellFormed (item :: rest)

/-! ## Kinds of words -/

theorem isKey_iff {word : Text} : isKey word ↔ Dashed word := by
  unfold isKey Dashed
  split
  · simp
  · next other =>
    refine iff_of_false nofun ?_
    rintro ⟨first, length⟩
    obtain ⟨rest, rfl⟩ := List.head?_eq_some_iff.1 first
    cases rest with
    | nil => simp at length
    | cons c rest => exact other c rest rfl

theorem isKey_eq_false_iff {word : Text} : isKey word = false ↔ Plain word := by
  rw [← Bool.not_eq_true, isKey_iff, Dashed, Plain]
  match word with
  | [] => simp
  | [c] => simp [em]
  | c :: d :: rest => simp

/-- An assignment is split at its first equals sign. -/
theorem assignment?_eq_some {word key value : Text} :
    assignment? word = some (key, value) ↔
      [45, 45] <+: word ∧ word = key ++ [61] ++ value ∧ 61 ∉ key := by
  rw [← Text.cut_iff]
  unfold assignment?
  split
  · next rest =>
    split
    · next c value left => simp [left]
    · next none => simp only [none, reduceCtorEq, exists_const, and_false]
  · next other =>
    refine iff_of_false nofun ?_
    rintro ⟨⟨rest, rfl⟩, -⟩
    exact other rest rfl

theorem assignment?_eq_none_iff {word : Text} :
    assignment? word = none ↔ ([45, 45] <+: word → 61 ∉ word) := by
  constructor
  · intro none dashes equals
    obtain ⟨key, value, eq, single⟩ := List.eq_append_cons_of_mem equals
    have split := assignment?_eq_some.2 ⟨dashes, by simpa using eq, single⟩
    rw [none] at split
    cases split
  · intro whole
    cases found : assignment? word with
    | none => rfl
    | some split =>
      obtain ⟨key, value⟩ := split
      obtain ⟨dashes, rfl, -⟩ := assignment?_eq_some.1 found
      exact absurd (by simp) (whole dashes)

theorem wholeKey_iff {word : Text} : WholeKey word ↔ isKey word ∧ assignment? word = none := by
  rw [WholeKey, isKey_iff, assignment?_eq_none_iff]

theorem plain_iff {word : Text} : Plain word ↔ word.head? ≠ some 45 ∨ word.length = 1 := by
  unfold Plain
  match word with
  | [] => simp
  | [c] => simp [em]
  | c :: d :: rest => simp

theorem dashes_iff {word : Text} (first : word.head? = some 45) :
    word[1]? = some 45 ↔ [45, 45] <+: word := by
  obtain ⟨rest, rfl⟩ := List.head?_eq_some_iff.1 first
  cases rest <;> simp [eq_comm]

theorem isKey_of_dashes {word : Text} (dashes : [45, 45] <+: word) : isKey word := by
  obtain ⟨rest, rfl⟩ := dashes
  rfl

theorem dashes_append_iff {key value : Text} :
    [45, 45] <+: key ++ [61] ++ value ↔ [45, 45] <+: key := by
  match key with
  | [] => simp
  | [c] => simp
  | c :: d :: rest => simp

/-! ## Reading the first item -/

section First

variable {word : Text} (rest : List Text)

theorem parse_positional (plain : isKey word = false) :
    parse (word :: rest) = .positional word :: parse rest := by
  cases rest <;> simp [parse, plain]

theorem parse_assignment (isKey : isKey word) {key value : Text}
    (split : assignment? word = some (key, value)) :
    parse (word :: rest) = .assignment key value :: parse rest := by
  cases rest <;> simp [parse, isKey, split]

theorem parse_pair (isKey : isKey word) (whole : assignment? word = none) {value : Text}
    (plain : CommandLine.isKey value = false) :
    parse (word :: value :: rest) = .pair word value :: parse rest := by
  simp [parse, isKey, whole, plain]

theorem parse_flag (isKey : isKey word) (whole : assignment? word = none) {rest : List Text}
    (follows : ∀ next, rest.head? = some next → CommandLine.isKey next) :
    parse (word :: rest) = .flag word :: parse rest := by
  cases rest with
  | nil => simp [parse, isKey, whole]
  | cons next rest => simp [parse, isKey, whole, follows next rfl]

end First

/-- Words are read item by item: what holds of no words, and with an item in front of words of which
it holds, holds of all words. -/
theorem parse_induction {motive : List Text → List Item → Prop} (nil : motive [] [])
    (positional : ∀ word rest, isKey word = false → motive rest (parse rest) →
      motive (word :: rest) (.positional word :: parse rest))
    (assignment : ∀ word key value rest, assignment? word = some (key, value) →
      motive rest (parse rest) → motive (word :: rest) (.assignment key value :: parse rest))
    (pair : ∀ key value rest, isKey key → assignment? key = none → isKey value = false →
      motive rest (parse rest) → motive (key :: value :: rest) (.pair key value :: parse rest))
    (flag : ∀ key rest, isKey key → assignment? key = none →
      (∀ next, rest.head? = some next → isKey next) →
      motive rest (parse rest) → motive (key :: rest) (.flag key :: parse rest))
    (words : List Text) : motive words (parse words) := by
  fun_induction parse words with
  | case1 => exact nil
  | case2 word isKey key value split => exact assignment word key value [] split nil
  | case3 word isKey whole => exact flag word [] isKey whole nofun nil
  | case4 word plain => exact positional word [] (by simpa using plain) nil
  | case5 word next rest isKey key value split ih =>
    exact assignment word key value (next :: rest) split ih
  | case6 word next rest isKey whole follows ih =>
    exact flag word (next :: rest) isKey whole (fun _ same => by cases same; exact follows) ih
  | case7 word next rest isKey whole plain ih =>
    exact pair word next rest isKey whole (by simpa using plain) ih
  | case8 word next rest plain ih => exact positional word (next :: rest) (by simpa using plain) ih

/-! ## Words of items, items of words -/

/-- The words of items are read as the items. -/
theorem parse_words {items : List Item} (wellFormed : WellFormed items) :
    parse (items.flatMap Item.words) = items := by
  induction wellFormed with
  | nil => rfl
  | @cons item rest sound follows more ih =>
    cases sound with
    | positional plain =>
      exact (parse_positional _ (isKey_eq_false_iff.2 plain)).trans (congrArg _ ih)
    | pair whole plain =>
      obtain ⟨isKey, whole⟩ := wholeKey_iff.1 whole
      exact (parse_pair _ isKey whole (isKey_eq_false_iff.2 plain)).trans (congrArg _ ih)
    | flag whole =>
      obtain ⟨isKey, whole⟩ := wholeKey_iff.1 whole
      have follows (next : Text) (first : (rest.flatMap Item.words).head? = some next) :
          CommandLine.isKey next := isKey_iff.2 (follows _ rfl next first)
      exact (parse_flag isKey whole follows).trans (congrArg _ ih)
    | assignment dashes single value =>
      have dashes : [45, 45] <+: _ ++ [61] ++ value := dashes_append_iff.2 dashes
      have split := assignment?_eq_some.2 ⟨dashes, rfl, single⟩
      exact (parse_assignment _ (isKey_of_dashes dashes) split).trans (congrArg _ ih)

/-- The items of words are written as the words. -/
theorem words_parse (words : List Text) : (parse words).flatMap Item.words = words := by
  induction words using parse_induction with
  | nil => rfl
  | positional word rest plain ih => exact congrArg (word :: ·) ih
  | assignment word key value rest split ih =>
    obtain ⟨-, rfl, -⟩ := assignment?_eq_some.1 split
    exact congrArg (_ :: ·) ih
  | pair key value rest isKey whole plain ih => exact congrArg (key :: value :: ·) ih
  | flag key rest isKey whole follows ih => exact congrArg (key :: ·) ih

theorem wellFormed_parse (words : List Text) : WellFormed (parse words) := by
  induction words using parse_induction with
  | nil => exact .nil
  | positional word rest plain ih =>
    exact .cons (.positional (isKey_eq_false_iff.1 plain)) nofun ih
  | assignment word key value rest split ih =>
    obtain ⟨dashes, rfl, single⟩ := assignment?_eq_some.1 split
    exact .cons (.assignment (dashes_append_iff.1 dashes) single value) nofun ih
  | pair key value rest isKey whole plain ih =>
    exact .cons (.pair (wholeKey_iff.2 ⟨isKey, whole⟩) (isKey_eq_false_iff.1 plain)) nofun ih
  | flag key rest isKey whole follows ih =>
    refine .cons (.flag (wholeKey_iff.2 ⟨isKey, whole⟩)) ?_ ih
    rintro - - next first
    rw [words_parse] at first
    exact isKey_iff.1 (follows next first)

/-- Items can be written one after the other exactly if their words are read as they are. -/
theorem wellFormed_iff {items : List Item} :
    WellFormed items ↔ parse (items.flatMap Item.words) = items :=
  ⟨parse_words, fun read => read ▸ wellFormed_parse _⟩

instance (items : List Item) : Decidable (WellFormed items) := decidable_of_iff _ wellFormed_iff.symm

/-! ## A table of options -/

/-- The values of the keys that were given, and the words that belong to none. -/
structure Table where
  options : Text → Option (List Text) := fun _ => none
  positional : List Text := []

namespace Table

/-- Puts a value behind those that a key has. -/
def push (t : Table) (key value : Text) : Table :=
  { t with options := Function.update t.options key (some ((t.options key).getD [] ++ [value])) }

/-- Fills the table word by word. Where a key has no value in its own word, the next word is its
value unless that is a key. -/
def fill (t : Table) : List Text → Table
  | [] => t
  | word :: rest =>
    if Dashed word then
      if word[1]? = some 45 ∧ 61 ∈ word then
        fill (t.push (word.takeWhile (· != 61)) (word.dropWhile (· != 61)).tail) rest
      else match rest with
        | [] => t.push word "1"
        | next :: more =>
          if next.head? ≠ some 45 ∨ next.length = 1 then fill (t.push word next) more
          else fill (t.push word "1") (next :: more)
    else fill { t with positional := t.positional ++ [word] } rest

def ofWords (words : List Text) : Table := fill {} words

def has (t : Table) (key : Text) : Bool := (t.options key).isSome

def strings (t : Table) (key : Text) : List Text := (t.options key).getD []

/-- The last value of a key; the default if the key is missing or has none. -/
def string (t : Table) (key default : Text) : Text :=
  match t.options key with
  | none => default
  | some values => values.getLast?.getD default

/-- Adds an item. -/
def add (t : Table) : Item → Table
  | .positional word => { t with positional := t.positional ++ [word] }
  | .pair key value | .assignment key value => t.push key value
  | .flag key => t.push key "1"

section Fill

variable (t : Table) {word : Text} (rest : List Text)

theorem fill_positional (plain : isKey word = false) :
    t.fill (word :: rest) = fill { t with positional := t.positional ++ [word] } rest := by
  rw [← Bool.not_eq_true, isKey_iff] at plain
  rw [fill.eq_def]
  exact if_neg plain

theorem fill_assignment {key value : Text} (split : assignment? word = some (key, value)) :
    t.fill (word :: rest) = (t.push key value).fill rest := by
  obtain ⟨dashes, cut, single⟩ := assignment?_eq_some.1 split
  have dashed := isKey_iff.1 (isKey_of_dashes dashes)
  have equals : 61 ∈ word := by simp [cut]
  obtain ⟨before, c, after⟩ := Text.cut_iff.2 ⟨cut, single⟩
  rw [fill.eq_def]
  dsimp only
  rw [if_pos dashed, if_pos ⟨(dashes_iff dashed.1).2 dashes, equals⟩, before, after]
  rfl

variable (isKey : isKey word) (whole : assignment? word = none)
include isKey whole

theorem not_assigned : ¬ (word[1]? = some 45 ∧ 61 ∈ word) := by
  rintro ⟨second, equals⟩
  have dashes := (dashes_iff (isKey_iff.1 isKey).1).1 second
  exact assignment?_eq_none_iff.1 whole dashes equals

theorem fill_pair {value : Text} (plain : CommandLine.isKey value = false) :
    t.fill (word :: value :: rest) = (t.push word value).fill rest := by
  have plain := plain_iff.1 (isKey_eq_false_iff.1 plain)
  rw [fill.eq_def]
  dsimp only
  rw [if_pos (isKey_iff.1 isKey), if_neg (not_assigned isKey whole)]
  exact if_pos plain

theorem fill_flag (follows : ∀ next, rest.head? = some next → CommandLine.isKey next) :
    t.fill (word :: rest) = (t.push word "1").fill rest := by
  rw [fill.eq_def]
  dsimp only
  rw [if_pos (isKey_iff.1 isKey), if_neg (not_assigned isKey whole)]
  cases rest with
  | nil => rfl
  | cons next more =>
    refine if_neg ?_
    rw [← plain_iff, ← isKey_eq_false_iff, Bool.not_eq_false]
    exact follows next rfl

end Fill

/-- Filling a table with words is adding their items. -/
theorem fill_eq (t : Table) (words : List Text) : t.fill words = (parse words).foldl add t := by
  induction words using parse_induction generalizing t with
  | nil => rfl
  | positional word rest plain ih => exact (t.fill_positional rest plain).trans (ih _)
  | assignment word key value rest split ih => exact (t.fill_assignment rest split).trans (ih _)
  | pair key value rest isKey whole plain ih =>
    exact (t.fill_pair rest isKey whole plain).trans (ih _)
  | flag key rest isKey whole follows ih =>
    exact (t.fill_flag rest isKey whole follows).trans (ih _)

/-- An item adds its value to its key and to no other. -/
theorem options_add (t : Table) (item : Item) (key : Text) :
    (t.add item).options key =
      match item.valueOf? key with
      | none => t.options key
      | some value => some ((t.options key).getD [] ++ [value]) := by
  have pushed (k value : Text) : (t.push k value).options key =
      match if k = key then some value else none with
      | none => t.options key
      | some value => some ((t.options key).getD [] ++ [value]) := by
    by_cases same : k = key
    · subst same
      simp [push]
    · simp [push, same, Function.update_of_ne (Ne.symm same)]
  cases item with
  | positional word => rfl
  | pair k value => exact pushed k value
  | flag k => exact pushed k "1"
  | assignment k value => exact pushed k value

/-- Items add the values that they give a key behind those that it has. -/
theorem options_foldl (t : Table) (items : List Item) (key : Text) :
    (items.foldl add t).options key =
      if items.filterMap (·.valueOf? key) = [] then t.options key
      else some ((t.options key).getD [] ++ items.filterMap (·.valueOf? key)) := by
  induction items generalizing t with
  | nil => rfl
  | cons item items ih =>
    rw [List.foldl_cons, ih, options_add]
    cases given : item.valueOf? key with
    | none => simp only [List.filterMap_cons_none given]
    | some value =>
      rw [List.filterMap_cons_some given]
      split_ifs <;> simp_all

theorem positional_foldl (t : Table) (items : List Item) :
    (items.foldl add t).positional = t.positional ++ items.filterMap Item.positional? := by
  induction items generalizing t with
  | nil => simp
  | cons item items ih =>
    rw [List.foldl_cons, ih]
    cases item <;> simp [add, push, List.filterMap_cons, Item.positional?]

/-- A table of words answers as their items do. -/
theorem ofWords_eq (words : List Text) :
    (∀ key, (ofWords words).has key = (CommandLine.ofWords words).has key ∧
      (ofWords words).strings key = (CommandLine.ofWords words).values key ∧
      ∀ default, (ofWords words).string key default =
        (CommandLine.ofWords words).value key default) ∧
    (ofWords words).positional = (CommandLine.ofWords words).positional := by
  constructor
  · intro key
    have options : (ofWords words).options key =
        if (CommandLine.ofWords words).values key = [] then none
        else some ((CommandLine.ofWords words).values key) := by
      rw [ofWords, fill_eq, options_foldl]
      rfl
    unfold has strings string CommandLine.has CommandLine.value CommandLine.value?
    rw [options]
    generalize (CommandLine.ofWords words).values key = values
    cases values <;> simp
  · rw [ofWords, fill_eq, positional_foldl]
    rfl

end Table

/-! ## Command lines -/

/-- Items that can be written one after the other are told by their words: each key has the values
that its items give it, in order, and the positional words are those of the positional items. All
words are those of exactly one such list of items. A table that is filled word by word tells the
same of any words. -/
theorem words_tell_items :
    (∀ items, WellFormed items →
      let c := ofWords (items.flatMap Item.words)
      c.positional = items.filterMap Item.positional? ∧
      ∀ key, let values := items.filterMap (·.valueOf? key)
        c.values key = values ∧ (∀ default, c.value key default = values.getLast?.getD default) ∧
        (c.has key ↔ ∃ item ∈ items, ∃ value, item.valueOf? key = some value)) ∧
    (∀ words, ∃! items, WellFormed items ∧ items.flatMap Item.words = words) ∧
    ∀ words, let t := Table.ofWords words
      let c := ofWords words
      t.positional = c.positional ∧
      ∀ key, t.has key = c.has key ∧ t.strings key = c.values key ∧
        ∀ default, t.string key default = c.value key default := by
  refine ⟨fun items wellFormed => ?_, fun words => ?_, fun words => (Table.ofWords_eq words).symm⟩
  · rw [ofWords, parse_words wellFormed]
    refine ⟨rfl, fun key => ⟨rfl, fun default => rfl, ?_⟩⟩
    simp [has, values, List.filterMap_eq_nil_iff, Option.ne_none_iff_exists']
  · refine ⟨parse words, ⟨wellFormed_parse words, words_parse words⟩, ?_⟩
    rintro items ⟨wellFormed, rfl⟩
    exact (parse_words wellFormed).symm

/-- A bare flag in front of a key and one at the end, an empty value, an equals sign that is a value
and one that belongs to a key, and a dash alone. -/
theorem words_tell_items_flags :
    let items : List Item := [.flag "-v", .pair "-c" "", .assignment "--c" "=", .positional "-",
      .pair "-c" "x", .flag "-a=b"]
    let c := ofWords ["-v", "-c", "", "--c==", "-", "-c", "x", "-a=b"]
    WellFormed items ∧ c.positional = ["-"] ∧ c.values "-c" = ["", "x"] ∧ c.value "-c" "y" = "x" ∧
      c.values "--c" = ["="] ∧ c.values "-v" = ["1"] ∧ c.has "-a=b" := by
  intro items c
  have wellFormed : WellFormed items := by decide +kernel
  have words : items.flatMap Item.words = ["-v", "-c", "", "--c==", "-", "-c", "x", "-a=b"] := by
    decide +kernel
  obtain ⟨positional, each⟩ := words_tell_items.1 items wellFormed
  rw [words] at positional each
  refine ⟨wellFormed, positional.trans (by decide +kernel), (each "-c").1.trans (by decide +kernel),
    ((each "-c").2.1 "y").trans (by decide +kernel), (each "--c").1.trans (by decide +kernel),
    (each "-v").1.trans (by decide +kernel), ?_⟩
  exact (each "-a=b").2.2.2 ⟨.flag "-a=b", by decide +kernel, "1", by decide +kernel⟩

end ForwardIndex.CommandLine
