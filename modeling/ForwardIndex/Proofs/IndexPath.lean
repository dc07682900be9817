import ForwardIndex.Proofs.Journey
import Mathlib.Data.List.TakeWhile

/-!
# Where the index of a column goes

The path of an index leads through the places that its directory leads through, and one name
further. So columns of one directory with distinct names have distinct places.
-/
set_option autoImplicit false
namespace ForwardIndex

namespace Path

/-! ## Texts with slashes -/

theorem consByte_eq_cons (c : UInt8) (pieces : List Text) :
    ∃ first rest, consByte c pieces = first :: rest := by
  unfold consByte
  split <;> split <;> exact ⟨_, _, rfl⟩

/-- Pieces that follow the first stay as they are when bytes are put in front. -/
theorem foldr_consByte_cons (front first : Text) (rest : List Text) :
    front.foldr consByte (first :: rest) = front.foldr consByte [first] ++ rest := by
  induction front with
  | nil => rfl
  | cons c front ih =>
    obtain ⟨piece, more, pieces⟩ : ∃ piece more, front.foldr consByte [first] = piece :: more := by
      cases front with
      | nil => exact ⟨first, [], rfl⟩
      | cons d front => exact consByte_eq_cons d _
    rw [List.foldr_cons, List.foldr_cons, ih, pieces, List.cons_append, consByte, consByte]
    split <;> rfl

/-- An empty piece at the end adds no name. -/
theorem filter_foldr_consByte (front : Text) :
    (front.foldr consByte [[]]).filter (· != []) = (front.foldr consByte []).filter (· != []) := by
  obtain rfl | ⟨front, c, rfl⟩ := List.eq_nil_or_concat front
  · rfl
  · rw [List.concat_eq_append, List.foldr_append, List.foldr_append]
    rfl

/-- A slash parts the names before it from those behind it. -/
theorem names_slash (front back : Text) :
    (ofText (front ++ 47 :: back)).names = (ofText front).names ++ (ofText back).names := by
  have parted : (47 :: back).foldr consByte [] = [] :: (if back = [] then [[]] else
      back.foldr consByte []) := by
    cases back with
    | nil => rfl
    | cons c back =>
      obtain ⟨first, rest, pieces⟩ := consByte_eq_cons c (back.foldr consByte [])
      rw [if_neg (List.cons_ne_nil _ _), List.foldr_cons, List.foldr_cons, pieces]
      rfl
  simp only [ofText]
  rw [List.foldr_append, parted, foldr_consByte_cons, List.filter_append, filter_foldr_consByte]
  split
  · next none =>
    rw [none]
    rfl
  · rfl

/-- A text without a slash is a name. -/
theorem names_of_notMem {name : Text} (slash : 47 ∉ name) (some : name ≠ []) :
    (ofText name).names = [name] := by
  have whole : name.foldr consByte [] = [name] := by
    induction name with
    | nil => exact absurd rfl some
    | cons c name ih =>
      obtain ⟨first, rest⟩ := not_or.1 (mt List.mem_cons.2 slash)
      rw [List.foldr_cons]
      by_cases last : name = []
      · rw [last, List.foldr_nil, consByte, if_neg (Ne.symm first)]
      · rw [ih rest last, consByte, if_neg (Ne.symm first)]
  rw [ofText, whole]
  simp [some]

end Path

namespace Column

/-! ## The path of an index -/

/-- The name of the file of an index. -/
def indexName (column : Text) : Text := column ++ indexExtension

/-- The place of the index of a column. -/
def indexPlace (dir column : Text) : Place := Path.goal (indexPath dir column)

/-- Arguments that a path can be made of: no NUL byte ends them early, and the name of the column
has no slash. -/
structure Sound (dir column : Text) : Prop where
  directory : 0 ∉ dir
  name : 0 ∉ column
  slash : 47 ∉ column

section IndexPath

variable {dir column other : Text}

theorem indexName_ne_dots (column : Text) :
    indexName column ≠ Path.current ∧ indexName column ≠ Path.parent := by
  have length : 2 < (indexName column).length := by
    rw [indexName, List.length_append, show indexExtension.length = 11 from rfl]
    omega
  constructor <;> intro same <;> rw [same] at length <;> exact absurd length (by decide)

theorem Sound.slash_notMem_indexName (h : Sound dir column) : 47 ∉ indexName column :=
  List.not_mem_append h.slash (by decide)

/-- The path of an index has the start of its directory and one name more. -/
theorem Sound.ofText_indexPath (h : Sound dir column) :
    (Path.ofText (indexPath dir column)).start = (Path.ofText dir).start ∧
      (Path.ofText (indexPath dir column)).names =
        (Path.ofText dir).names ++ [indexName column] := by
  have some : indexName column ≠ [] := List.append_ne_nil_of_right_ne_nil _ (by decide)
  have name := Path.names_of_notMem h.slash_notMem_indexName some
  have first : (indexName column).head? ≠ .some 47 := fun slash =>
    h.slash_notMem_indexName (List.mem_of_head? slash)
  have joined : indexPath dir column = joinPath dir (indexName column) := rfl
  rw [joined, joinPath]
  by_cases empty : dir = []
  · rw [if_pos (.inr empty), empty, name]
    simp [Path.start, Path.ofText, first]
  have front (rest : Text) : (dir ++ rest).head? = dir.head? := by
    cases dir with
    | nil => exact absurd rfl empty
    | cons c dir => rfl
  rw [if_neg (not_or.2 ⟨first, empty⟩)]
  by_cases trailing : dir.getLast? = .some 47
  · obtain ⟨outer, rfl⟩ := List.getLast?_eq_some_iff.1 trailing
    rw [if_pos trailing]
    refine ⟨by rw [Path.start, Path.start, Path.ofText, Path.ofText, front], ?_⟩
    rw [List.append_assoc, List.singleton_append, Path.names_slash, Path.names_slash, name]
    simp [Path.ofText]
  · rw [if_neg trailing, List.append_assoc]
    refine ⟨by rw [Path.start, Path.start, Path.ofText, Path.ofText, front], ?_⟩
    rw [List.singleton_append, Path.names_slash, name]

theorem Sound.untilNul_indexPath (h : Sound dir column) :
    (indexPath dir column).untilNul = indexPath dir column := by
  refine Text.untilNul_eq_self ?_
  have name : 0 ∉ column ++ indexExtension := List.not_mem_append h.name (by decide)
  rw [indexPath, joinPath]
  split
  · exact name
  split
  · exact List.not_mem_append h.directory name
  · exact List.not_mem_append (List.not_mem_append h.directory (by decide)) name

theorem Sound.indexPlace_eq (h : Sound dir column) :
    indexPlace dir column = indexName column :: Path.goal dir := by
  obtain ⟨start, names⟩ := h.ofText_indexPath
  obtain ⟨plain, down⟩ := indexName_ne_dots column
  rw [indexPlace, Path.goal, Path.goal, h.untilNul_indexPath, Text.untilNul_eq_self h.directory,
    start, names, Place.goal_concat plain down]

/-- The path of an index leads where its directory leads, and to the place of the index. -/
theorem Sound.journey_indexPath (h : Sound dir column) :
    Path.journey (indexPath dir column) = Path.journey dir ++ [indexPlace dir column] := by
  obtain ⟨start, names⟩ := h.ofText_indexPath
  obtain ⟨plain, down⟩ := indexName_ne_dots column
  rw [h.indexPlace_eq, Path.journey, Path.journey, Path.goal, h.untilNul_indexPath,
    Text.untilNul_eq_self h.directory, start, names, Place.journey_concat plain down]

theorem indexPlace_ne (h : Sound dir column) (h' : Sound dir other) (ne : column ≠ other) :
    indexPlace dir column ≠ indexPlace dir other := by
  rw [h.indexPlace_eq, h'.indexPlace_eq]
  intro same
  exact ne (List.append_cancel_right (List.cons.inj same).1)

/-- No index is an entry of another. -/
theorem indexPlace_ne_cons (h : Sound dir column) (h' : Sound dir other) (name : Text) :
    indexPlace dir other ≠ name :: indexPlace dir column := by
  rw [h.indexPlace_eq, h'.indexPlace_eq]
  intro same
  exact absurd (congrArg List.length (List.cons.inj same).2) (by simp)

/-- Where the system opens the path of an index, it leads to a file or nowhere, unless a device
stands at the place. -/
theorem Sound.leadsToFile (h : Sound dir column) {v : Volume} (plain : v.Plain)
    (opens : ∃ opened, v.openWrite (indexPath dir column) = .ok opened)
    (noDevice : ∀ kind, v.node? (indexPlace dir column) ≠ some (.device kind)) :
    v.LeadsToFile (indexPath dir column) := by
  obtain ⟨dot, dots⟩ := indexName_ne_dots column
  obtain ⟨-, names⟩ := h.ofText_indexPath
  intro p found
  obtain rfl : p = indexPlace dir column := Volume.find_goal plain found
  have stands : v.node? (indexPlace dir column) ≠ none := by
    unfold Volume.find at found
    split at found
    · cases found
    · next located =>
      cases found
      simp only [Volume.locate] at located
      split_ifs at located
      rw [Volume.walk_plain plain, h.untilNul_indexPath, names] at located
      split at located
      · next walked =>
        split_ifs at located
        · cases located
          exact Volume.walkNames_entry dot dots walked
        · rw [Volume.checkDirectory_ok located] at walked
          exact Volume.walkNames_entry dot dots walked
      · cases located
      · cases located
    · cases found
  obtain ⟨opened, opens⟩ := opens
  unfold Volume.openWrite at opens
  split at opens
  · cases opens
  · next directory name located =>
    have place : name :: directory = indexPlace dir column := Volume.locate_goal plain located
    exact absurd (place ▸ Volume.locate_vacancy located) stands
  · next q located =>
    obtain rfl : q = indexPlace dir column := Volume.locate_goal plain located
    cases node : v.node? (indexPlace dir column) with
    | none => exact absurd node stands
    | some n =>
      cases n with
      | file content => exact ⟨content, rfl⟩
      | directory =>
        rw [node] at opens
        cases opens
      | link target => exact absurd node (plain _ target)
      | device kind => exact absurd node (noDevice kind)

end IndexPath
end Column
end ForwardIndex
