import ForwardIndex.Proofs.IndexPath
import ForwardIndex.Proofs.PairedBuilds
import ForwardIndex.Tool
import Mathlib.Data.List.Pairwise

/-!
# Tasks in any order

The tasks of a job are its columns with their numbers. They may be run in any order; each leaves its
result in the slot of its number, and all of them are looked at when the last is done. In command-line
order this is the program. Where no path of a job leads through an index that it has nothing to do
with, every task comes to what it would come to as the only one.
-/
set_option autoImplicit false
namespace ForwardIndex

/-! ## Columns of a command line -/

namespace Column.Source

/-- What a list of sources is made of: names without slashes, no two the same. -/
structure Distinct (sources : List Column.Source) : Prop where
  slash : ∀ source ∈ sources, 47 ∉ source.name
  names : sources.Pairwise (·.name ≠ ·.name)

theorem slash_of_parse {t : Text} {source : Column.Source} (h : parse t = .ok source) :
    47 ∉ source.name := by
  unfold parse at h
  split at h
  · cases h
  split at h
  · cases h
  split at h
  · cases h
  next named =>
  split at h
  · cases h
  split at h
  · cases h
  · cases h
    exact (not_or.1 named).2

theorem parseFrom_distinct {found sources : List Column.Source} {ts : List Text}
    (distinct : Distinct found) (h : parseFrom found ts = (.ok (), sources)) :
    Distinct sources := by
  induction ts generalizing found with
  | nil =>
    cases h
    exact distinct
  | cons t rest ih =>
    rw [parseFrom] at h
    cases parsed : parse t with
    | error e =>
      rw [parsed] at h
      cases h
    | ok source =>
      rw [parsed] at h
      dsimp only at h
      split at h
      · cases h
      · next new =>
        refine ih ⟨List.forall_mem_append.2 ⟨distinct.slash,
          List.forall_mem_singleton.2 (slash_of_parse parsed)⟩, ?_⟩ h
        refine List.pairwise_append.2 ⟨distinct.names, List.pairwise_singleton _ _, ?_⟩
        intro other among last same
        obtain rfl := List.mem_singleton.1 same
        intro twice
        exact new (List.any_eq_true.2 ⟨other, among, beq_iff_eq.2 twice⟩)

/-- Sources with one name are one. -/
theorem Distinct.name_ne {sources : List Column.Source} (h : Distinct sources)
    {source other : Column.Source} (mem : source ∈ sources) (mem' : other ∈ sources)
    (ne : source ≠ other) : source.name ≠ other.name :=
  have : Std.Symm fun a b : Column.Source => a.name ≠ b.name := ⟨fun _ _ => Ne.symm⟩
  h.names.forall mem mem' ne

theorem parseAll_distinct {sources : List Column.Source} {ts : List Text}
    (h : parseAll ts = (.ok (), sources)) : Distinct sources :=
  parseFrom_distinct ⟨List.forall_mem_nil _, List.Pairwise.nil⟩ h

end Column.Source

namespace Tool

open Column (indexPlace indexPath Sound Agree)
open Volume (Beside Meets Plain)

theorem distinct_of_jobOf {c : CommandLine} {job : Job} (admitted : jobOf c = .ok job) :
    Column.Source.Distinct job.columns := by
  unfold jobOf at admitted
  split at admitted
  · cases admitted
  · cases admitted
  · next parsed =>
    dsimp only at admitted
    split at admitted
    · cases admitted
    split at admitted
    · cases admitted
    · cases admitted
      exact Column.Source.parseAll_distinct parsed

/-! ## Tasks -/

namespace Job

/-- The job with one column. -/
def only (job : Job) (source : Column.Source) : Job := { job with columns := [source] }

/-- The place of the index of a column. -/
def place (job : Job) (source : Column.Source) : Place := indexPlace job.directory source.name

/-- The tasks, in the order of the command line: every column with its number. -/
def tasks (job : Job) : List (Column.Source × Nat) := job.columns.zipIdx

/-- No path leads through the index of a column that it has nothing to do with: neither the path of
another column's input nor that of the directory. No NUL byte ends a path early. -/
structure Apart (job : Job) : Prop where
  directoryText : 0 ∉ job.directory
  nameText : ∀ source ∈ job.columns, 0 ∉ source.name
  inputs : ∀ source ∈ job.columns, ∀ other ∈ job.columns, other ≠ source →
    job.place other ∉ Path.journey source.path
  directory : ∀ source ∈ job.columns, job.place source ∉ Path.journey job.directory

end Job

/-- Runs tasks in an order; each leaves its result in the slot of its number. -/
def runTasks (job : Job) (logger : Logger) (z : Deflater) :
    List (Column.Source × Nat) → List (Option Result) → Session → List (Option Result) × Session
  | [], slots, s => (slots, s)
  | (source, i) :: rest, slots, s =>
    let (outcome, summary, s) := buildColumn job logger source s z
    runTasks job logger z rest (slots.set i (some ⟨source, outcome, summary⟩)) s

/-- The results of all columns, in the order of the command line, when the tasks were run in an
order. -/
def results (job : Job) (logger : Logger) (z : Deflater) (order : List (Column.Source × Nat))
    (s : Session) : List Result × Session :=
  let (slots, s) := runTasks job logger z order (List.replicate job.columns.length none) s
  (slots.filterMap id, s)

/-- Makes the directory and tells what is to be done. -/
def start (c : CommandLine) (job : Job) (processors : Int32) (s : Session) :
    Except Ending Session :=
  let logger := loggerOf c
  match s.volume.createDirectories job.directory with
  | (some e, volume) =>
    .error ⟨1, { s with volume }.report (errorLine (Refusal.directory job.directory e).message), []⟩
  | (none, volume) =>
    let s := { s with volume }.report (logger.info (columnsLine job))
    .ok (s.report (logger.info (parametersLine job (c.threads "-threads" processors))))

/-- What is done when all tasks are over. -/
def conclude (c : CommandLine) (job : Job) (results : List Result) (s : Session)
    (print : Report.Value → Text) : Ending :=
  if results.all (·.outcome == .ok ()) then finish c job (loggerOf c) results s print
  else ⟨1, s.report (results.filterMap Result.errorLine?).flatten, []⟩

/-- The program on a job whose tasks are run in an order. -/
def performIn (c : CommandLine) (job : Job) (processors : Int32)
    (order : List (Column.Source × Nat)) (s : Session) (z : Deflater)
    (print : Report.Value → Text) : Ending :=
  match start c job processors s with
  | .error ending => ending
  | .ok s =>
    let (results, s) := results job (loggerOf c) z order s
    conclude c job results s print

/-- Tasks that are run in the order of their numbers fill one slot after the other. -/
theorem runTasks_zipIdx (job : Job) (logger : Logger) (z : Deflater) (sources : List Column.Source)
    (before : List (Option Result)) (s : Session) :
    runTasks job logger z (sources.zipIdx before.length)
        (before ++ List.replicate sources.length none) s =
      (before ++ (buildAll job logger z sources s).1.map some,
        (buildAll job logger z sources s).2) := by
  induction sources generalizing before s with
  | nil => rfl
  | cons source rest ih =>
    rw [List.zipIdx_cons, runTasks, buildAll]
    rcases buildColumn job logger source s z with ⟨outcome, summary, s₁⟩
    have next := ih (before ++ [some ⟨source, outcome, summary⟩]) s₁
    rw [List.length_append, List.length_singleton] at next
    simp only [List.length_cons, List.replicate_succ, List.set_append_right _ _ (Nat.le_refl _),
      Nat.sub_self, List.set_cons_zero, List.map_cons]
    rw [List.append_cons, next, List.append_assoc, List.singleton_append]

/-- In command-line order this is the program. -/
theorem performIn_tasks (c : CommandLine) (job : Job) (processors : Int32) (s : Session)
    (z : Deflater) (print : Report.Value → Text) :
    performIn c job processors job.tasks s z print = perform c job processors s z print := by
  unfold performIn perform start results Job.tasks
  rcases s.volume.createDirectories job.directory with ⟨refusal, volume⟩
  cases refusal with
  | some e => rfl
  | none =>
    have run := runTasks_zipIdx job (loggerOf c) z job.columns []
    have whole (results : List Result) : (results.map some).filterMap id = results := by
      rw [List.filterMap_map, Function.id_comp, List.filterMap_some]
    simp only [List.length_nil, List.nil_append] at run
    simp only [run, whole]
    rfl

/-! ## One task -/

/-- Two volumes that differ in the indexes of other columns at most, and in what befalls the writing
of these. -/
def Job.SameFor (job : Job) (source : Column.Source) (v v' : Volume) : Prop :=
  ∀ q, (∀ other ∈ job.columns, other ≠ source → q ≠ job.place other) → v'.site q = v.site q

theorem Job.SameFor.node {job : Job} {source : Column.Source} {v v' : Volume}
    (same : job.SameFor source v v') {q : Place}
    (away : ∀ other ∈ job.columns, other ≠ source → q ≠ job.place other) :
    v'.node? q = v.node? q :=
  congrArg Volume.Site.node (same q away)

section Task

variable {job : Job} {logger : Logger} {source other : Column.Source} {s s' : Session}
  {z : Deflater} (distinct : Column.Source.Distinct job.columns) (apart : job.Apart)
include distinct apart

theorem Job.Apart.sound (mem : source ∈ job.columns) : Sound job.directory source.name :=
  ⟨apart.directoryText, apart.nameText source mem, distinct.slash source mem⟩

theorem Job.Apart.place_ne (mem : source ∈ job.columns) (mem' : other ∈ job.columns)
    (ne : other ≠ source) : job.place other ≠ job.place source :=
  Column.indexPlace_ne (apart.sound distinct mem') (apart.sound distinct mem)
    (distinct.name_ne mem' mem ne)

/-- The path of an index meets nothing that differs. -/
theorem Job.Apart.meets (mem : source ∈ job.columns) {v v' : Volume} (plain : v.Plain)
    (plain' : v'.Plain) (same : job.SameFor source v v') :
    Meets (indexPath job.directory source.name) (job.place source) v v' where
  goal := rfl
  plain := plain
  plain' := plain'
  way q hq own := by
    refine same.node fun other mem' _ passed => ?_
    rw [(apart.sound distinct mem).journey_indexPath, List.mem_append] at hq
    obtain outer | last := hq
    · exact apart.directory other mem' (passed ▸ outer)
    · exact own (List.mem_singleton.1 last)
  entries name := same.node fun other mem' _ below =>
    Column.indexPlace_ne_cons (apart.sound distinct mem) (apart.sound distinct mem') name below.symm

/-- A task comes to the same on volumes that differ in the indexes of other columns at most, and
changes nothing but its own index. -/
theorem buildColumn_agree (logger : Logger) (mem : source ∈ job.columns) (plain : s.volume.Plain)
    (plain' : s'.volume.Plain) (same : job.SameFor source s.volume s'.volume) :
    Agree (job.place source) s.volume s'.volume (buildColumn job logger source s z)
      (buildColumn job logger source s' z) := by
  have own : s'.volume.site (job.place source) = s.volume.site (job.place source) :=
    same _ fun other mem' ne => (apart.place_ne distinct mem mem' ne).symm
  have beside : Beside (job.place source) s.volume s'.volume s.volume s'.volume :=
    ⟨own, plain _, fun _ _ => rfl, fun _ _ => rfl⟩
  have read : Column.read source.type source.path s'.volume =
      Column.read source.type source.path s.volume := by
    rw [Column.read, Column.read, Volume.read_congr plain plain' fun q hq =>
      same.node fun other mem' ne passed => apart.inputs source mem other mem' ne (passed ▸ hq)]
  unfold buildColumn
  rw [read]
  split
  · exact ⟨rfl, rfl, beside⟩
  · exact Column.build_agree beside (apart.meets distinct mem plain plain' same)
      (logger.withTag source.name) z source.name _ job.config {} rfl

/-- What a task leaves is a volume that the next can be run on, and differs in its index at most. -/
theorem buildColumn_leaves (logger : Logger) (mem : source ∈ job.columns) (plain : s.volume.Plain) :
    (buildColumn job logger source s z).2.2.volume.Plain ∧
      ∀ q, q ≠ job.place source →
        (buildColumn job logger source s z).2.2.volume.site q = s.volume.site q := by
  have twice := buildColumn_agree (z := z) distinct apart logger mem plain plain fun _ _ => rfl
  exact ⟨twice.beside.plain plain, twice.beside.left⟩

end Task

/-! ## A run of tasks -/

/-- What the task of a column comes to as the only one. -/
def lone (job : Job) (logger : Logger) (z : Deflater) (s : Session) (source : Column.Source) :
    Result :=
  ⟨source, (buildColumn job logger source s z).1, (buildColumn job logger source s z).2.1⟩

/-- What some tasks have left: each its result and its index as if it were the only one, and nothing
else. -/
structure Left (job : Job) (logger : Logger) (z : Deflater) (s₀ : Session)
    (done : List (Column.Source × Nat)) (slots : List (Option Result)) (s : Session) : Prop where
  plain : s.volume.Plain
  others : ∀ q, (∀ task ∈ done, q ≠ job.place task.1) → s.volume.site q = s₀.volume.site q
  indexes : ∀ task ∈ done, s.volume.site (job.place task.1) =
    (buildColumn job logger task.1 s₀ z).2.2.volume.site (job.place task.1)
  length : slots.length = job.columns.length
  slots : ∀ task ∈ done, slots[task.2]? = some (some (lone job logger z s₀ task.1))

section Run

variable {job : Job} {logger : Logger} {s₀ s : Session} {done : List (Column.Source × Nat)}
  {slots : List (Option Result)} {z : Deflater}
  (distinct : Column.Source.Distinct job.columns) (apart : job.Apart)

theorem Job.mem_of_mem_tasks {job : Job} {source : Column.Source} {i : Nat}
    (h : (source, i) ∈ job.tasks) : source ∈ job.columns :=
  List.mem_of_getElem? (List.mk_mem_zipIdx_iff_getElem?.1 h)

/-- Every column has one number. -/
theorem Job.tasks_inj (distinct : Column.Source.Distinct job.columns) {source : Column.Source}
    {i j : Nat} (h : (source, i) ∈ job.tasks) (h' : (source, j) ∈ job.tasks) : i = j := by
  have nodup : job.columns.Nodup := distinct.names.imp fun ne same => ne (congrArg _ same)
  have first := List.mk_mem_zipIdx_iff_getElem?.1 h
  have second := List.mk_mem_zipIdx_iff_getElem?.1 h'
  obtain ⟨hi, -⟩ := List.getElem?_eq_some_iff.1 first
  exact (List.getElem?_inj hi nodup).1 (first.trans second.symm)

include distinct apart

/-- One more task leaves its result and its index. -/
theorem Left.step {source : Column.Source} {i : Nat} (h : Left job logger z s₀ done slots s)
    (plain : s₀.volume.Plain) (known : ∀ task ∈ done, task ∈ job.tasks)
    (mem : (source, i) ∈ job.tasks) (new : (source, i) ∉ done) :
    Left job logger z s₀ (done ++ [(source, i)])
      (slots.set i (some ⟨source, (buildColumn job logger source s z).1,
        (buildColumn job logger source s z).2.1⟩))
      (buildColumn job logger source s z).2.2 := by
  have among : source ∈ job.columns := Job.mem_of_mem_tasks mem
  have unlike (task : Column.Source × Nat) (before : task ∈ done) : task.1 ≠ source := by
    rintro rfl
    obtain rfl := Job.tasks_inj distinct mem (known task before)
    exact new before
  have same : job.SameFor source s₀.volume s.volume := fun q other => h.others q fun task before =>
    other task.1 (Job.mem_of_mem_tasks (known task before)) (unlike task before)
  obtain ⟨outcome, summary, beside⟩ :=
    buildColumn_agree (z := z) distinct apart logger among plain h.plain same
  obtain ⟨plain', kept⟩ := buildColumn_leaves (z := z) distinct apart logger among h.plain
  refine ⟨plain', fun q away => ?_, ?_, by rw [List.length_set, h.length], ?_⟩
  · rw [kept q (away (source, i) (by simp)),
      h.others q fun task before => away task (List.mem_append_left _ before)]
  · refine List.forall_mem_append.2 ⟨fun task before => ?_, List.forall_mem_singleton.2 beside.here⟩
    rw [kept _ (apart.place_ne distinct among (Job.mem_of_mem_tasks (known task before))
      (unlike task before)), h.indexes task before]
  · refine List.forall_mem_append.2 ⟨fun task before => ?_, List.forall_mem_singleton.2 ?_⟩
    · have other : i ≠ task.2 := by
        rintro rfl
        have first := List.mk_mem_zipIdx_iff_getElem?.1 mem
        have second := List.mk_mem_zipIdx_iff_getElem?.1 (known task before)
        exact unlike task before (Option.some.inj (second.symm.trans first))
      rw [List.getElem?_set_ne other, h.slots task before]
    · have within : i < slots.length := by
        rw [h.length]
        exact (List.getElem?_eq_some_iff.1 (List.mk_mem_zipIdx_iff_getElem?.1 mem)).1
      rw [List.getElem?_set_self within, lone, outcome, summary]

/-- Any order of tasks leaves this; by induction on the tasks that are still to come. -/
theorem Left.run (h : Left job logger z s₀ done slots s) (plain : s₀.volume.Plain)
    {order : List (Column.Source × Nat)} (known : ∀ task ∈ done ++ order, task ∈ job.tasks)
    (once : (done ++ order).Nodup) :
    Left job logger z s₀ (done ++ order) (runTasks job logger z order slots s).1
      (runTasks job logger z order slots s).2 := by
  induction order generalizing done slots s with
  | nil =>
    rw [List.append_nil]
    exact h
  | cons task rest ih =>
    obtain ⟨source, i⟩ := task
    rw [List.append_cons] at known once ⊢
    have new : (source, i) ∉ done := by
      have first := List.Nodup.of_append_left once
      exact fun before => (List.nodup_append.1 first).2.2 _ before _ (by simp) rfl
    have next := h.step distinct apart plain
      (fun task before => known task (by simp [before])) (known (source, i) (by simp)) new
    exact ih next known once

end Run

end Tool
end ForwardIndex
