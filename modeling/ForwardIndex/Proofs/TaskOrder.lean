import ForwardIndex.Proofs.ColumnBuild
import ForwardIndex.Proofs.Tasks

/-!
# The order of tasks does not matter

Where no path of a job leads through an index that it has nothing to do with, every order of the
tasks ends alike: with the results that the columns have alone, in the order of the command line.
-/
set_option autoImplicit false
namespace ForwardIndex.Tool

open Column (indexPlace indexPath Sound Agree)
open Volume (Beside Meets Plain)

/-! ## When all tasks are done -/

/-- What is left of all tasks: the results and the indexes that the columns have alone, and nothing
else. -/
structure Done (job : Job) (logger : Logger) (z : Deflater) (s₀ : Session)
    (r : List Result × Session) : Prop where
  results : r.1 = job.columns.map (lone job logger z s₀)
  plain : r.2.volume.Plain
  others : ∀ q, (∀ source ∈ job.columns, q ≠ job.place source) →
    r.2.volume.site q = s₀.volume.site q
  indexes : ∀ source ∈ job.columns, r.2.volume.site (job.place source) =
    (buildColumn job logger source s₀ z).2.2.volume.site (job.place source)

section Done

variable {job : Job} {logger : Logger} {s₀ : Session} {z : Deflater}

theorem Job.nodup_tasks (job : Job) : job.tasks.Nodup := by
  refine List.Nodup.of_map Prod.snd ?_
  rw [Job.tasks, List.zipIdx_map_snd]
  exact List.nodup_range'

theorem results_done (distinct : Column.Source.Distinct job.columns) (apart : job.Apart)
    (plain : s₀.volume.Plain) {order : List (Column.Source × Nat)} (perm : order.Perm job.tasks) :
    Done job logger z s₀ (results job logger z order s₀) := by
  have idle : Left job logger z s₀ [] (List.replicate job.columns.length none) s₀ :=
    ⟨plain, fun _ _ => rfl, List.forall_mem_nil _, List.length_replicate, List.forall_mem_nil _⟩
  have known : ∀ task ∈ [] ++ order, task ∈ job.tasks := fun task among => perm.mem_iff.1 among
  have left := idle.run distinct apart plain known (perm.nodup_iff.2 job.nodup_tasks)
  rw [List.nil_append] at left
  have numbered (source : Column.Source) (mem : source ∈ job.columns) :
      ∃ i, (source, i) ∈ order := by
    obtain ⟨i, found⟩ := List.mem_iff_getElem?.1 mem
    exact ⟨i, perm.mem_iff.2 (List.mk_mem_zipIdx_iff_getElem?.2 found)⟩
  refine ⟨?_, left.plain, fun q away => left.others q fun task among =>
    away task.1 (Job.mem_of_mem_tasks (perm.mem_iff.1 among)), fun source mem => ?_⟩
  · have slots : (runTasks job logger z order (List.replicate job.columns.length none) s₀).1 =
        (job.columns.map (lone job logger z s₀)).map some := by
      apply List.ext_getElem?
      intro i
      rw [List.map_map, List.getElem?_map]
      cases found : job.columns[i]? with
      | none =>
        rw [List.getElem?_eq_none_iff] at found
        rw [List.getElem?_eq_none (left.length.trans_le found)]
        rfl
      | some source =>
        have task : (source, i) ∈ order :=
          perm.mem_iff.2 (List.mk_mem_zipIdx_iff_getElem?.2 found)
        exact left.slots (source, i) task
    change (runTasks job logger z order _ s₀).1.filterMap id = _
    rw [slots, List.filterMap_map, Function.id_comp, List.filterMap_some]
  · obtain ⟨i, among⟩ := numbered source mem
    exact left.indexes (source, i) among

end Done

/-! ## The end of a run -/

/-- Two runs end alike behind their tasks: with one exit code, the same on the standard output and
in the tree, and the same lines. -/
structure EndAlike (s s' : Session) (e e' : Ending) : Prop where
  exitCode : e'.exitCode = e.exitCode
  output : e'.output = e.output
  nodes : ∀ q, e'.session.volume.node? q = e.session.volume.node? q
  lines : ∃ closing, e.session.log = s.log ++ closing ∧ e'.session.log = s'.log ++ closing

section Conclude

variable {c : CommandLine} {job : Job} {s s' : Session} {print : Report.Value → Text}

/-- A report is written alike to volumes that are the same at every place, and changes nothing but
its file. -/
theorem write_beside (r : Report) (path : Text) {v v' : Volume} (plain : v.Plain) (plain' : v'.Plain)
    (same : ∀ q, v'.site q = v.site q) :
    (r.write path v' print).1 = (r.write path v print).1 ∧
      (r.write path v' print).2.1 = (r.write path v print).2.1 ∧
      Beside (Path.goal path) v v' (r.write path v print).2.2 (r.write path v' print).2.2 := by
  have beside : Beside (Path.goal path) v v' v v' :=
    ⟨same _, plain _, fun _ _ => rfl, fun _ _ => rfl⟩
  have node (q : Place) : v'.node? q = v.node? q := congrArg Volume.Site.node (same q)
  have meets : Meets path (Path.goal path) v v' :=
    ⟨rfl, plain, plain', fun q _ _ => node q, fun _ => node _⟩
  obtain ⟨made, after⟩ :=
    FileHandle.create_beside beside meets (Bytes.ofText (r.render print ++ Text.lit "\n"))
  unfold Report.write
  dsimp only
  split
  · exact ⟨rfl, rfl, beside⟩
  · rcases left : FileHandle.create path (Bytes.ofText (r.render print ++ Text.lit "\n")) v
      with ⟨outcome, u⟩
    rcases right : FileHandle.create path (Bytes.ofText (r.render print ++ Text.lit "\n")) v'
      with ⟨outcome', u'⟩
    rw [left, right] at made after
    obtain rfl : outcome' = outcome := made
    cases outcome' with
    | ok u => exact ⟨rfl, rfl, after⟩
    | error e => exact ⟨rfl, rfl, after⟩

/-- The end of a run depends on the results and on what the tree shows. -/
theorem conclude_alike (results : List Result) (plain : s.volume.Plain) (plain' : s'.volume.Plain)
    (same : ∀ q, s'.volume.site q = s.volume.site q) :
    EndAlike s s' (conclude c job results s print) (conclude c job results s' print) := by
  have node (q : Place) : s'.volume.node? q = s.volume.node? q :=
    congrArg Volume.Site.node (same q)
  unfold conclude
  split
  · unfold finish
    dsimp only
    split
    · exact ⟨rfl, rfl, node, _, List.append_assoc .., List.append_assoc ..⟩
    · next path _ =>
      obtain ⟨outcome, output, beside⟩ :=
        write_beside ⟨job.config, results.map (·.summary)⟩ path plain plain' same
      have nodes (q : Place) := by
        by_cases goal : q = Path.goal path
        · exact goal ▸ beside.node
        · exact (beside.symm.left_node goal).trans ((node q).trans (beside.left_node goal).symm)
      dsimp only [Session.report] at outcome output nodes ⊢
      rcases left : Report.write ⟨job.config, results.map (·.summary)⟩ path s.volume print
        with ⟨written, text, v⟩
      rcases right : Report.write ⟨job.config, results.map (·.summary)⟩ path s'.volume print
        with ⟨written', text', v'⟩
      rw [left, right] at outcome output nodes
      rw [left, right]
      obtain rfl : written' = written := outcome
      obtain rfl : text' = text := output
      cases written' with
      | ok u => exact ⟨rfl, rfl, nodes, _, List.append_assoc .., List.append_assoc ..⟩
      | error e => exact ⟨rfl, rfl, nodes, _, List.append_assoc .., List.append_assoc ..⟩
  · exact ⟨rfl, rfl, node, _, rfl, rfl⟩

/-- Behind the tasks nothing changes but the file of the report. -/
theorem conclude_node? (results : List Result) (plain : s.volume.Plain) {q : Place}
    (away : ∀ path, c.value? "-report" = some path → Path.goal path ≠ q) :
    (conclude c job results s print).session.volume.node? q = s.volume.node? q := by
  unfold conclude
  split
  · unfold finish
    dsimp only
    split
    · rfl
    · next path reported =>
      obtain ⟨-, -, beside⟩ := write_beside ⟨job.config, results.map (·.summary)⟩ path plain plain
        fun _ => rfl
      have kept := beside.left_node (away path reported).symm
      dsimp only [Session.report] at kept ⊢
      split
      · next written => rwa [written] at kept
      · next written => rwa [written] at kept
  · rfl

end Conclude

/-! ## Columns that were built -/

/-- What is read is a column of the type. -/
theorem type_read (type : ColumnType) (path : Text) (v : Volume) :
    (Column.read type path v).2.type = type := by
  unfold Column.read
  split
  · cases type <;> rfl
  · cases type <;> rfl
  · cases type <;> rfl

/-- A task that succeeds, where no device stands at the place of the index, leaves a file there that
is read as the column. -/
theorem buildColumn_whole {job : Job} {logger : Logger} {source : Column.Source} {s : Session}
    {z : Deflater} {inflate : Bytes → Option Bytes} (sound : Sound job.directory source.name)
    (plain : s.volume.Plain) (plain' : (buildColumn job logger source s z).2.2.volume.Plain)
    (doc : job.config.compression = .gzip → z.Documented)
    (undone : job.config.compression = .gzip → z.UndoneBy inflate)
    (ok : (buildColumn job logger source s z).1 = .ok ())
    (noDevice : ∀ kind, s.volume.node? (job.place source) ≠ some (.device kind)) :
    ∃ column content f, Column.read source.type source.path s.volume = (.ok (), column) ∧
      (buildColumn job logger source s z).2.2.volume.node? (job.place source) =
        some (.file content) ∧
      IndexFile.parse content = some f ∧ f.column? inflate source.type = some column ∧
      Column.Describes (buildColumn job logger source s z).2.1 source.name
        (indexPath job.directory source.name) column content f := by
  have type := type_read source.type source.path s.volume
  unfold buildColumn at ok plain' ⊢
  rcases read : Column.read source.type source.path s.volume with ⟨outcome, column⟩
  rw [read] at ok plain' type
  cases outcome with
  | error e => cases ok
  | ok u =>
    have file := sound.leadsToFile plain (Column.build_written ok).2 noDevice
    obtain ⟨place, content, f, found, node, -, parsed, decoded, describes⟩ :=
      Column.build_whole ok doc undone file
    obtain rfl : place = job.place source := Volume.find_goal plain' found
    exact ⟨column, content, f, rfl, node, parsed, type ▸ decoded, describes⟩

/-! ## Isolation -/

/-- A column has in a run what it has alone: its result and its index. An index that was built, where
no device stood, is the whole column, and the summary agrees with it. -/
structure Isolated (c : CommandLine) (job : Job) (processors : Int32) (s s₀ : Session)
    (z : Deflater) (print : Report.Value → Text) (r : Result) (e : Ending) : Prop where
  alone : ∃ s₁, start c (job.only r.source) processors s = .ok s₁ ∧
    (results (job.only r.source) (loggerOf c) z (job.only r.source).tasks s₁).1 = [r]
  index : e.session.volume.node? (job.place r.source) =
    (perform c (job.only r.source) processors s z print).session.volume.node? (job.place r.source)
  whole {inflate : Bytes → Option Bytes} : r.outcome = .ok () →
    (job.config.compression = .gzip → z.Documented) →
    (job.config.compression = .gzip → z.UndoneBy inflate) →
    (∀ kind, s₀.volume.node? (job.place r.source) ≠ some (.device kind)) →
    ∃ column content f, Column.read r.source.type r.source.path s₀.volume = (.ok (), column) ∧
      e.session.volume.node? (job.place r.source) = some (.file content) ∧
      IndexFile.parse content = some f ∧ f.column? inflate r.source.type = some column ∧
      Column.Describes r.summary r.source.name (indexPath job.directory r.source.name) column
        content f

/-- How a run ends on results: it fails if some column did, with a line about each, and otherwise
goes on to the report. -/
structure Concluded (c : CommandLine) (job : Job) (rs : List Result) (done : Session)
    (print : Report.Value → Text) (e : Ending) : Prop where
  failed : (∃ r ∈ rs, r.outcome ≠ .ok ()) →
    e = ⟨1, done.report (rs.filterMap Result.errorLine?).flatten, []⟩
  succeeded : (∀ r ∈ rs, r.outcome = .ok ()) → e = finish c job (loggerOf c) rs done print
  exitCode : c.value? "-report" = none → (e.exitCode = 1 ↔ ∃ r ∈ rs, r.outcome ≠ .ok ())

theorem concluded (c : CommandLine) (job : Job) (rs : List Result) (done : Session)
    (print : Report.Value → Text) :
    Concluded c job rs done print (conclude c job rs done print) := by
  have all : rs.all (·.outcome == .ok ()) = true ↔ ∀ r ∈ rs, r.outcome = .ok () := by simp
  have some : (∃ r ∈ rs, r.outcome ≠ .ok ()) ↔ ¬ ∀ r ∈ rs, r.outcome = .ok () := by simp
  refine ⟨fun failed => ?_, fun succeeded => ?_, fun unreported => ?_⟩
  · rw [conclude, if_neg (all.not.2 (some.1 failed))]
  · rw [conclude, if_pos (all.2 succeeded)]
  · rw [some]
    by_cases succeeded : ∀ r ∈ rs, r.outcome = .ok ()
    · rw [conclude, if_pos (all.2 succeeded), finish, unreported]
      exact iff_of_false nofun (not_not_intro succeeded)
    · rw [conclude, if_neg (all.not.2 succeeded)]
      exact iff_of_true rfl succeeded

section Isolated

variable {c : CommandLine} {job : Job} {processors : Int32} {s s₀ : Session} {z : Deflater}
  {print : Report.Value → Text}

/-- A run of a column alone starts on the same volume. -/
theorem start_only (plain : s.volume.Plain) (started : start c job processors s = .ok s₀) :
    s₀.volume.Plain ∧ ∀ source, ∃ s₁, start c (job.only source) processors s = .ok s₁ ∧
      s₁.volume = s₀.volume := by
  have plain₀ := Volume.createDirectories_plain plain job.directory
  unfold start at started ⊢
  dsimp only [Job.only] at started ⊢
  rcases made : s.volume.createDirectories job.directory with ⟨refusal, volume⟩
  rw [made] at plain₀ started
  cases refusal with
  | some e => cases started
  | none =>
    cases started
    exact ⟨plain₀, fun _ => ⟨_, rfl, rfl⟩⟩

theorem results_only (job : Job) (logger : Logger) (z : Deflater) (source : Column.Source)
    (s : Session) :
    results (job.only source) logger z (job.only source).tasks s =
      ([lone job logger z s source], (buildColumn job logger source s z).2.2) := rfl

theorem isolated (distinct : Column.Source.Distinct job.columns) (apart : job.Apart)
    (plain : s.volume.Plain) (started : start c job processors s = .ok s₀)
    (report : ∀ path, c.value? "-report" = some path →
      ∀ source ∈ job.columns, Path.goal path ≠ job.place source)
    {source : Column.Source} (mem : source ∈ job.columns) {rs : List Result} {done : Session}
    (left : Done job (loggerOf c) z s₀ (rs, done)) :
    Isolated c job processors s s₀ z print (lone job (loggerOf c) z s₀ source)
      (conclude c job rs done print) := by
  obtain ⟨plain₀, begins⟩ := start_only plain started
  obtain ⟨s₁, started₁, volume⟩ := begins source
  have plain₁ : s₁.volume.Plain := volume ▸ plain₀
  have away (path : Text) (reported : c.value? "-report" = some path) :=
    report path reported source mem
  obtain ⟨plainAfter, -⟩ := buildColumn_leaves (z := z) distinct apart (loggerOf c) mem plain₀
  obtain ⟨plainAlone, -⟩ := buildColumn_leaves (z := z) distinct apart (loggerOf c) mem plain₁
  obtain ⟨outcome, summary, beside⟩ :=
    buildColumn_agree (z := z) distinct apart (loggerOf c) mem plain₀ plain₁ fun q _ => by
      rw [volume]
  have node : (conclude c job rs done print).session.volume.node? (job.place source) =
      (buildColumn job (loggerOf c) source s₀ z).2.2.volume.node? (job.place source) := by
    rw [conclude_node? rs left.plain away]
    exact congrArg Volume.Site.node (left.indexes source mem)
  refine ⟨⟨s₁, started₁, ?_⟩, node.trans ?_, fun ok doc undone noDevice => ?_⟩
  · exact congrArg ([·]) (congrArg₂ (Result.mk source) outcome summary)
  · have alone : perform c (job.only source) processors s z print =
        conclude c (job.only source) [lone job (loggerOf c) z s₁ source]
          (buildColumn job (loggerOf c) source s₁ z).2.2 print := by
      rw [← performIn_tasks, performIn]
      simp only [lone, started₁, results_only]
    simp only [lone, alone]
    rw [conclude_node? _ plainAlone away, beside.node]
  · simp only [lone, node]
    exact buildColumn_whole (apart.sound distinct mem) plain₀ plainAfter doc undone ok noDevice

end Isolated

/-- A job that a command line asks for, on a tree without links, where no path leads through an index
that it has nothing to do with and the report is no index. Whatever the order of its tasks is, the
run ends as it does in command-line order, each column has what it has alone, and the run fails if
and only if some column does, short of the report. -/
theorem performIn_isolated {c : CommandLine} {job : Job} {processors : Int32} {s : Session}
    (z : Deflater) (print : Report.Value → Text) (admitted : jobOf c = .ok job)
    (plain : s.volume.Plain) (apart : job.Apart)
    (report : ∀ path, c.value? "-report" = some path →
      ∀ source ∈ job.columns, Path.goal path ≠ job.place source) :
    (∀ ending, start c job processors s = .error ending →
      ∀ order, performIn c job processors order s z print = ending) ∧
    ∀ s₀, start c job processors s = .ok s₀ →
      ∃ rs, rs.map Result.source = job.columns ∧ ∀ order, order.Perm job.tasks →
        ∃ done, results job (loggerOf c) z order s₀ = (rs, done) ∧
          EndAlike (results job (loggerOf c) z job.tasks s₀).2 done
            (perform c job processors s z print) (performIn c job processors order s z print) ∧
          Concluded c job rs done print (performIn c job processors order s z print) ∧
          ∀ r ∈ rs, Isolated c job processors s s₀ z print r
            (performIn c job processors order s z print) := by
  have distinct := distinct_of_jobOf admitted
  refine ⟨fun ending refused order => by rw [performIn, refused], fun s₀ started => ?_⟩
  obtain ⟨plain₀, -⟩ := start_only plain started
  have done {order : List (Column.Source × Nat)} (perm : order.Perm job.tasks) :
      Done job (loggerOf c) z s₀ (results job (loggerOf c) z order s₀) :=
    results_done distinct apart plain₀ perm
  refine ⟨job.columns.map (lone job (loggerOf c) z s₀), by simp [lone, Function.comp_def],
    fun order perm => ?_⟩
  have left := done perm
  have inOrder := done (List.Perm.refl job.tasks)
  rw [← performIn_tasks]
  unfold performIn
  simp only [started]
  rcases ran : results job (loggerOf c) z order s₀ with ⟨rs, after⟩
  rcases ran' : results job (loggerOf c) z job.tasks s₀ with ⟨rs', after'⟩
  rw [ran] at left
  rw [ran'] at inOrder
  obtain rfl : rs = job.columns.map (lone job (loggerOf c) z s₀) := left.results
  obtain rfl : rs' = job.columns.map (lone job (loggerOf c) z s₀) := inOrder.results
  refine ⟨after, rfl, conclude_alike _ inOrder.plain left.plain fun q => ?_, concluded .., ?_⟩
  · by_cases index : ∃ source ∈ job.columns, q = job.place source
    · obtain ⟨source, mem, rfl⟩ := index
      exact (left.indexes source mem).trans (inOrder.indexes source mem).symm
    · have away (source : Column.Source) (mem : source ∈ job.columns) : q ≠ job.place source :=
        fun same => index ⟨source, mem, same⟩
      exact (left.others q away).trans (inOrder.others q away).symm
  · refine List.forall_mem_map.2 fun source mem => ?_
    exact isolated distinct apart plain started report mem left

/-- A working directory with a text of one number and an empty directory. -/
def desk : Volume :=
  { Volume.initial with
    nodes := Volume.initial.nodes ++ [(Text.lit "in" :: Place.working, .file (Bytes.ofText "1\n")),
      (Text.lit "out" :: Place.working, .directory)] }

theorem plain_desk : desk.Plain :=
  Volume.plain_of_nodes fun target => by simp [desk, Volume.initial]

/-- The same with no space left for the second write to one of its places. -/
def fullDesk (p : Place) : Volume :=
  { desk with writeFaults := fun q => if q = p then [.short 32, .refused .noSpace] else [] }

/-- The command line of a column `a` and one `b` that is read from a path, built in a directory. -/
def twoColumns (path directory : Text) : CommandLine :=
  .ofWords ["-col", "a:INT:in", "-col", Text.lit "b:LONG:" ++ path, "-o", directory,
    "-docs_per_chunk", "1", "-threads", "1"]

def twoJob (path directory : Text) : Job where
  columns := [⟨"a", .int, "in"⟩, ⟨"b", .long, path⟩]
  directory := directory
  config := { targetDocs := 1 }

/-- The session in which the tasks of two columns start. -/
def twoStarted (path directory : Text) (v : Volume) : Session :=
  match start (twoColumns path directory) (twoJob path directory) 1 { volume := v } with
  | .ok s => s
  | .error e => e.session

/-- Two columns of one text, the second task run first. There is no space left for the header of its
index. -/
theorem performIn_isolated_reversed :
    let c := twoColumns "in" "out"
    let job := twoJob "in" "out"
    let v := fullDesk (job.place ⟨"b", .long, "in"⟩)
    let e := performIn c job 1 job.tasks.reverse { volume := v } .builtin Report.Value.inline
    jobOf c = .ok job ∧ v.Plain ∧ job.Apart ∧
      start c job 1 { volume := v } = .ok (twoStarted "in" "out" v) ∧
      ∃ rs done, rs.map Result.outcome =
          [.ok (), .error (.writeFailed 32 0 "out/b.sv.raw.fwd" .noSpace)] ∧
        results job (loggerOf c) .builtin job.tasks.reverse (twoStarted "in" "out" v) = (rs, done) ∧
        Concluded c job rs done Report.Value.inline e ∧
        ∀ r ∈ rs, Isolated c job 1 { volume := v } (twoStarted "in" "out" v) .builtin
          Report.Value.inline r e := by
  intro c job v e
  have admitted : jobOf c = .ok job := by decide +kernel
  have apart : job.Apart :=
    ⟨by decide +kernel, by decide +kernel, by decide +kernel, by decide +kernel⟩
  have started : start c job 1 { volume := v } = .ok (twoStarted "in" "out" v) := rfl
  have unreported : c.value? "-report" = none := by decide +kernel
  have report : ∀ path, c.value? "-report" = some path →
      ∀ source ∈ job.columns, Path.goal path ≠ job.place source := by
    rw [unreported]
    exact nofun
  have plain : ({ volume := v } : Session).volume.Plain := plain_desk
  obtain ⟨rs, -, orders⟩ :=
    (performIn_isolated .builtin Report.Value.inline admitted plain apart report).2 _ started
  obtain ⟨done, ran, -, concluded, isolated⟩ := orders _ (List.reverse_perm job.tasks)
  have outcomes : (results job (loggerOf c) .builtin job.tasks.reverse
      (twoStarted "in" "out" v)).1.map Result.outcome =
        [.ok (), .error (.writeFailed 32 0 "out/b.sv.raw.fwd" .noSpace)] := by decide +kernel
  rw [ran] at outcomes
  exact ⟨admitted, plain, apart, started, rs, done, outcomes, ran, concluded, isolated⟩

/-- The outcomes of two columns, of which no input is an index and which make no report, when their
tasks are run in command-line order and the other way round. -/
structure Outcomes (path directory : Text) (first second : List Outcome) : Prop where
  admitted : jobOf (twoColumns path directory) = .ok (twoJob path directory)
  unreported : (twoColumns path directory).value? "-report" = none
  inputs : ∀ source ∈ (twoJob path directory).columns, ∀ other ∈ (twoJob path directory).columns,
    Path.goal source.path ≠ (twoJob path directory).place other
  started : start (twoColumns path directory) (twoJob path directory) 1 { volume := desk } =
    .ok (twoStarted path directory desk)
  forward : (results (twoJob path directory) (loggerOf (twoColumns path directory)) .builtin
    (twoJob path directory).tasks (twoStarted path directory desk)).1.map Result.outcome = first
  backward : (results (twoJob path directory) (loggerOf (twoColumns path directory)) .builtin
    (twoJob path directory).tasks.reverse (twoStarted path directory desk)).1.map Result.outcome =
      second

/-- A path that leads through the place of the index of `a`. -/
def throughIndex (rest : Text) : Text := Text.lit "out/a.sv.raw.fwd/.." ++ rest

/-- What comes of the second column depends on whether the first is done before, if its input is
reached by a path through the first index, or both go to a directory that is: there the first index
cannot be written, and the directory in its place is removed. -/
theorem order_matters_through_index :
    desk.Plain ∧
      Outcomes (throughIndex "/in") "out"
        [.ok (), .error (.columnOpening (throughIndex "/in") .notDirectory)]
        [.ok (), .error (.columnOpening (throughIndex "/in") .notFound)] ∧
      Outcomes "in" (throughIndex [])
        [.error (.writeOpening (throughIndex "/a.sv.raw.fwd") .isDirectory),
          .error (.writeOpening (throughIndex "/b.sv.raw.fwd") .notFound)]
        [.error (.writeOpening (throughIndex "/a.sv.raw.fwd") .isDirectory), .ok ()] :=
  ⟨plain_desk,
    ⟨by decide +kernel, by decide +kernel, by decide +kernel, rfl, by decide +kernel,
      by decide +kernel⟩,
    ⟨by decide +kernel, by decide +kernel, by decide +kernel, rfl, by decide +kernel,
      by decide +kernel⟩⟩

end ForwardIndex.Tool
