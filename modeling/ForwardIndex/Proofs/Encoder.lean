import ForwardIndex.FixedWriter
import ForwardIndex.VariableWriter
import ForwardIndex.Proofs.Groups
import ForwardIndex.Proofs.Steady
import Mathlib.Algebra.Order.Floor.Div

/-!
# Encoders

What writers of fixed-width and of variable-width values have in common: values are put one after
the other, a full window of them becomes a chunk, and the writer is closed. `Fills` says what a put
and the close do to the windows of the values that were taken, and what follows for all values. How
a run of any puts ends depends on nothing but how many of them fit: `Counts` says what one call does
to the count, and `Counts.exact` what follows for a whole run.
-/
set_option autoImplicit false
namespace ForwardIndex

/-- A writer that values are put to. -/
structure Encoder (W V : Type) where
  core : W → ChunkWriter
  put : W → V → Session → Outcome × W × Session
  close : W → Session → Outcome × W × Session

def FixedWriter.encoder : Encoder FixedWriter FixedValue where
  core := FixedWriter.core
  put := FixedWriter.put
  close := FixedWriter.close

def VariableWriter.encoder : Encoder VariableWriter Bytes where
  core := VariableWriter.core
  put := VariableWriter.put
  close := VariableWriter.close

/-- What an owner does with a writer of either kind. -/
inductive Encoder.Action (V : Type) where
  | openAt (path : Text) (compression : Compression)
      (totalDocs docsPerChunk entrySize version : Int32) (z : Deflater)
  | put (value : V)
  | close

def FixedWriter.act (w : FixedWriter) (s : Session) :
    Encoder.Action FixedValue → Outcome × FixedWriter × Session
  | .openAt path compression totalDocs docsPerChunk entrySize version z =>
    w.openAt path compression totalDocs docsPerChunk entrySize version s z
  | .put value => w.put value s
  | .close => w.close s

def VariableWriter.act (w : VariableWriter) (s : Session) :
    Encoder.Action Bytes → Outcome × VariableWriter × Session
  | .openAt path compression totalDocs docsPerChunk longest version z =>
    w.openAt path compression totalDocs docsPerChunk longest version s z
  | .put value => w.put value s
  | .close => w.close s

theorem FixedWriter.openAt_core {w₀ w : FixedWriter} {path : Text} {compression : Compression}
    {totalDocs docsPerChunk entrySize version : Int32} {s₀ s : Session} {z : Deflater}
    (opened : w₀.openAt path compression totalDocs docsPerChunk entrySize version s₀ z =
      (.ok (), w, s)) :
    w₀.core.openBuiltin path (parameters compression totalDocs docsPerChunk entrySize version) s₀ z =
      (.ok (), w.core, s) := by
  unfold openAt at opened
  split at opened
  · cases opened
  · rcases h : w₀.core.openBuiltin path
      (parameters compression totalDocs docsPerChunk entrySize version) s₀ z
      with ⟨outcome, core, s'⟩
    rw [h] at opened
    cases opened
    rfl

theorem VariableWriter.openAt_core {w₀ w : VariableWriter} {path : Text} {compression : Compression}
    {totalDocs docsPerChunk longest version : Int32} {s₀ s : Session} {z : Deflater}
    (opened : w₀.openAt path compression totalDocs docsPerChunk longest version s₀ z =
      (.ok (), w, s)) :
    w₀.core.openBuiltin path (parameters compression totalDocs docsPerChunk longest version) s₀ z =
      (.ok (), w.core, s) := by
  unfold openAt at opened
  rcases h : w₀.core.openBuiltin path
    (parameters compression totalDocs docsPerChunk longest version) s₀ z
    with ⟨outcome, core, s'⟩
  simp only [h] at opened
  cases outcome with
  | error e => cases opened
  | ok u =>
    cases opened
    rfl

/-- A call that is the caller's mistake. -/
def Outcome.Misused (outcome : Outcome) : Prop := ∃ e, e.kind = .usage ∧ outcome = .error e

namespace Encoder

section Run

variable {W V : Type} (E : Encoder W V)

/-- A writer and its session after puts, whatever each of them reports. -/
def after (w : W) (s : Session) : List V → W × Session
  | [] => (w, s)
  | v :: rest => after (E.put w v s).2.1 (E.put w v s).2.2 rest

/-- Puts values up to the first that is refused. -/
def putAll (w : W) (s : Session) : List V → Outcome × W × Session
  | [] => (.ok (), w, s)
  | v :: rest =>
    match E.put w v s with
    | (.ok (), w, s) => putAll w s rest
    | (.error e, w, s) => (.error e, w, s)

end Run

end Encoder

theorem FixedWriter.putAll_eq (w : FixedWriter) (values : List FixedValue) (s : Session) :
    w.putAll values s = encoder.putAll w s values := by
  induction values generalizing w s with
  | nil => rfl
  | cons v rest ih =>
    rw [putAll, Encoder.putAll, show encoder.put w v s = w.put v s from rfl]
    rcases w.put v s with ⟨outcome, w, s⟩
    cases outcome with
    | ok u => exact ih w s
    | error e => rfl

theorem VariableWriter.putAll_eq (w : VariableWriter) (values : List Text) (s : Session) :
    w.putAll values s = encoder.putAll w s (values.map Bytes.ofText) := by
  induction values generalizing w s with
  | nil => rfl
  | cons v rest ih =>
    rw [putAll, List.map_cons, Encoder.putAll,
      show encoder.put w (Bytes.ofText v) s = w.put (Bytes.ofText v) s from rfl]
    rcases w.put (Bytes.ofText v) s with ⟨outcome, w, s⟩
    cases outcome with
    | ok u => exact ih w s
    | error e => rfl

/-- The windows of all documents are as many as the chunks. -/
theorem Layout.length_chunked_all {α : Type} {totalDocs docsPerChunk : Int32} {values : List α}
    (total : 0 ≤ totalDocs.toInt) (docs : 0 < docsPerChunk.toNatClampNeg)
    (count : totalDocs.toNatClampNeg = values.length) (raw : List α → Bytes) :
    (chunked docsPerChunk.toNatClampNeg raw values).length =
      (chunkCount totalDocs docsPerChunk).toNatClampNeg := by
  have positive := toInt_eq_natCast docs ▸ Int.natCast_pos.2 docs
  rw [length_chunked, ← count, chunkCount_eq total positive]

namespace Encoder

/-! ## Filling windows -/

/-- An encoder that fills windows of documents: `At values` tells that these are the values that it
took. A put is taken where the windows of all values are allowed and nothing befalls the file; a
close stores what is left. -/
structure Fills {W V : Type} (E : Encoder W V) (fits : V → Prop) (chunk : List V → Bytes)
    (job : Job) (docs : Nat) (At : List V → W → Session → Prop) : Prop where
  took {values : List V} {w w' : W} {s s' : Session} {v : V} : At values w s → fits v →
    E.put w v s = (.ok (), w', s') → At (values ++ [v]) w' s'
  takes {values rest : List V} {w : W} {s : Session} {v : V} : job.Calm → At values w s → fits v →
    job.Allows (Layout.chunked docs chunk (values ++ v :: rest)) → (E.put w v s).1 = .ok ()
  close {values : List V} {w : W} {s : Session} : At values w s →
    job.Allows (Layout.chunked docs chunk values) →
    job.Closed (Layout.chunked docs chunk values) (E.close w s).1 (E.core (E.close w s).2.1)
      (E.close w s).2.2.volume
  closed {values : List V} {w : W} {s : Session} : At values w s → (E.close w s).1 = .ok () →
    job.Allows (Layout.chunked docs chunk values)

section Fills

variable {W V : Type} {E : Encoder W V} {fits : V → Prop} {chunk : List V → Bytes} {job : Job}
  {docs : Nat} {At : List V → W → Session → Prop} {values rest : List V} {w w' : W}
  {s s' : Session}

/-- Values that were all taken are accounted for; by induction on the values. -/
theorem Fills.putAll (fills : Fills E fits chunk job docs At) (h : At values w s)
    (fit : ∀ v ∈ rest, fits v) (ok : E.putAll w s rest = (.ok (), w', s')) :
    At (values ++ rest) w' s' := by
  induction rest generalizing values w s with
  | nil =>
    cases ok
    rwa [List.append_nil]
  | cons v rest ih =>
    rw [Encoder.putAll] at ok
    rcases put : E.put w v s with ⟨outcome, w₁, s₁⟩
    rw [put] at ok
    cases outcome with
    | error e => cases ok
    | ok u =>
      rw [List.append_cons]
      exact ih (fills.took h (fit v List.mem_cons_self) put)
        (fun u hu => fit u (List.mem_cons_of_mem _ hu)) ok

/-- Where all windows are allowed and nothing befalls the file, all values are taken; by induction
on the values. -/
theorem Fills.putAll_calm (fills : Fills E fits chunk job docs At) (calm : job.Calm)
    (h : At values w s) (fit : ∀ v ∈ rest, fits v)
    (allows : job.Allows (Layout.chunked docs chunk (values ++ rest))) :
    ∃ w' s', E.putAll w s rest = (.ok (), w', s') := by
  induction rest generalizing values w s with
  | nil => exact ⟨w, s, rfl⟩
  | cons v rest ih =>
    have ok := fills.takes calm h (fit v List.mem_cons_self) allows
    rw [Encoder.putAll]
    rcases put : E.put w v s with ⟨outcome, w₁, s₁⟩
    rw [put] at ok
    obtain rfl : outcome = .ok () := ok
    rw [List.append_cons] at allows
    exact ih (fills.took h (fit v List.mem_cons_self) put)
      (fun u hu => fit u (List.mem_cons_of_mem _ hu)) allows

end Fills

/-- A writer at the start of a job with values: it has taken none of them yet, and their windows are
as many as the header declares. -/
structure Starts {W V : Type} (E : Encoder W V) (job : Job) (path : Text) (params : Parameters)
    (z : Deflater) (v : Volume) (values : List V) (raw : List Bytes) (w : W) (s : Session) :
    Prop where
  opens : job.Opens path params z v
  fills : ∃ (fits : V → Prop) (chunk : List V → Bytes) (docs : Nat)
    (At : List V → W → Session → Prop), Fills E fits chunk job docs At ∧ At [] w s ∧
      (∀ v ∈ values, fits v) ∧ raw = Layout.chunked docs chunk values
  small : ∀ chunk ∈ raw, chunk.size ≤ job.capacity
  all : raw.length = job.blank.capacity

section Starts

variable {W V : Type} {E : Encoder W V} {job : Job} {path : Text} {params : Parameters}
  {z : Deflater} {v : Volume} {values : List V} {raw : List Bytes} {w w' : W} {s s' : Session}

/-- Values that were all taken before a close that succeeds are the whole file. -/
theorem Starts.completes (start : E.Starts job path params z v values raw w s)
    (put : E.putAll w s values = (.ok (), w', s')) (ok : (E.close w' s').1 = .ok ()) :
    job.Completes path params z raw v (E.core (E.close w' s').2.1)
      (E.close w' s').2.2.volume := by
  obtain ⟨fits, chunk, docs, At, fills, none, fit, rfl⟩ := start.fills
  have taken := fills.putAll none fit put
  have allows := fills.closed taken ok
  have closed := fills.close taken allows
  rw [List.nil_append, ok] at closed
  exact ⟨start.opens, start.all, (closed.of_ok allows.within).2⟩

/-- Where nothing befalls the file and, in version 2, the table can tell the starts of the windows,
all values are taken and the close succeeds. -/
theorem Starts.succeeds (start : E.Starts job path params z v values raw w s)
    (file : v.LeadsToFile path) (calm : v.WritesGoOn) (closes : v.Closes)
    (reaches : params.version = 2 → ∀ start ∈
      (params.header params.compression).chunkStarts (params.encode z) raw,
        start ≤ Layout.maxInt32) :
    ∃ w₁ s₁ w₂ s₂, E.putAll w s values = (.ok (), w₁, s₁) ∧ E.close w₁ s₁ = (.ok (), w₂, s₂) ∧
      job.Completes path params z raw v (E.core w₂) s₂.volume := by
  have opens := start.opens
  have calm := opens.calm file calm
  have allows : job.Allows raw :=
    ⟨start.small, Nat.le_of_eq start.all, by rw [opens.blank, opens.encode]; exact reaches⟩
  obtain ⟨fits, chunk, docs, At, fills, none, fit, rfl⟩ := start.fills
  obtain ⟨w₁, s₁, put⟩ := fills.putAll_calm calm none fit allows
  have closed := fills.close (fills.putAll none fit put) allows
  have ok := (closed.closes calm (opens.closes file closes)).trans (Job.closing_ok start.all)
  rcases close : E.close w₁ s₁ with ⟨outcome, w₂, s₂⟩
  rw [close] at ok
  obtain rfl : outcome = .ok () := ok
  have completes := start.completes put (congrArg Prod.fst close)
  rw [close] at completes
  exact ⟨w₁, s₁, w₂, s₂, put, close, completes⟩

end Starts

/-! ## Counting -/

/-- The rules of the format let the windows of values be stored that the header declares. -/
def Allowed {V : Type} (job : Job) (docs : Nat) (chunk : List V → Bytes) (values : List V) : Prop :=
  job.Allows ((Layout.chunked docs chunk values).take job.blank.capacity)

/-- There is room for the next window, if the header declares more than are stored. -/
theorem Allowed.hasRoom {V : Type} {job : Job} {docs : Nat} {chunk : List V → Bytes}
    {full : List (List V)} {rest : List V} (docs_pos : 0 < docs)
    (lengths : ∀ g ∈ full, g.length = docs)
    (allowed : Allowed job docs chunk (full.flatten ++ rest)) (some : rest ≠ [])
    (few : full.length < job.blank.capacity) : job.HasRoom (full.map chunk) := by
  have least : (Layout.chunked docs chunk rest).length ≠ 0 := by
    have := List.length_pos_iff.2 some
    have : 0 < (rest.length + docs - 1) / docs := Nat.div_pos (by omega) docs_pos
    rw [Layout.length_chunked]
    omega
  obtain ⟨next, more, cons⟩ := List.exists_cons_of_length_pos (Nat.pos_of_ne_zero least)
  obtain ⟨n, capacity⟩ := Nat.exists_eq_add_of_lt few
  rw [Allowed, Layout.chunked_append docs_pos lengths, cons, List.take_append, List.length_map,
    List.take_of_length_le (by rw [List.length_map]; omega),
    show job.blank.capacity - full.length = n + 1 by omega, List.take_succ_cons] at allowed
  exact allowed.next

variable {W V : Type}

/-- What closing comes to behind raw chunks: the job is closed with them if the header declares as
many, and otherwise the file stays as it is. -/
structure Ends (E : Encoder W V) (job : Job) (raw : List Bytes) (w : W) (s : Session) : Prop where
  closed : raw.length ≤ job.blank.capacity →
    job.Closed raw (E.close w s).1 (E.core (E.close w s).2.1) (E.close w s).2.2.volume
  refused : job.blank.capacity < raw.length →
    (E.close w s).1.Misused ∧ ∀ q, (E.close w s).2.2.volume.node? q = s.volume.node? q

/-- An encoder that counts: `At values` tells that so far these values were put that fit. A put that
fits is one more, and it is taken as long as the windows that the header declares, and all but the
last value of one more, have room for it. -/
structure Counts (E : Encoder W V) (fits : V → Bool) (chunk : List V → Bytes) (job : Job)
    (docs : Nat) (At : List V → W → Session → Prop) : Prop where
  docs_pos : 0 < docs
  small {values : List V} : (∀ v ∈ values, fits v = true) →
    ∀ c ∈ Layout.chunked docs chunk values, c.size ≤ job.capacity
  steady {values : List V} {w : W} {s : Session} : At values w s →
    ∃ raw b, ChunkWriter.Steady job raw b (E.core w) s
  unfit {values : List V} {w : W} {s : Session} {v : V} : At values w s → fits v = false →
    ∃ e, e.kind = .usage ∧ E.put w v s = (.error e, w, s)
  fit {values rest : List V} {w : W} {s : Session} {v : V} : At values w s → fits v = true →
    Allowed job docs chunk (values ++ v :: rest) →
    At (values ++ [v]) (E.put w v s).2.1 (E.put w v s).2.2 ∧
      if values.length + 1 < (job.blank.capacity + 1) * docs then (E.put w v s).1 = .ok ()
      else (E.put w v s).1.Misused
  close {values : List V} {w : W} {s : Session} : At values w s → Allowed job docs chunk values →
    Ends E job (Layout.chunked docs chunk values) w s

section Counts

variable {E : Encoder W V} {fits : V → Bool} {chunk : List V → Bytes} {job : Job} {docs : Nat}
  {At : List V → W → Session → Prop} {w : W} {s : Session}

/-- The count over a run is the count of what fits; by induction on the puts. -/
theorem Counts.run (c : Counts E fits chunk job docs At) {values : List V} (h : At values w s)
    (puts rest : List V) (allowed : Allowed job docs chunk (values ++ (puts.filter fits ++ rest))) :
    At (values ++ puts.filter fits) (E.after w s puts).1 (E.after w s puts).2 := by
  induction puts generalizing values w s with
  | nil =>
    rw [List.filter_nil, List.append_nil]
    exact h
  | cons v puts ih =>
    rw [after]
    cases hv : fits v with
    | true =>
      rw [List.filter_cons_of_pos hv] at allowed ⊢
      rw [List.append_cons]
      refine ih (c.fit h hv allowed).1 ?_
      rwa [← List.append_cons]
    | false =>
      have skip : ¬ fits v = true := by simp [hv]
      obtain ⟨e, -, refused⟩ := c.unfit h hv
      rw [List.filter_cons_of_neg skip] at allowed ⊢
      rw [refused]
      exact ih h allowed

/-- What every call of a run of puts and a close comes to, where the header declares chunks of a
number of documents. What does not fit is refused and changes nothing; of what fits, the puts in
front are taken, and all from the one on that completes a chunk too many are refused. The close
succeeds exactly with as many chunks as are declared. With fewer of them it leaves the header with
zeros in the table behind their starts; with more values than they hold it leaves the file as it
is, without one. -/
structure Exact (E : Encoder W V) (fits : V → Bool) (chunk : List V → Bytes) (path : Text)
    (header : Header) (encode : Nat → Bytes → Bytes) (docs : Nat) (w : W) (s : Session)
    (puts : List V) : Prop where
  unfit : ∀ before v, before ++ [v] <+: puts → fits v = false →
    ∃ e, e.kind = .usage ∧
      E.put (E.after w s before).1 v (E.after w s before).2 = (.error e, E.after w s before)
  taken : ∀ before v, before ++ [v] <+: puts → fits v = true →
    before.countP fits + 1 < (header.capacity + 1) * docs →
    (E.put (E.after w s before).1 v (E.after w s before).2).1 = .ok ()
  full : ∀ before v, before ++ [v] <+: puts → fits v = true →
    (header.capacity + 1) * docs ≤ before.countP fits + 1 →
    (E.put (E.after w s before).1 v (E.after w s before).2).1.Misused
  closed : (E.close (E.after w s puts).1 (E.after w s puts).2).1 = .ok () ↔
    puts.countP fits ⌈/⌉ docs = header.capacity
  early : puts.countP fits ⌈/⌉ docs < header.capacity →
    (E.close (E.after w s puts).1 (E.after w s puts).2).1.Misused ∧
    ∃ content f raw, raw = Layout.chunked docs chunk (puts.filter fits) ∧
      (E.close (E.after w s puts).1 (E.after w s puts).2).2.2.volume.read path = .bytes content ∧
      { header with offsets := (header.chunkStarts encode raw).toArray }.toBytes.toText <+:
        content.toText ∧
      header.Stores encode raw content ∧ IndexFile.parse content = some f ∧
      f.offsets = header.chunkStarts encode raw ++
        List.replicate (header.capacity - puts.countP fits ⌈/⌉ docs) 0
  late : header.capacity * docs < puts.countP fits →
    (E.close (E.after w s puts).1 (E.after w s puts).2).1.Misused ∧
    ∃ content, (∀ byte ∈ content.toText.take header.size, byte = 0) ∧
      (E.after w s puts).2.volume.read path = .bytes content ∧
      (E.close (E.after w s puts).1 (E.after w s puts).2).2.2.volume.read path = .bytes content

/-- A file of fewer chunks than are declared is read with zeros behind their starts. -/
theorem read_early {raw : List Bytes} {core : ChunkWriter} {v : Volume}
    (finished : job.Finished raw core v) (file : job.place.isSome) :
    ∃ content f, v.read job.path = .bytes content ∧
      (job.header raw).toBytes.toText <+: content.toText ∧
      job.blank.Stores job.encode raw content ∧ IndexFile.parse content = some f ∧
      f.offsets = job.blank.chunkStarts job.encode raw ++
        List.replicate (job.blank.capacity - raw.length) 0 := by
  obtain ⟨content, read, view⟩ := finished.read file
  have allows := finished.allows
  have recorded : (job.header raw).recorded = raw.length := job.recorded_header raw
  have within : (job.header raw).recorded ≤ (job.header raw).capacity := by
    rw [recorded]
    exact allows.within
  refine ⟨content, _, read, ⟨Bytes.joined (job.stored raw), view.symm⟩, allows.stores view,
    IndexFile.parse_header within allows.fits view, ?_⟩
  rw [← recorded]
  rfl

/-- A run is exact, if in version 2 the table can tell the starts of the chunks. -/
theorem Counts.exact (c : Counts E fits chunk job docs At) (start : At [] w s) (calm : job.Calm)
    (closes : job.start.Closes) (puts : List V)
    (reaches : job.blank.version = 2 → ∀ start ∈ job.blank.chunkStarts job.encode
      ((Layout.chunked docs chunk (puts.filter fits)).take job.blank.capacity),
        start ≤ Layout.maxInt32) :
    Exact E fits chunk job.path job.blank job.encode docs w s puts := by
  have allowed : Allowed job docs chunk (puts.filter fits) :=
    ⟨fun chunk hc => c.small (fun v hv => (List.mem_filter.1 hv).2) chunk (List.mem_of_mem_take hc),
      List.length_take_le _ _, reaches⟩
  have reached (before rest : List V) (split : before ++ rest = puts) :
      At (before.filter fits) (E.after w s before).1 (E.after w s before).2 := by
    refine c.run start before (rest.filter fits) ?_
    rwa [List.nil_append, ← List.filter_append, split]
  have put (before : List V) (v : V) (among : before ++ [v] <+: puts) (hv : fits v = true) :
      if before.countP fits + 1 < (job.blank.capacity + 1) * docs then
        (E.put (E.after w s before).1 v (E.after w s before).2).1 = .ok ()
      else (E.put (E.after w s before).1 v (E.after w s before).2).1.Misused := by
    obtain ⟨rest, split⟩ := among
    rw [List.append_assoc] at split
    rw [List.countP_eq_length_filter]
    rw [← split, List.filter_append, List.singleton_append, List.filter_cons_of_pos hv] at allowed
    exact (c.fit (reached before _ split) hv allowed).2
  have last := reached puts [] (List.append_nil puts)
  have count : (Layout.chunked docs chunk (puts.filter fits)).length =
      puts.countP fits ⌈/⌉ docs := by
    rw [Layout.length_chunked, Nat.ceilDiv_eq_add_pred_div, List.countP_eq_length_filter]
  have beyond : job.blank.capacity < puts.countP fits ⌈/⌉ docs ↔
      job.blank.capacity * docs < puts.countP fits := by
    rw [← Nat.not_le, ceilDiv_le_iff_le_mul c.docs_pos, Nat.not_le, Nat.mul_comm]
  obtain ⟨closed, refused⟩ := c.close last allowed
  rw [count] at closed refused
  refine ⟨fun before v among hv => ?_, fun before v among hv few => ?_,
    fun before v among hv many => ?_, ?_, fun early => ?_, fun late => ?_⟩
  · obtain ⟨rest, split⟩ := among
    rw [List.append_assoc] at split
    exact c.unfit (reached before _ split) hv
  · have put := put before v among hv
    rwa [if_pos few] at put
  · have put := put before v among hv
    rwa [if_neg (Nat.not_lt.2 many)] at put
  · obtain within | above := le_or_gt (puts.countP fits ⌈/⌉ docs) job.blank.capacity
    · rw [(closed within).closes calm closes, Job.closing, count]
      grind
    · obtain ⟨⟨e, -, misused⟩, -⟩ := refused above
      rw [misused]
      refine iff_of_false (fun ok => ?_) (Nat.ne_of_gt above)
      cases ok
  · have closed := closed (Nat.le_of_lt early)
    have closing := closed.closes calm closes
    obtain ⟨content, f, read, written, stores, parsed, table⟩ :=
      read_early (closed.calm calm) calm.file
    rw [count] at table
    rw [Job.closing, count, if_pos early] at closing
    exact ⟨⟨_, rfl, closing⟩, content, f, _, rfl, read, written, stores, parsed, table⟩
  · obtain ⟨misused, same⟩ := refused (beyond.2 late)
    obtain ⟨raw, b, steady⟩ := c.steady last
    obtain ⟨content, view, read⟩ := steady.read calm.file
    refine ⟨misused, content, ?_, read _ fun _ => rfl, read _ same⟩
    rw [view]
    exact Layout.take_unheaded _ _

end Counts

end Encoder
end ForwardIndex
