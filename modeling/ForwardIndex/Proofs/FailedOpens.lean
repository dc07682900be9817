import ForwardIndex.Proofs.ClosedFile
import ForwardIndex.Proofs.Lifecycle
import ForwardIndex.Proofs.Lockstep
import ForwardIndex.Proofs.Release

/-!
# Openings that fail

An opening may fail at four depths: on the parameters, on the compressor, on a path in use, and on
the file when a header was made already. Two runs of one writer are compared, one with failed
openings and one without them. What differs afterwards is the header of a writer that is still
unopened and the numbers of compressors; nothing reads either, so the runs stay in step through all
further calls.
-/
set_option autoImplicit false
namespace ForwardIndex

/-! ## Writers that differ in nothing that is read -/

/-- Two sessions with the same volume and the same error stream. -/
structure Session.Alike (s s' : Session) : Prop where
  volume : s'.volume = s.volume
  log : s'.log = s.log

theorem Session.Alike.report {s s' : Session} (h : s.Alike s') (line : Text) :
    (s.report line).Alike (s'.report line) :=
  ⟨h.volume, congrArg (· ++ line) h.log⟩

namespace ChunkWriter

/-- Two writers that were opened and differ in no more than the number of the compressor. -/
inductive Doubles : ChunkWriter × Session → ChunkWriter × Session → Prop
  | writing {logger : Logger} {header : Header} {file : FileHandle} {cursor id id' calls : Nat}
      {c : Compressor} {b : Buffer} {staging : Bytes} {s s' : Session} (alike : s.Alike s') :
      Doubles (⟨logger, header, file, cursor, .writing ⟨c, id, calls⟩ b staging⟩, s)
        (⟨logger, header, file, cursor, .writing ⟨c, id', calls⟩ b staging⟩, s')
  | closed {logger : Logger} {header : Header} {file : FileHandle} {cursor : Nat}
      {s s' : Session} (alike : s.Alike s') :
      Doubles (⟨logger, header, file, cursor, .closed⟩, s)
        (⟨logger, header, file, cursor, .closed⟩, s')

/-- Two writers of which one may have failed to be opened more often. As long as they are unopened
their headers may differ. -/
inductive Untraced : ChunkWriter × Session → ChunkWriter × Session → Prop
  | unopened {logger : Logger} {header header' : Header} {file : FileHandle} {cursor : Nat}
      {s s' : Session} (alike : s.Alike s') :
      Untraced (⟨logger, header, file, cursor, .unopened⟩, s)
        (⟨logger, header', file, cursor, .unopened⟩, s')
  | doubles {x x' : ChunkWriter × Session} (h : Doubles x x') : Untraced x x'

section Doubles

variable {w w' : ChunkWriter} {s s' : Session}

theorem Doubles.onBuffer {α : Type} (h : Doubles (w, s) (w', s')) (f : Buffer → α × Buffer) :
    (w'.onBuffer f).1 = (w.onBuffer f).1 ∧ Doubles ((w.onBuffer f).2, s) ((w'.onBuffer f).2, s') := by
  cases h with
  | writing alike => exact ⟨rfl, .writing alike⟩
  | closed alike => exact ⟨rfl, .closed alike⟩

theorem Doubles.flush (h : Doubles (w, s) (w', s')) :
    InStep Doubles Eq (w.flush s) (w'.flush s') := by
  cases h with
  | closed alike => exact ⟨rfl, .closed alike⟩
  | @writing logger header file cursor id id' calls c b staging s s' alike =>
    -- The number of a compressor has no part in what it makes of a chunk.
    obtain ⟨result, staged, compressed⟩ : ∃ result staged, ∀ id,
        compressChunk ⟨c, id, calls⟩ b staging = (result, ⟨c, id, calls + 1⟩, staged) :=
      ⟨(compressChunk ⟨c, 0, calls⟩ b staging).1, (compressChunk ⟨c, 0, calls⟩ b staging).2.2,
        fun _ => rfl⟩
    simp only [ChunkWriter.flush, compressed, alike.volume]
    split
    · exact ⟨rfl, .writing alike⟩
    split
    · exact ⟨rfl, .writing alike⟩
    split
    · exact ⟨rfl, .writing (alike.report _)⟩
    split
    · refine ⟨rfl, .writing (.report ?_ _)⟩
      exact ⟨rfl, alike.log⟩
    split
    · refine ⟨rfl, .writing (.report ?_ _)⟩
      exact ⟨rfl, alike.log⟩
    split
    · exact ⟨rfl, .writing ⟨rfl, alike.log⟩⟩
    · exact ⟨rfl, .writing ⟨rfl, alike.log⟩⟩

theorem Doubles.flushPending (h : Doubles (w, s) (w', s')) :
    InStep Doubles Eq (w.flushPending s) (w'.flushPending s') := by
  have buffer : w'.buffer = w.buffer := by cases h <;> rfl
  simp only [ChunkWriter.flushPending, buffer]
  split
  · exact ⟨rfl, h⟩
  · exact h.flush

theorem Doubles.writeHeader (h : Doubles (w, s) (w', s')) :
    (w.writeHeader s).1 = (w'.writeHeader s').1 ∧
      Doubles (w, (w.writeHeader s).2) (w', (w'.writeHeader s').2) := by
  cases h with
  | writing alike =>
    simp only [ChunkWriter.writeHeader, alike.volume, true_and]
    exact .writing ⟨rfl, alike.log⟩
  | closed alike =>
    simp only [ChunkWriter.writeHeader, alike.volume, true_and]
    exact .closed ⟨rfl, alike.log⟩

theorem Doubles.release (h : Doubles (w, s) (w', s')) (outcome : Outcome) :
    InStep Doubles Eq (w.release outcome s) (w'.release outcome s') := by
  cases h with
  | writing alike =>
    simp only [ChunkWriter.release, alike.volume]
    exact ⟨rfl, .closed ⟨rfl, alike.log⟩⟩
  | closed alike =>
    simp only [ChunkWriter.release, alike.volume]
    exact ⟨rfl, .closed ⟨rfl, alike.log⟩⟩

theorem Doubles.conclude (h : Doubles (w, s) (w', s')) :
    InStep Doubles Eq (w.conclude s) (w'.conclude s') := by
  cases h with
  | writing alike =>
    simp only [ChunkWriter.conclude]
    split
    · exact ⟨rfl, .writing (alike.report _)⟩
    · exact ⟨rfl, .writing (alike.report _)⟩
  | closed alike =>
    simp only [ChunkWriter.conclude]
    split
    · exact ⟨rfl, .closed (alike.report _)⟩
    · exact ⟨rfl, .closed (alike.report _)⟩

theorem Doubles.isOpen (h : Doubles (w, s) (w', s')) : w'.isOpen = w.isOpen := by
  cases h <;> rfl

theorem Doubles.close (h : Doubles (w, s) (w', s')) :
    InStep Doubles Eq (w.close s) (w'.close s') := by
  by_cases works : w.isOpen
  · rw [close_of_isOpen works, close_of_isOpen (h.isOpen.trans works)]
    obtain ⟨answers, related⟩ := h.flushPending
    rcases flushed : w.flushPending s with ⟨outcome, w₁, s₁⟩
    rcases flushed' : w'.flushPending s' with ⟨outcome', w₁', s₁'⟩
    rw [flushed, flushed'] at answers related
    obtain rfl : outcome = outcome' := answers
    cases outcome with
    | error e => exact ⟨rfl, (related.release (.error e)).related⟩
    | ok u =>
      obtain ⟨same, headed⟩ := related.writeHeader
      obtain ⟨answers, released⟩ := headed.release (w₁.writeHeader s₁).1
      dsimp only
      rw [← same]
      rcases left : w₁.release (w₁.writeHeader s₁).1 (w₁.writeHeader s₁).2 with ⟨closed, w₂, s₂⟩
      rcases right : w₁'.release (w₁.writeHeader s₁).1 (w₁'.writeHeader s₁').2
        with ⟨closed', w₂', s₂'⟩
      rw [left, right] at answers released
      obtain rfl : closed = closed' := answers
      cases closed with
      | error e => exact ⟨rfl, released⟩
      | ok u => exact released.conclude
  · cases h with
    | writing alike => exact absurd rfl works
    | closed alike => exact ⟨rfl, .closed alike⟩

end Doubles

theorem doubles_lockstep : Lockstep Doubles Doubles (fun _ => True) Eq where
  refl _ := rfl
  ok same := by rw [same]
  andThen same same' := by rw [same, same']
  calm_ok := trivial
  calm _ := ⟨trivial, trivial⟩
  isOpen h := h.isOpen
  entrySize h := by cases h <;> rfl
  buffer h := by cases h <;> rfl
  onBuffer f _ h := h.onBuffer f
  flush h _ _ := h.flush
  close h _ _ := h.close

/-! ## Calls -/

/-- What a call answers: a status, or whether the buffer had room. -/
inductive Answer where
  | status (outcome : Outcome)
  | fitted (fits : Bool)

/-- The answer to an action. -/
def respond (w : ChunkWriter) (s : Session) : Action → Answer × ChunkWriter × Session
  | .openWith path params compressor =>
    let r := w.openWith path params compressor s
    (.status r.1, r.2)
  | .openBuiltin path params z =>
    let r := w.openBuiltin path params s z
    (.status r.1, r.2)
  | .call (.buffer call) => (.fitted (w.onBuffer call.apply).1, (w.onBuffer call.apply).2, s)
  | .call .flush => (.status (w.flush s).1, (w.flush s).2)
  | .close => (.status (w.close s).1, (w.close s).2)

section Untraced

variable {w w' : ChunkWriter} {s s' : Session}

/-- An opening that is refused leaves a double. -/
theorem Doubles.openWith (h : Doubles (w, s) (w', s')) (path : Text) (params : Parameters)
    (compressor : Option Compressor) :
    InStep Doubles Eq (w.openWith path params compressor s)
      (w'.openWith path params compressor s') := by
  cases compressor with
  | none => exact ⟨by cases h <;> rfl, h⟩
  | some c =>
    cases h with
    | writing alike => exact ⟨rfl, .writing ⟨alike.volume, alike.log⟩⟩
    | closed alike => exact ⟨rfl, .closed ⟨alike.volume, alike.log⟩⟩

theorem Doubles.openBuiltin (h : Doubles (w, s) (w', s')) (path : Text) (params : Parameters)
    (z : Deflater) :
    InStep Doubles Eq (w.openBuiltin path params s z) (w'.openBuiltin path params s' z) := by
  cases h with
  | writing alike => exact ⟨rfl, .writing alike⟩
  | closed alike => exact ⟨rfl, .closed alike⟩

theorem Untraced.openWith (h : Untraced (w, s) (w', s')) (path : Text) (params : Parameters)
    (compressor : Option Compressor) :
    InStep Untraced Eq (w.openWith path params compressor s)
      (w'.openWith path params compressor s') := by
  cases h with
  | doubles h =>
    obtain ⟨answers, related⟩ := h.openWith path params compressor
    exact ⟨answers, .doubles related⟩
  | @unopened logger header header' file cursor _ _ alike =>
    cases compressor with
    | none => exact ⟨rfl, .unopened alike⟩
    | some c =>
      simp only [ChunkWriter.openWith, Session.handOver, isUnopened, alike.volume, Bool.not_true,
        Bool.false_eq_true, if_false]
      split
      · exact ⟨rfl, .unopened ⟨rfl, alike.log⟩⟩
      split
      · exact ⟨rfl, .unopened ⟨rfl, alike.log⟩⟩
      · refine ⟨rfl, .doubles (.writing (.report ?_ _))⟩
        exact ⟨rfl, alike.log⟩

theorem Untraced.openBuiltin (h : Untraced (w, s) (w', s')) (path : Text) (params : Parameters)
    (z : Deflater) :
    InStep Untraced Eq (w.openBuiltin path params s z) (w'.openBuiltin path params s' z) := by
  cases h with
  | doubles h =>
    obtain ⟨answers, related⟩ := h.openBuiltin path params z
    exact ⟨answers, .doubles related⟩
  | unopened alike =>
    simp only [ChunkWriter.openBuiltin, isUnopened, Bool.not_true, Bool.false_eq_true, if_false]
    split
    · exact ⟨rfl, .unopened alike⟩
    split
    · exact ⟨rfl, .unopened alike⟩
    · exact (Untraced.unopened alike).openWith path params _

theorem Untraced.isOpen (h : Untraced (w, s) (w', s')) : w'.isOpen = w.isOpen := by
  cases h with
  | unopened alike => rfl
  | doubles h => exact h.isOpen

theorem Untraced.doubles_of_isOpen (h : Untraced (w, s) (w', s')) (isOpen : w.isOpen) :
    Doubles (w, s) (w', s') := by
  cases h with
  | unopened alike => cases isOpen
  | doubles h => exact h

/-- An unopened writer is not told from one that has failed to be opened since. -/
theorem Untraced.refused (h : Untraced (w, s) (w', s')) (fresh : w.isUnopened) {path : Text}
    {params : Parameters} {compressor : Option Compressor} {e : Failure}
    (failed : (w.openWith path params compressor s).1 = .error e) :
    Untraced (w.openWith path params compressor s).2 (w', s') ∧
      (w.openWith path params compressor s).2.1.isUnopened := by
  cases h with
  | doubles h => cases h <;> cases fresh
  | @unopened logger header header' file cursor _ _ alike =>
    cases compressor with
    | none => exact ⟨.unopened alike, rfl⟩
    | some c =>
      simp only [ChunkWriter.openWith, Session.handOver, isUnopened, Bool.not_true,
        Bool.false_eq_true, if_false] at failed ⊢
      split
      · exact ⟨.unopened ⟨alike.volume, alike.log⟩, rfl⟩
      · next check =>
        rw [check] at failed
        split
        · next refused =>
          obtain ⟨rfl, rfl⟩ := FileHandle.openAt_refused refused
          exact ⟨.unopened ⟨alike.volume, alike.log⟩, rfl⟩
        · next accepted =>
          rw [accepted] at failed
          cases failed

theorem Untraced.refused_builtin (h : Untraced (w, s) (w', s')) (fresh : w.isUnopened)
    {path : Text} {params : Parameters} {z : Deflater} {e : Failure}
    (failed : (w.openBuiltin path params s z).1 = .error e) :
    Untraced (w.openBuiltin path params s z).2 (w', s') ∧
      (w.openBuiltin path params s z).2.1.isUnopened := by
  obtain ⟨e, same⟩ | ⟨c, -, -, same⟩ := w.openBuiltin_cases path params s z
  · rw [same]
    exact ⟨h, fresh⟩
  · rw [same] at failed ⊢
    exact h.refused fresh failed

theorem Untraced.close (h : Untraced (w, s) (w', s')) :
    InStep Untraced Eq (w.close s) (w'.close s') := by
  cases h with
  | unopened alike => exact ⟨rfl, .unopened alike⟩
  | doubles h =>
    obtain ⟨answers, related⟩ := h.close
    exact ⟨answers, .doubles related⟩

/-- What the world does to a volume in the meantime it does in both runs. -/
theorem Untraced.outside (h : Untraced (w, s) (w', s')) (change : Volume → Volume) :
    Untraced (w, { s with volume := change s.volume })
      (w', { s' with volume := change s'.volume }) := by
  cases h with
  | unopened alike => exact .unopened ⟨congrArg change alike.volume, alike.log⟩
  | doubles h =>
    cases h with
    | writing alike => exact .doubles (.writing ⟨congrArg change alike.volume, alike.log⟩)
    | closed alike => exact .doubles (.closed ⟨congrArg change alike.volume, alike.log⟩)

theorem Untraced.respond (h : Untraced (w, s) (w', s')) (action : Action) :
    (w.respond s action).1 = (w'.respond s' action).1 ∧
      Untraced (w.respond s action).2 (w'.respond s' action).2 := by
  cases action with
  | openWith path params compressor =>
    obtain ⟨answers, related⟩ := h.openWith path params compressor
    exact ⟨congrArg Answer.status answers, related⟩
  | openBuiltin path params z =>
    obtain ⟨answers, related⟩ := h.openBuiltin path params z
    exact ⟨congrArg Answer.status answers, related⟩
  | call call =>
    cases h with
    | unopened alike =>
      cases call with
      | buffer call => exact ⟨rfl, .unopened alike⟩
      | flush => exact ⟨rfl, .unopened alike⟩
    | doubles h =>
      cases call with
      | buffer call =>
        obtain ⟨answers, related⟩ := h.onBuffer call.apply
        exact ⟨congrArg Answer.fitted answers.symm, .doubles related⟩
      | flush =>
        obtain ⟨answers, related⟩ := h.flush
        exact ⟨congrArg Answer.status answers, .doubles related⟩
  | close =>
    obtain ⟨answers, related⟩ := h.close
    exact ⟨congrArg Answer.status answers, related⟩

end Untraced

end ChunkWriter

/-! ## Interfaces -/

open ChunkWriter (Answer Doubles Untraced)

/-- Two writers that no call tells apart: neither their chunk writers, nor what they keep besides
while they are open. -/
structure Indistinct {W : Type} (inner : W → ChunkWriter) (agree : W → W → Prop)
    (x x' : W × Session) : Prop where
  core : Untraced (inner x.1, x.2) (inner x'.1, x'.2)
  like : (inner x.1).isOpen → agree x.1 x'.1

/-- A kind of writer as its owner sees it: the chunk writer in it, its calls, which of them are
openings, and when two writers that are open agree in what they keep besides. -/
structure Interface (W A : Type) where
  core : W → ChunkWriter
  respond : W → Session → A → Answer × W × Session
  opens : A → Prop
  like : W → W → Prop

/-- What happens in a run: a call, or something outside that changes the volume. -/
inductive Happening (A : Type) where
  | call (action : A)
  | outside (change : Volume → Volume)

/-- Only what happens outside. -/
def Happening.silent {A : Type} : List (Happening A) → List (Happening A)
  | [] => []
  | .call _ :: rest => silent rest
  | .outside change :: rest => .outside change :: silent rest

namespace Interface

variable {W A : Type} (I : Interface W A)

/-- The answers to the calls of a run, and what is left behind it. -/
def run (x : W × Session) : List (Happening A) → List Answer × W × Session
  | [] => ([], x)
  | .outside change :: rest => run (x.1, { x.2 with volume := change x.2.volume }) rest
  | .call action :: rest =>
    let r := I.respond x.1 x.2 action
    (r.1 :: (run r.2 rest).1, (run r.2 rest).2)

/-- All calls of a run are openings that fail. -/
def Fails (x : W × Session) : List (Happening A) → Prop
  | [] => True
  | .outside change :: rest => Fails (x.1, { x.2 with volume := change x.2.volume }) rest
  | .call action :: rest =>
    I.opens action ∧ (∃ e, (I.respond x.1 x.2 action).1 = .status (.error e)) ∧
      Fails (I.respond x.1 x.2 action).2 rest

/-- Calls are answered alike, and an opening that fails is forgotten. -/
structure Forgets : Prop where
  like_refl (w : W) : I.like w w
  respond {w w' : W} {s s' : Session} (action : A) : Indistinct I.core I.like (w, s) (w', s') →
    (I.respond w s action).1 = (I.respond w' s' action).1 ∧
      Indistinct I.core I.like (I.respond w s action).2 (I.respond w' s' action).2
  refused {w : W} {s : Session} {x' : W × Session} {action : A} {e : Failure} :
    (I.core w).isUnopened → I.opens action → (I.respond w s action).1 = .status (.error e) →
    Indistinct I.core I.like (w, s) x' →
    Indistinct I.core I.like (I.respond w s action).2 x' ∧
      (I.core (I.respond w s action).2.1).isUnopened

section Runs

variable {I} {x x' : W × Session}

theorem Forgets.refl (f : I.Forgets) (x : W × Session) : Indistinct I.core I.like x x := by
  refine ⟨?_, fun _ => f.like_refl x.1⟩
  obtain ⟨w, s⟩ := x
  have alike : s.Alike s := ⟨rfl, rfl⟩
  rcases h : I.core w with ⟨logger, header, file, cursor, _ | ⟨codec, b, staging⟩ | _⟩
  · exact .unopened alike
  · exact .doubles (.writing alike)
  · exact .doubles (.closed alike)

theorem outside (h : Indistinct I.core I.like x x') (change : Volume → Volume) :
    Indistinct I.core I.like (x.1, { x.2 with volume := change x.2.volume })
      (x'.1, { x'.2 with volume := change x'.2.volume }) :=
  ⟨h.core.outside change, h.like⟩

/-- Runs of the same calls stay in step; by induction on what happens. -/
theorem Forgets.run (f : I.Forgets) (h : Indistinct I.core I.like x x')
    (happenings : List (Happening A)) :
    (I.run x happenings).1 = (I.run x' happenings).1 ∧
      Indistinct I.core I.like (I.run x happenings).2 (I.run x' happenings).2 := by
  induction happenings generalizing x x' with
  | nil => exact ⟨rfl, h⟩
  | cons happening rest ih =>
    cases happening with
    | outside change => exact ih (outside h change)
    | call action =>
      obtain ⟨answer, next⟩ := f.respond action h
      obtain ⟨answers, last⟩ := ih next
      exact ⟨congrArg₂ List.cons answer answers, last⟩

/-- So does a run of failed openings with one without them. -/
theorem Forgets.fails (f : I.Forgets) (h : Indistinct I.core I.like x x')
    (fresh : (I.core x.1).isUnopened)
    {happenings : List (Happening A)} (fails : I.Fails x happenings) :
    Indistinct I.core I.like (I.run x happenings).2 (I.run x' (Happening.silent happenings)).2 := by
  induction happenings generalizing x x' with
  | nil => exact h
  | cons happening rest ih =>
    cases happening with
    | outside change => exact ih (outside h change) fresh fails
    | call action =>
      obtain ⟨opens, ⟨e, failed⟩, later⟩ := fails
      obtain ⟨same, unopened⟩ := f.refused fresh opens failed h
      exact ih same unopened later

end Runs

end Interface

/-! ## The three writers -/

def ChunkWriter.interface : Interface ChunkWriter ChunkWriter.Action where
  core := id
  respond := ChunkWriter.respond
  opens
    | .openWith .. | .openBuiltin .. => True
    | _ => False
  like _ _ := True

theorem ChunkWriter.interface_forgets : interface.Forgets where
  like_refl _ := trivial
  respond action h := by
    obtain ⟨answers, related⟩ := h.core.respond action
    exact ⟨answers, related, fun _ => trivial⟩
  refused {w s x' action e} fresh opens failed h := by
    cases action with
    | openWith path params compressor =>
      obtain ⟨related, unopened⟩ := h.core.refused fresh (Answer.status.inj failed)
      exact ⟨⟨related, fun _ => trivial⟩, unopened⟩
    | openBuiltin path params z =>
      obtain ⟨related, unopened⟩ := h.core.refused_builtin fresh (Answer.status.inj failed)
      exact ⟨⟨related, fun _ => trivial⟩, unopened⟩
    | call call => cases opens
    | close => cases opens

namespace Encoder

variable {W V : Type}

/-- The interface of an encoder with its actions. -/
def interface (E : Encoder W V) (act : W → Session → Action V → Outcome × W × Session)
    (like : W → W → Prop) : Interface W (Action V) where
  core := E.core
  respond w s action := (.status (act w s action).1, (act w s action).2)
  opens
    | .openAt .. => True
    | _ => False
  like

/-- An opening of an encoder: its own rule refuses it, or it is an opening of the chunk writer, and
one that is accepted starts what the encoder keeps besides, which one that is refused leaves. -/
inductive Opens (E : Encoder W V) (like : W → W → Prop) (path : Text)
    (opening : W → Session → Outcome × W × Session) : Prop
  | ruled (e : Failure) (refused : ∀ w s, opening w s = (.error e, w, s))
  | core (p : Parameters) (z : Deflater)
      (same : ∀ w s, ((opening w s).1, E.core (opening w s).2.1, (opening w s).2.2) =
        (E.core w).openBuiltin path p s z)
      (starts : ∀ w w' s s', (opening w s).1 = .ok () → (opening w' s').1 = .ok () →
        like (opening w s).2.1 (opening w' s').2.1)
      (keeps : ∀ w w' s s' e, (opening w s).1 = .error e → (opening w' s').1 = .error e →
        like w w' → like (opening w s).2.1 (opening w' s').2.1)

/-- The actions of an encoder: its puts and closes are refused while it is not open, and its openings
are those of the chunk writer. -/
structure Acts (E : Encoder W V) (act : W → Session → Action V → Outcome × W × Session)
    (like : W → W → Prop) : Prop where
  like_refl (w : W) : like w w
  put (w : W) (s : Session) (v : V) : act w s (.put v) = E.put w v s
  close (w : W) (s : Session) : act w s .close = E.close w s
  put_shut : ∃ e, ∀ w s v, (E.core w).isOpen = false → E.put w v s = (.error e, w, s)
  close_shut (w : W) (s : Session) : (E.core w).isOpen = false →
    E.close w s = (((E.core w).close s).1, w, s)
  close_shuts (w : W) (s : Session) : (E.core (E.close w s).2.1).isOpen = false
  opens (path : Text) (compression : Compression)
    (totalDocs docsPerChunk entrySize version : Int32) (z : Deflater) :
    Opens E like path fun w s =>
      act w s (.openAt path compression totalDocs docsPerChunk entrySize version z)

variable {E : Encoder W V} {act : W → Session → Action V → Outcome × W × Session}
  {like : W → W → Prop}

/-- An opening is answered alike, and refused in both runs or in none. -/
theorem Opens.inStep {path : Text} {opening : W → Session → Outcome × W × Session}
    (o : E.Opens like path opening) {w w' : W} {s s' : Session}
    (h : Indistinct E.core like (w, s) (w', s')) :
    (opening w s).1 = (opening w' s').1 ∧
      Indistinct E.core like (opening w s).2 (opening w' s').2 := by
  cases o with
  | ruled e refused =>
    rw [refused w s, refused w' s']
    exact ⟨rfl, h⟩
  | core p z same starts keeps =>
    obtain ⟨answers, after⟩ := h.core.openBuiltin path p z
    have kept {e : Failure} (failed : (opening w s).1 = .error e)
        (isOpen : (E.core (opening w s).2.1).isOpen) : (E.core w).isOpen := by
      have opened := same w s
      have still := ChunkWriter.isOpen_openBuiltin (e := e)
        ((congrArg Prod.fst opened).symm.trans failed)
      rw [← opened] at still
      exact still.symm.trans isOpen
    rw [← same, ← same] at answers after
    refine ⟨answers, after, fun isOpen => ?_⟩
    cases outcome : (opening w s).1 with
    | ok u => exact starts w w' s s' outcome (answers.symm.trans outcome)
    | error e =>
      exact keeps w w' s s' e outcome (answers.symm.trans outcome) (h.like (kept outcome isOpen))

theorem Acts.forgets (a : E.Acts act like)
    (follows : E.Follows Doubles Doubles (fun _ => True) Eq like) :
    (E.interface act like).Forgets where
  like_refl := a.like_refl
  respond {w w' s s'} action h := by
    have same : (E.core w').isOpen = (E.core w).isOpen := h.core.isOpen
    simp only [interface] at h ⊢
    cases action with
    | openAt path compression totalDocs docsPerChunk entrySize version z =>
      obtain ⟨answers, after⟩ :=
        (a.opens path compression totalDocs docsPerChunk entrySize version z).inStep h
      exact ⟨congrArg Answer.status answers, after⟩
    | put v =>
      rw [a.put, a.put]
      cases writing : (E.core w).isOpen with
      | true =>
        obtain ⟨answers, after, alike⟩ := follows.put v
          ⟨h.core.doubles_of_isOpen writing, h.like writing⟩ trivial trivial
        exact ⟨congrArg Answer.status answers, .doubles after, fun _ => alike⟩
      | false =>
        obtain ⟨e, refused⟩ := a.put_shut
        rw [refused w s v writing, refused w' s' v (same.trans writing)]
        exact ⟨rfl, h⟩
    | close =>
      rw [a.close, a.close]
      cases writing : (E.core w).isOpen with
      | true =>
        obtain ⟨answers, after, -⟩ := follows.close
          ⟨h.core.doubles_of_isOpen writing, h.like writing⟩ trivial trivial
        refine ⟨congrArg Answer.status answers, .doubles after, fun isOpen => ?_⟩
        cases (a.close_shuts w s).symm.trans isOpen
      | false =>
        obtain ⟨answers, -⟩ := h.core.close
        rw [a.close_shut w s writing, a.close_shut w' s' (same.trans writing)]
        exact ⟨congrArg Answer.status answers, h⟩
  refused {w s x' action e} fresh opens failed h := by
    cases action with
    | put v => cases opens
    | close => cases opens
    | openAt path compression totalDocs docsPerChunk entrySize version z =>
      simp only [interface] at fresh failed h ⊢
      cases a.opens path compression totalDocs docsPerChunk entrySize version z with
      | ruled e refused =>
        simp only [refused]
        exact ⟨h, fresh⟩
      | core p z same starts keeps =>
        have opened := same w s
        have refused := (congrArg Prod.fst opened).symm.trans (Answer.status.inj failed)
        obtain ⟨after, unopened⟩ := h.core.refused_builtin fresh refused
        rw [← opened] at after unopened
        refine ⟨⟨after, fun isOpen => ?_⟩, unopened⟩
        cases (ChunkWriter.isOpen_of_isUnopened unopened).symm.trans isOpen

end Encoder

def FixedWriter.interface : Interface FixedWriter (Encoder.Action FixedValue) :=
  encoder.interface act fun _ _ => True

def VariableWriter.interface : Interface VariableWriter (Encoder.Action Bytes) :=
  encoder.interface act SamePositions

theorem FixedWriter.acts : encoder.Acts act fun _ _ => True where
  like_refl _ := trivial
  put _ _ _ := rfl
  close _ _ := rfl
  put_shut := ⟨.putNotOpen true, fun w s v shut => by
    have shut : w.core.isOpen = false := shut
    simp only [encoder, put, shut, Bool.not_false, if_true]⟩
  close_shut w s shut := by
    obtain ⟨e, refused⟩ := ChunkWriter.close_rejected shut s
    have refused : w.core.close s = (.error e, w.core, s) := refused
    simp only [encoder, close, refused]
  close_shuts w s := w.core.isOpen_close s
  opens path compression totalDocs docsPerChunk entrySize version z := by
    by_cases large : maxRoundable < docsPerChunk ∧ 3 ≤ version
    · exact .ruled (.docsPerChunkNotRoundable docsPerChunk) fun w s => by
        simp only [act, openAt, if_pos large]
    · refine .core (parameters compression totalDocs docsPerChunk entrySize version) z
        (fun w s => ?_) (fun _ _ _ _ _ _ => trivial) (fun _ _ _ _ _ _ _ _ => trivial)
      simp only [act, openAt, if_neg large]
      rfl

theorem VariableWriter.acts : encoder.Acts act SamePositions where
  like_refl _ := ⟨rfl, rfl, rfl⟩
  put _ _ _ := rfl
  close _ _ := rfl
  put_shut := ⟨.putNotOpen false, fun w s v shut => by
    have shut : w.core.isOpen = false := shut
    simp only [encoder, put, shut, Bool.not_false, if_true]⟩
  close_shut w s shut := by
    have shut : w.core.isOpen = false := shut
    obtain ⟨e, refused⟩ := ChunkWriter.close_rejected shut s
    simp only [encoder, close, shut, Bool.false_eq_true, false_and, if_false, refused]
  close_shuts w s := by
    simp only [encoder, close]
    split
    · split
      · exact ChunkWriter.isOpen_close _ _
      · next core₁ s₁ _ =>
        have shut := core₁.core.isOpen_close s₁
        split
        · next closed =>
          rw [closed] at shut
          exact shut
        · next closed =>
          rw [closed] at shut
          exact shut
    · exact ChunkWriter.isOpen_close _ _
  opens path compression totalDocs docsPerChunk longest version z := by
    refine .core (parameters compression totalDocs docsPerChunk longest version) z (fun w s => ?_)
      (fun w w' s s' ok ok' => ?_) (fun w w' s s' e failed failed' alike => ?_)
    · simp only [act, openAt]
      split
      · next refused => exact refused.symm
      · next accepted => exact accepted.symm
    · simp only [act, openAt] at ok ok' ⊢
      split at ok
      · cases ok
      · split at ok'
        · cases ok'
        · exact ⟨rfl, rfl, rfl⟩
    · simp only [act, openAt] at failed failed' ⊢
      split at failed
      · split at failed'
        · exact ⟨alike.slotsSize, alike.slotPosition, alike.dataPosition⟩
        · cases failed'
      · cases failed

/-! ## No trace -/

/-- What is seen of two chunk writers is the same, the header from the first opening that is
accepted. -/
structure ChunkWriter.LooksLike (w w' : ChunkWriter) : Prop where
  isUnopened : w'.isUnopened = w.isUnopened
  isOpen : w'.isOpen = w.isOpen
  isClosed : w'.isClosed = w.isClosed
  header : w.isUnopened = false → w'.header = w.header
  cursor : w'.cursor = w.cursor
  buffer : w'.buffer = w.buffer
  file : w'.file = w.file

theorem ChunkWriter.Untraced.looksLike {w w' : ChunkWriter} {s s' : Session}
    (h : Untraced (w, s) (w', s')) : w.LooksLike w' ∧ s.Alike s' := by
  cases h with
  | unopened alike => exact ⟨⟨rfl, rfl, rfl, nofun, rfl, rfl, rfl⟩, alike⟩
  | doubles h =>
    cases h with
    | writing alike => exact ⟨⟨rfl, rfl, rfl, fun _ => rfl, rfl, rfl, rfl⟩, alike⟩
    | closed alike => exact ⟨⟨rfl, rfl, rfl, fun _ => rfl, rfl, rfl, rfl⟩, alike⟩

/-- Whatever happens after openings that fail, all answers are those of a writer that never tried
them, and so is what is seen of the writer, the files, and the error stream. -/
def Interface.LeavesNoTrace {W A : Type} (I : Interface W A) : Prop :=
  ∀ (w : W) (s : Session) (failing later : List (Happening A)),
    (I.core w).isUnopened → I.Fails (w, s) failing →
      let left := I.run (I.run (w, s) failing).2 later
      let right := I.run (I.run (w, s) (Happening.silent failing)).2 later
      right.1 = left.1 ∧ (I.core left.2.1).LooksLike (I.core right.2.1) ∧
        ((I.core left.2.1).isOpen → I.like left.2.1 right.2.1) ∧ left.2.2.Alike right.2.2

theorem Interface.Forgets.leavesNoTrace {W A : Type} {I : Interface W A} (f : I.Forgets) :
    I.LeavesNoTrace := by
  intro w s failing later fresh fails left right
  obtain ⟨answers, same⟩ := f.run (f.fails (f.refl (w, s)) fresh fails) later
  obtain ⟨looks, alike⟩ := same.core.looksLike
  exact ⟨answers.symm, looks, same.like, alike⟩

/-- Openings that fail leave no trace: not in a chunk writer, and not in a writer of values of either
kind. -/
theorem failed_openings_leave_no_trace :
    ChunkWriter.interface.LeavesNoTrace ∧ FixedWriter.interface.LeavesNoTrace ∧
      VariableWriter.interface.LeavesNoTrace :=
  ⟨ChunkWriter.interface_forgets.leavesNoTrace,
    (FixedWriter.acts.forgets (FixedWriter.follows ChunkWriter.doubles_lockstep)).leavesNoTrace,
    (VariableWriter.acts.forgets (VariableWriter.follows ChunkWriter.doubles_lockstep)).leavesNoTrace⟩

namespace ChunkWriter

/-- One opening for each depth at which it can fail: no compressor, bad parameters, a compression
that is not built in, and a directory that is not there. -/
def deadEnds : List (Happening Action) :=
  [.call (.openWith [102] twoChunks none), .call (.openBuiltin [102] {} .builtin),
    .call (.openBuiltin [102] { twoChunks with compression := .zstandard } .builtin),
    .call (.openBuiltin [100, 47, 102] twoChunks .builtin)]

/-- A file with one chunk. -/
def oneChunk : List (Happening Action) :=
  [.call (.openBuiltin [102] twoChunks .builtin),
    .call (.call (.buffer (.append (Bytes.ofText [1, 2])))), .call (.call .flush), .call .close]

theorem failed_openings_leave_no_trace_deadEnds :
    let left := interface.run (interface.run ({}, {}) deadEnds).2 oneChunk
    let right := interface.run ({}, {}) oneChunk
    right.1 = left.1 ∧ left.2.1.isClosed = true ∧ right.2.1.header = left.2.1.header ∧
      right.2.2.volume = left.2.2.volume := by
  intro left right
  have fails : interface.Fails ({}, {}) deadEnds :=
    ⟨trivial, ⟨_, rfl⟩, trivial, ⟨_, rfl⟩, trivial, ⟨_, rfl⟩, trivial, ⟨_, rfl⟩, trivial⟩
  obtain ⟨answers, looks, -, alike⟩ :=
    failed_openings_leave_no_trace.1 {} {} deadEnds oneChunk rfl fails
  have closed : left.2.1.isClosed = true := rfl
  have opened : left.2.1.isUnopened = false := rfl
  exact ⟨answers, closed, looks.header opened, alike.volume⟩

end ChunkWriter
end ForwardIndex
