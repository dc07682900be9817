import ForwardIndex.Proofs.FileHandle

/-!
# Writes in pieces

A write of all bytes is a loop: the system may take a part of what is left, interrupt the call,
refuse it or take nothing, and what it answers to each call is an endless sequence that nobody knows
in advance. `turns` is the loop on such a sequence. Where the interruptions have an end, so has the
loop; it succeeds exactly if the bytes are all taken before an answer that it does not go on after,
and a front of the bytes is in the file whatever happens, each byte put there once.
-/
set_option autoImplicit false
namespace ForwardIndex

namespace WriteFault

instance (answer : WriteFault) : Decidable answer.IsHarmless :=
  match answer with
  | .short n => inferInstanceAs (Decidable (0 < n))
  | .refused reason => inferInstanceAs (Decidable (reason = .interrupted))

/-- How many bytes an answer is ready to take. -/
def count : WriteFault → Nat
  | short n => n
  | refused _ => 0

/-- How many bytes the first answers of a sequence are ready to take. -/
def offered (answers : Nat → WriteFault) : Nat → Nat
  | 0 => 0
  | k + 1 => offered answers k + (answers k).count

/-- What is reported on an answer that ends a write of `n` bytes after the first `done`. -/
def cause (path : Text) (n offset done : Nat) : WriteFault → Failure
  | short _ => .writeStalled path (offset + done)
  | refused reason => .writeFailed n offset path reason

theorem offered_mono (answers : Nat → WriteFault) {k m : Nat} (le : k ≤ m) :
    offered answers k ≤ offered answers m := by
  induction le with
  | refl => exact Nat.le_refl _
  | step _ ih => exact Nat.le_add_right_of_le ih

theorem kind_cause (path : Text) (n offset done : Nat) (answer : WriteFault) :
    (answer.cause path n offset done).kind = .io := by
  cases answer <;> rfl

end WriteFault

namespace Bytes

/-- Bytes are put at an offset of a file: the file grows as far as they reach, with zeros where it
did not reach before, and all other bytes stay. No bytes change nothing. -/
structure Patched (old : Bytes) (offset : Nat) (bytes new : Bytes) : Prop where
  size : new.size = if bytes.size = 0 then old.size else max old.size (offset + bytes.size)
  inside : ∀ i, i < bytes.size → new.byteAt (offset + i) = bytes.byteAt i
  outside : ∀ i, i < offset ∨ offset + bytes.size ≤ i → new.byteAt i = old.byteAt i

/-- The old bytes and the new ones tell the whole file. -/
theorem Patched.unique {old bytes new new' : Bytes} {offset : Nat}
    (h : Patched old offset bytes new) (h' : Patched old offset bytes new') : new = new' := by
  refine ext_byteAt (h.size.trans h'.size.symm) fun i => ?_
  by_cases beyond : i < offset ∨ offset + bytes.size ≤ i
  · rw [h.outside i beyond, h'.outside i beyond]
  · obtain ⟨j, rfl⟩ : ∃ j, i = offset + j := ⟨i - offset, by omega⟩
    rw [h.inside j (by omega), h'.inside j (by omega)]

theorem patched_patch (old : Bytes) (offset : Nat) (bytes : Bytes) :
    Patched old offset bytes (old.patch offset bytes) where
  size := size_patch old bytes offset
  inside i below := by
    rw [byteAt_patch, if_pos ⟨Nat.le_add_right _ _, by omega⟩, Nat.add_sub_cancel_left]
  outside i beyond := by
    rw [byteAt_patch, if_neg (by omega)]

end Bytes

namespace Volume

/-- A single write through an open descriptor, below the greatest offset, goes as the fault says. -/
theorem write_eq {v : Volume} {d : Nat} {p : Place} (isOpen : v.IsOpen d p) {bytes : Bytes}
    {offset : Nat} (room : offset + bytes.size < offsetBound) (fault : WriteFault) :
    v.write (some fault) d bytes offset = match fault with
      | .refused reason => (.error reason, v)
      | .short n => v.transfer p (bytes.first n) offset := by
  unfold write
  rw [show v.descriptors[d]? = some (some p) from isOpen]
  dsimp only
  rw [if_neg (Nat.not_le.2 room)]
  cases fault <;> rfl

end Volume

namespace FileHandle

/-! ## The loop -/

/-- Where a write of all bytes stands: a number of them is done, or it is over. -/
inductive Progress where
  | going (done : Nat) (v : Volume)
  | ended (outcome : Outcome) (v : Volume)

section Loop

variable (path : Text) (d : Nat) (bytes : Bytes) (offset : Nat)

/-- One turn: it ends the loop if all bytes are done, else it asks the system to take the rest. -/
def turn (answer : WriteFault) : Progress → Progress
  | .ended outcome v => .ended outcome v
  | .going done v =>
    if bytes.size ≤ done then .ended (.ok ()) v
    else
      match v.write (some answer) d (bytes.rest done) (offset + done) with
      | (.error .interrupted, v') => .going done v'
      | (.error e, v') => .ended (.error (.writeFailed bytes.size offset path e)) v'
      | (.ok 0, v') => .ended (.error (.writeStalled path (offset + done))) v'
      | (.ok count, v') => .going (done + count) v'

/-- Where the loop stands after some turns. -/
def turns (v : Volume) (answers : Nat → WriteFault) : Nat → Progress
  | 0 => .going 0 v
  | k + 1 => turn path d bytes offset (answers k) (turns v answers k)

end Loop

/-! ## Single turns -/

section Turn

variable (path : Text) {d : Nat} {bytes : Bytes} {offset : Nat} {p : Place} {content : Bytes}
  {done : Nat} {u : Volume}
  (node : u.node? p = some (.file (content.patch offset (bytes.first done))))
  (isOpen : u.IsOpen d p) (less : done < bytes.size)
  (room : offset + bytes.size < Volume.offsetBound)
include node isOpen less room

/-- The system takes as many bytes of the rest as it is ready to, and they lengthen the front. -/
theorem write_short (n : Nat) :
    ∃ count u', u.write (some (.short n)) d (bytes.rest done) (offset + done) = (.ok count, u') ∧
      count = min n (bytes.size - done) ∧
      Volume.Wrote d p (content.patch offset (bytes.first (done + count))) u u' := by
  have remaining : offset + done + (bytes.rest done).size < Volume.offsetBound := by
    rw [Bytes.size_rest]
    omega
  obtain ⟨u', taken, wrote, -⟩ :=
    Volume.transfer_file node isOpen ((bytes.rest done).first n) (offset + done)
  have size : ((bytes.rest done).first n).size = min n (bytes.size - done) := by
    rw [Bytes.size_first, Bytes.size_rest]
  have same : (bytes.rest done).first n = (bytes.rest done).first (min n (bytes.size - done)) :=
    Bytes.ext (by simp [List.take_eq_take_iff])
  refine ⟨_, u', (Volume.write_eq isOpen remaining _).trans taken, size, ?_⟩
  rw [size]
  rwa [same, Bytes.patch_first_patch_rest _ _ _ _ _ (by omega)] at wrote

omit node in
theorem write_refused (reason : SystemError) :
    u.write (some (.refused reason)) d (bytes.rest done) (offset + done) = (.error reason, u) :=
  Volume.write_eq isOpen (by rw [Bytes.size_rest]; omega) _

/-- A turn with a harmless answer goes on behind the bytes that were taken. -/
theorem turn_harmless {answer : WriteFault} (harmless : answer.IsHarmless) :
    let more := min bytes.size (done + answer.count)
    ∃ u', turn path d bytes offset answer (.going done u) = .going more u' ∧
      Volume.Wrote d p (content.patch offset (bytes.first more)) u u' := by
  have unfinished : ¬ bytes.size ≤ done := Nat.not_le.2 less
  cases answer with
  | refused reason =>
    obtain rfl : reason = .interrupted := harmless
    have same : min bytes.size (done + (WriteFault.refused .interrupted).count) = done :=
      Nat.min_eq_right (Nat.le_of_lt less)
    intro more
    refine ⟨u, ?_, by rw [show more = done from same]; exact ⟨node, fun _ _ => rfl, isOpen, rfl⟩⟩
    rw [turn, if_neg unfinished, write_refused isOpen less room, show more = done from same]
  | short n =>
    obtain ⟨count, u', taken, rfl, wrote⟩ := write_short node isOpen less room n
    have some : 0 < n := harmless
    have more : min bytes.size (done + n) = done + min n (bytes.size - done) := by omega
    obtain ⟨c, pos⟩ : ∃ c, min n (bytes.size - done) = c + 1 :=
      Nat.exists_eq_succ_of_ne_zero (by omega)
    refine ⟨u', ?_, ?_⟩
    · rw [turn, if_neg unfinished, taken]
      show _ = Progress.going (min bytes.size (done + n)) u'
      rw [more, pos]
      rfl
    · show Volume.Wrote d p (content.patch offset (bytes.first (min bytes.size (done + n)))) u u'
      rwa [more]

/-- A turn with any other answer ends the loop and reports the cause; no byte is taken. -/
theorem turn_harmful {answer : WriteFault} (harmful : ¬ answer.IsHarmless) :
    ∃ u', turn path d bytes offset answer (.going done u) =
        .ended (.error (answer.cause path bytes.size offset done)) u' ∧
      Volume.Wrote d p (content.patch offset (bytes.first done)) u u' := by
  have unfinished : ¬ bytes.size ≤ done := Nat.not_le.2 less
  cases answer with
  | refused reason =>
    refine ⟨u, ?_, node, fun _ _ => rfl, isOpen, rfl⟩
    rw [turn, if_neg unfinished, write_refused isOpen less room]
    cases reason <;> first | exact absurd rfl harmful | rfl
  | short n =>
    obtain rfl : n = 0 := Nat.eq_zero_of_not_pos harmful
    obtain ⟨count, u', taken, rfl, wrote⟩ := write_short node isOpen less room 0
    rw [Nat.zero_min] at taken wrote
    refine ⟨u', ?_, wrote⟩
    rw [turn, if_neg unfinished, taken]
    rfl

end Turn

/-! ## Runs of the loop -/

section Run

variable {path : Text} {d : Nat} {bytes : Bytes} {offset : Nat} {p : Place} {content : Bytes}
  {v : Volume} {answers : Nat → WriteFault}

/-- What is known of the loop after some turns. While it goes on all answers were harmless, and all
the bytes that they were ready to take are in place, as far as there are so many. It has ended behind
the last byte, or at the first answer that is not harmless. -/
inductive Known (path : Text) (d : Nat) (bytes : Bytes) (offset : Nat) (p : Place)
    (content : Bytes) (v : Volume) (answers : Nat → WriteFault) : Nat → Progress → Prop
  | going {k : Nat} {u : Volume} (harmless : ∀ i < k, (answers i).IsHarmless)
      (wrote : Volume.Wrote d p
        (content.patch offset (bytes.first (min bytes.size (WriteFault.offered answers k)))) v u) :
      Known path d bytes offset p content v answers k
        (.going (min bytes.size (WriteFault.offered answers k)) u)
  | complete {k m : Nat} {u : Volume} (harmless : ∀ i < m, (answers i).IsHarmless)
      (all : bytes.size ≤ WriteFault.offered answers m)
      (wrote : Volume.Wrote d p (content.patch offset bytes) v u) :
      Known path d bytes offset p content v answers k (.ended (.ok ()) u)
  | broken {k m : Nat} {u : Volume} (harmless : ∀ i < m, (answers i).IsHarmless)
      (less : WriteFault.offered answers m < bytes.size) (harmful : ¬ (answers m).IsHarmless)
      (wrote : Volume.Wrote d p
        (content.patch offset (bytes.first (WriteFault.offered answers m))) v u) :
      Known path d bytes offset p content v answers k
        (.ended (.error ((answers m).cause path bytes.size offset (WriteFault.offered answers m))) u)

/-- Each turn keeps what is known; by cases on what was known before it. -/
theorem Known.turn (room : offset + bytes.size < Volume.offsetBound) {k : Nat} {s : Progress}
    (h : Known path d bytes offset p content v answers k s) :
    Known path d bytes offset p content v answers (k + 1)
      (turn path d bytes offset (answers k) s) := by
  cases h with
  | complete harmless all wrote => exact .complete harmless all wrote
  | broken harmless less harmful wrote => exact .broken harmless less harmful wrote
  | @going u harmless wrote =>
    by_cases all : bytes.size ≤ WriteFault.offered answers k
    · rw [Nat.min_eq_left all] at wrote ⊢
      rw [FileHandle.turn, if_pos (Nat.le_refl _)]
      exact .complete harmless all (by rwa [Bytes.first_size] at wrote)
    · have less := Nat.lt_of_not_le all
      rw [Nat.min_eq_right (Nat.le_of_lt less)] at wrote ⊢
      by_cases next : (answers k).IsHarmless
      · obtain ⟨u', turned, more⟩ := turn_harmless path wrote.node wrote.isOpen less room
          next
        rw [turned]
        refine .going (fun i below => ?_) (wrote.trans more)
        obtain earlier | rfl := Nat.lt_succ_iff_lt_or_eq.1 below
        · exact harmless i earlier
        · exact next
      · obtain ⟨u', turned, stays⟩ := turn_harmful path wrote.node wrote.isOpen less room
          next
        rw [turned]
        exact .broken harmless less next (wrote.trans stays)

variable (path answers) in
theorem turns_known (node : v.node? p = some (.file content)) (isOpen : v.IsOpen d p)
    (room : offset + bytes.size < Volume.offsetBound) (k : Nat) :
    Known path d bytes offset p content v answers k (turns path d bytes offset v answers k) := by
  induction k with
  | zero =>
    have none : min bytes.size (WriteFault.offered answers 0) = 0 := Nat.min_zero _
    have start : Known path d bytes offset p content v answers 0
        (.going (min bytes.size (WriteFault.offered answers 0)) v) := by
      refine .going nofun ⟨?_, fun _ _ => rfl, isOpen, rfl⟩
      rw [none, Bytes.patch_first_zero, node]
    rwa [none] at start
  | succ k ih => exact ih.turn room

/-- Harmless answers behind the last interruption are ready to take a byte each. -/
theorem le_offered {last j : Nat} (calm : ∀ i, last ≤ i → answers i ≠ .refused .interrupted)
    (harmless : ∀ i < last + j, (answers i).IsHarmless) :
    j ≤ WriteFault.offered answers (last + j) := by
  induction j with
  | zero => exact Nat.zero_le _
  | succ j ih =>
    have before := ih fun i below => harmless i (by omega)
    have now := harmless (last + j) (by omega)
    have some : 0 < (answers (last + j)).count := by
      cases h : answers (last + j) with
      | short n =>
        rw [h] at now
        exact now
      | refused reason =>
        rw [h] at now
        obtain rfl : reason = .interrupted := now
        exact absurd h (calm _ (Nat.le_add_right _ _))
    show j + 1 ≤ WriteFault.offered answers (last + j) + (answers (last + j)).count
    omega

variable (path) in
/-- The loop ends: behind the last interruption each turn takes a byte or is the last one. -/
theorem turns_end (node : v.node? p = some (.file content)) (isOpen : v.IsOpen d p)
    (room : offset + bytes.size < Volume.offsetBound) {last : Nat}
    (calm : ∀ i, last ≤ i → answers i ≠ .refused .interrupted) :
    ∃ outcome u, turns path d bytes offset v answers (last + bytes.size + 1) = .ended outcome u := by
  have known := turns_known path answers node isOpen room (last + bytes.size)
  rw [turns]
  generalize turns path d bytes offset v answers (last + bytes.size) = s at known
  cases known with
  | complete => exact ⟨_, _, rfl⟩
  | broken => exact ⟨_, _, rfl⟩
  | going harmless wrote =>
    rw [turn, if_pos (Nat.le_min.2 ⟨Nat.le_refl _, le_offered calm harmless⟩)]
    exact ⟨_, _, rfl⟩

end Run

/-! ## The loop on a volume that knows its faults -/

/-- The loop asks no volume what is still to befall its writes. -/
def Progress.facing (faults : Place → List WriteFault) : Progress → Progress
  | .going done v => .going done { v with writeFaults := faults }
  | .ended outcome v => .ended outcome { v with writeFaults := faults }

theorem transfer_facing (v : Volume) (faults : Place → List WriteFault) (p : Place) (bytes : Bytes)
    (offset : Nat) :
    { v with writeFaults := faults }.transfer p bytes offset =
      ((v.transfer p bytes offset).1,
        { (v.transfer p bytes offset).2 with writeFaults := faults }) := by
  have same : { v with writeFaults := faults }.node? p = v.node? p := rfl
  unfold Volume.transfer
  rw [same]
  by_cases none : bytes.size = 0
  · rw [if_pos none, if_pos none]
  · rw [if_neg none, if_neg none]
    rcases v.node? p with _ | (_ | _ | _ | (_ | _)) <;> rfl

theorem write_facing (v : Volume) (faults : Place → List WriteFault) (fault : Option WriteFault)
    (d : Nat) (bytes : Bytes) (offset : Nat) :
    { v with writeFaults := faults }.write fault d bytes offset =
      ((v.write fault d bytes offset).1,
        { (v.write fault d bytes offset).2 with writeFaults := faults }) := by
  unfold Volume.write
  dsimp only
  rcases v.descriptors[d]? with _ | (_ | p)
  · rfl
  · rfl
  by_cases room : Volume.offsetBound ≤ offset + bytes.size
  · simp only [if_pos room]
  · simp only [if_neg room]
    rcases fault with _ | (n | reason)
    · exact transfer_facing v faults p bytes offset
    · exact transfer_facing v faults p (bytes.first n) offset
    · rfl

section Facing

variable (path : Text) (d : Nat) (bytes : Bytes) (offset : Nat)

theorem turn_facing (answer : WriteFault) (faults : Place → List WriteFault) (s : Progress) :
    turn path d bytes offset answer (s.facing faults) =
      (turn path d bytes offset answer s).facing faults := by
  cases s with
  | ended outcome v => rfl
  | going done v =>
    unfold turn
    dsimp only [Progress.facing]
    by_cases all : bytes.size ≤ done
    · rw [if_pos all, if_pos all]
    · rw [if_neg all, if_neg all, write_facing]
      rcases v.write (some answer) d (bytes.rest done) (offset + done) with ⟨e | count, v'⟩
      · cases e <;> rfl
      · cases count <;> rfl

theorem turns_facing (v : Volume) (answers : Nat → WriteFault) (faults : Place → List WriteFault)
    (k : Nat) :
    turns path d bytes offset { v with writeFaults := faults } answers k =
      (turns path d bytes offset v answers k).facing faults := by
  induction k with
  | zero => rfl
  | succ k ih => rw [turns, ih, turn_facing, turns]

/-- A write of all bytes goes as the loop does on the faults ahead; by induction on the turns, with
the faults behind them left open. -/
theorem writeRest_turns (v : Volume) (answers : Nat → WriteFault) (k : Nat)
    (later : List WriteFault) :
    let r := writeRest path d bytes offset ((List.range k).map answers ++ later) 0 v
    match turns path d bytes offset v answers k with
    | .going done u => r = writeRest path d bytes offset later done u
    | .ended outcome u => ∃ left, r = (outcome, u.facing d (left ++ later)) := by
  induction k generalizing later with
  | zero => rfl
  | succ k ih =>
    have ih := ih (answers k :: later)
    simp only [List.range_succ, List.map_append, List.map_cons, List.map_nil, List.append_assoc,
      List.singleton_append, turns]
    generalize
      writeRest path d bytes offset ((List.range k).map answers ++ answers k :: later) 0 v = r
      at ih ⊢
    cases h : turns path d bytes offset v answers k with
    | ended outcome u =>
      rw [h] at ih
      obtain ⟨left, eq⟩ := ih
      exact ⟨left ++ [answers k], by rw [eq, List.append_assoc]; rfl⟩
    | going done u =>
      rw [h] at ih
      rw [ih, turn, writeRest]
      by_cases all : bytes.size ≤ done
      · rw [if_pos all, if_pos all]
        exact ⟨[answers k], rfl⟩
      · rw [if_neg all, if_neg all]
        rcases u.write (some (answers k)) d (bytes.rest done) (offset + done) with ⟨e | count, u'⟩
        · cases e with
          | interrupted => rfl
          | _ => exact ⟨[], rfl⟩
        · cases count with
          | zero => exact ⟨[], rfl⟩
          | succ count => rfl

end Facing

/-! ## Writes of all bytes -/

/-- Where a write of all bytes stands when the system has been asked a number of times. -/
def writing (f : FileHandle) (bytes : Bytes) (offset : Nat) (v : Volume)
    (answers : Nat → WriteFault) (k : Nat) : Progress :=
  match f.descriptor with
  | none => .ended (.error .writeOnClosed) v
  | some d => turns f.path d bytes offset v answers k

/-- A write that has ended has ended so whatever faults are ahead elsewhere and behind those
answers. -/
theorem writeAll_of_ended {f : FileHandle} {bytes : Bytes} {offset : Nat} {v u : Volume} {p : Place}
    (isOpen : ∀ d, f.descriptor = some d → v.IsOpen d p) {answers : Nat → WriteFault} {k : Nat}
    {outcome : Outcome} (ended : f.writing bytes offset v answers k = .ended outcome u)
    {faults : Place → List WriteFault} {later : List WriteFault}
    (ahead : faults p = (List.range k).map answers ++ later) :
    ∃ left, f.writeAll bytes offset { v with writeFaults := faults } =
      (outcome, { u with writeFaults := left }) := by
  unfold writing at ended
  cases hd : f.descriptor with
  | none =>
    rw [hd] at ended
    cases ended
    exact ⟨faults, by rw [writeAll, hd]⟩
  | some d =>
    rw [hd] at ended
    have run :=
      writeRest_turns f.path d bytes offset { v with writeFaults := faults } answers k later
    rw [turns_facing, show turns f.path d bytes offset v answers k = _ from ended] at run
    obtain ⟨left, eq⟩ := run
    have open_ : { v with writeFaults := faults }.IsOpen d p := isOpen d hd
    rw [writeAll_eq hd open_]
    dsimp only
    rw [ahead, eq, Volume.facing_eq]
    exact ⟨_, rfl⟩

/-- Whatever the system answers to the single writes, the loop ends if the interruptions do. It
succeeds exactly if all bytes are taken before an answer that is not harmless, and then the file is
patched with them; else the cause of the first such answer is reported, and the file is patched with
the bytes taken until then. Nothing else changes, and the handle stays open on the file. -/
theorem writeAll_whole {f : FileHandle} {v : Volume} {p : Place} {content bytes : Bytes}
    {offset : Nat} (holds : f.Holds v p content)
    (room : offset + bytes.size < Volume.offsetBound) {answers : Nat → WriteFault}
    (finite : ∃ last, ∀ i, last ≤ i → answers i ≠ .refused .interrupted) :
    ∃ k outcome u after,
      f.writing bytes offset v answers k = .ended outcome u ∧
      (∀ faults later, faults p = (List.range k).map answers ++ later →
        ∃ left, f.writeAll bytes offset { v with writeFaults := faults } =
          (outcome, { u with writeFaults := left })) ∧
      f.Holds u p after ∧ (∀ q, q ≠ p → u.node? q = v.node? q) ∧
      (outcome = .ok () ↔
        ∃ m, (∀ i < m, (answers i).IsHarmless) ∧ bytes.size ≤ WriteFault.offered answers m) ∧
      (outcome = .ok () → content.Patched offset bytes after) ∧
      ∀ e, outcome = .error e → ∃ m,
        (∀ i < m, (answers i).IsHarmless) ∧ ¬ (answers m).IsHarmless ∧
        e = (answers m).cause f.path bytes.size offset (WriteFault.offered answers m) ∧
        e.kind = .io ∧ WriteFault.offered answers m < bytes.size ∧
        content.Patched offset (bytes.first (WriteFault.offered answers m)) after := by
  obtain ⟨d, hd, isOpen, node⟩ := holds
  obtain ⟨last, calm⟩ := finite
  obtain ⟨outcome, u, ended⟩ := turns_end f.path node isOpen room calm
  have known := turns_known f.path answers node isOpen room
    (last + bytes.size + 1)
  have writing : f.writing bytes offset v answers (last + bytes.size + 1) = .ended outcome u := by
    rw [FileHandle.writing, hd]
    exact ended
  have onFaults (faults : Place → List WriteFault) (later : List WriteFault)
      (ahead : faults p = (List.range (last + bytes.size + 1)).map answers ++ later) :=
    writeAll_of_ended (by rintro _ h; exact Option.some.inj (h ▸ hd) ▸ isOpen) writing ahead
  refine ⟨last + bytes.size + 1, outcome, u, ?_⟩
  rw [ended] at known
  cases known with
  | complete harmless all wrote =>
    refine ⟨_, writing, onFaults, ⟨d, hd, wrote.isOpen, wrote.node⟩, wrote.others,
      iff_of_true rfl ⟨_, harmless, all⟩, fun _ => Bytes.patched_patch _ _ _, nofun⟩
  | @broken m _ harmless less harmful wrote =>
    refine ⟨_, writing, onFaults, ⟨d, hd, wrote.isOpen, wrote.node⟩, wrote.others,
      iff_of_false nofun ?_, nofun, ?_⟩
    · rintro ⟨m', harmless', all⟩
      have later : m < m' := by
        by_contra early
        exact absurd (WriteFault.offered_mono answers (Nat.not_lt.1 early)) (by omega)
      exact harmful (harmless' m later)
    · rintro _ ⟨⟩
      exact ⟨m, harmless, harmful, rfl, WriteFault.kind_cause _ _ _ _ _, less,
        Bytes.patched_patch _ _ _⟩

/-- Five bytes behind a gap arrive in two pieces around an interruption. With an error in place of
the interruption two of them are in the file. -/
theorem writeAll_whole_pieces :
    let p : Place := "f" :: Place.working
    let v : Volume := { nodes := [(p, .file (Bytes.ofText "ab"))], descriptors := [some p] }
    let f : FileHandle := ⟨"f", some 0⟩
    let bytes := Bytes.ofText [1, 2, 3, 4, 5]
    let answers (second : SystemError) : Nat → WriteFault
      | 0 => .short 2
      | 1 => .refused second
      | _ => .short 100
    (∃ k u, f.writing bytes 4 v (answers .interrupted) k = .ended (.ok ()) u ∧
      u.node? p = some (.file (Bytes.ofText [97, 98, 0, 0, 1, 2, 3, 4, 5]))) ∧
    ∃ k u, f.writing bytes 4 v (answers .inputOutput) k =
        .ended (.error (.writeFailed 5 4 "f" .inputOutput)) u ∧
      u.node? p = some (.file (Bytes.ofText [97, 98, 0, 0, 1, 2])) := by
  intro p v f bytes answers
  have holds : f.Holds v p (Bytes.ofText "ab") := ⟨0, rfl, rfl, by decide +kernel⟩
  have room : 4 + bytes.size < Volume.offsetBound := by decide +kernel
  have calm (second : SystemError) (i : Nat) (behind : 2 ≤ i) :
      answers second i ≠ .refused .interrupted := by
    obtain ⟨j, rfl⟩ := Nat.exists_eq_add_of_le' behind
    nofun
  constructor
  · obtain ⟨k, outcome, u, after, ended, -, ⟨_, _, _, node⟩, -, ok, patched, -⟩ :=
      writeAll_whole holds room ⟨2, calm .interrupted⟩
    have success : outcome = .ok () := ok.2 ⟨3, by decide, by decide +kernel⟩
    subst success
    refine ⟨k, u, ended, node.trans ?_⟩
    rw [(patched rfl).unique (Bytes.patched_patch _ _ _)]
    decide +kernel
  · obtain ⟨k, outcome, u, after, ended, -, ⟨_, _, _, node⟩, -, ok, -, failed⟩ :=
      writeAll_whole holds room ⟨2, calm .inputOutput⟩
    have early {m : Nat} (harmless : ∀ i < m, (answers .inputOutput i).IsHarmless) : m ≤ 1 := by
      by_contra late
      exact absurd (harmless 1 (by omega)) (by decide)
    cases outcome with
    | ok =>
      obtain ⟨m, harmless, all⟩ := ok.1 rfl
      have most := all.trans (WriteFault.offered_mono _ (early harmless))
      exact absurd most (by decide +kernel)
    | error e =>
      obtain ⟨m, harmless, harmful, cause, -, -, patched⟩ := failed e rfl
      have le := early harmless
      obtain rfl : m = 1 := by
        by_contra other
        obtain rfl : m = 0 := by omega
        exact harmful (by decide)
      have size : bytes.size = 5 := by decide +kernel
      subst cause
      refine ⟨k, u, ended.trans ?_, node.trans ?_⟩
      · rw [size]
        rfl
      · rw [patched.unique (Bytes.patched_patch _ _ _)]
        decide +kernel

end FileHandle
end ForwardIndex
