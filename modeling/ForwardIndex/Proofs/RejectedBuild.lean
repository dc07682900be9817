import ForwardIndex.Proofs.ColumnBuild
import ForwardIndex.Proofs.Volume

/-!
# Builds that are rejected

A build that is rejected before its file is opened writes nothing. Its cleanup removes what stands
at the path of the index all the same, be it the index of an earlier build.
-/
set_option autoImplicit false
namespace ForwardIndex

namespace Volume

/-! ## Removing -/

theorem node?_erase (v : Volume) (p q : Place) :
    (v.erase p).node? q = if q = p then none else v.node? q := by
  unfold erase node?
  induction v.nodes with
  | nil => simp
  | cons entry rest ih =>
    obtain ⟨r, n⟩ := entry
    rw [lookup_cons_eq, List.filter_cons]
    by_cases gone : r = p
    · subst gone
      grind
    · have kept : (r != p) = true := by simpa using gone
      rw [if_pos kept, lookup_cons_eq, ih]
      grind

/-- A path leads to an entry that can be removed: it stands there, its name is no dot name, and it
is an empty directory or, by a path that asks for no directory, anything else. Links are entries
themselves. -/
structure Removable (v : Volume) (path : Text) (p : Place) : Prop where
  entry : v.locate .keep path = .ok (.entry p)
  stands : v.node? p ≠ none
  named : refuseRemoval (Path.ofText path.untilNul) = none
  kind : if v.isDirectory p then v.hasEntries p = false
    else (Path.ofText path.untilNul).trailing = false

theorem remove_removable {v : Volume} {path : Text} {p : Place} (h : v.Removable path p) :
    v.remove path = .ok (v.erase p) := by
  have kind := h.kind
  unfold remove
  rw [h.entry]
  simp only [h.named]
  by_cases directory : v.isDirectory p
  · rw [if_pos directory] at kind ⊢
    simp [kind]
  · rw [if_neg directory] at kind ⊢
    simp [kind]

/-- Where nothing can be removed, a removal changes nothing, whether it is refused or not. -/
theorem remove_none {v : Volume} {path : Text} (none : ∀ p, ¬ v.Removable path p) :
    (∃ e, v.remove path = .error e) ∨
      ∃ v', v.remove path = .ok v' ∧ ∀ q, v'.node? q = v.node? q := by
  unfold remove
  split
  · exact .inr ⟨v, rfl, fun _ => rfl⟩
  · exact .inr ⟨v, rfl, fun _ => rfl⟩
  · exact .inl ⟨_, rfl⟩
  · next p entry =>
    have vacant (named : refuseRemoval (Path.ofText path.untilNul) = .none)
        (kind : if v.isDirectory p then v.hasEntries p = false
          else (Path.ofText path.untilNul).trailing = false) (q : Place) :
        (v.erase p).node? q = v.node? q := by
      have nothing : v.node? p = .none := by
        by_contra stands
        exact none p ⟨entry, stands, named, kind⟩
      grind [node?_erase]
    dsimp only
    split
    · exact .inl ⟨_, rfl⟩
    · next named =>
      have vacant := vacant named
      by_cases directory : v.isDirectory p
      · rw [if_pos directory] at vacant ⊢
        by_cases full : v.hasEntries p
        · exact .inl ⟨_, if_pos full⟩
        · exact .inr ⟨_, if_neg full, vacant (by simpa using full)⟩
      · rw [if_neg directory] at vacant ⊢
        by_cases trailing : (Path.ofText path.untilNul).trailing
        · exact .inl ⟨_, if_pos trailing⟩
        · exact .inr ⟨_, if_neg trailing, vacant (by simpa using trailing)⟩

end Volume

namespace Column

/-! ## Rejected builds -/

section Rejected

variable {column : Column} {config : BuildConfig} {logger : Logger} {summary : Summary}
  {s : Session} {z : Deflater}

/-- A build is rejected before anything is opened: the parameters that follow from the column and
the configuration are not accepted, or the system does not open the path. -/
def Rejected (column : Column) (config : BuildConfig) (z : Deflater) (path : Text) (v : Volume) :
    Prop :=
  ¬ column.Accepted config z ∨ ∃ e, v.openWrite path = .error e

theorem Rejected.not_opens {path : Text} {v : Volume} (h : column.Rejected config z path v) :
    ¬ (column.Accepted config z ∧ ∃ opened, v.openWrite path = .ok opened) := by
  rintro ⟨accepted, opened, opens⟩
  obtain refused | ⟨e, refused⟩ := h
  · exact refused accepted
  · cases opens.symm.trans refused

/-- Where a build is rejected, writing the values fails and leaves the volume. -/
theorem writeValues_rejected (logger : Logger) (summary : Summary) (s : Session)
    (rejected : column.Rejected config z summary.path s.volume)
    (size : column.size ≤ Layout.maxInt32) (docs : summary.docs = Int32.ofNat column.size) :
    ∃ e s', writeValues column config logger summary s z = (.error e, summary, s') ∧
      s'.volume = s.volume := by
  by_cases length : column.entryLength ≤ Layout.maxInt32
  · obtain ⟨W, V, E, values, ⟨outcome, w, s₁⟩, writes, same⟩ := writeValues_eq config logger s z size
      length docs
    have closed := mt writes.opens.1 rejected.not_opens
    cases outcome with
    | error e => exact ⟨e, s₁, same, writes.refused rfl⟩
    | ok u => exact absurd rfl closed
  · exact ⟨_, s, writeValues_long (Nat.not_le.1 length), rfl⟩

/-- A cleanup takes away what can be removed at a path. -/
theorem cleanUp_removable {path : Text} {p : Place} (h : s.volume.Removable path p) (q : Place) :
    (cleanUp logger path s).volume.node? q = if q = p then none else s.volume.node? q := by
  unfold cleanUp
  rw [Volume.remove_removable h]
  exact s.volume.node?_erase p q

theorem cleanUp_none {path : Text} (none : ∀ p, ¬ s.volume.Removable path p) (q : Place) :
    (cleanUp logger path s).volume.node? q = s.volume.node? q := by
  unfold cleanUp
  obtain ⟨e, refused⟩ | ⟨v, removed, same⟩ := Volume.remove_none none
  · rw [refused]
    rfl
  · rw [removed]
    exact same q

end Rejected

/-- A build that is rejected before its file is opened fails. It leaves the tree exactly if there
are too many values, or nothing at the path of the index can be removed; otherwise what stands there
is gone, and nothing else. -/
theorem build_rejected {name dir : Text} {column : Column} {config : BuildConfig} (logger : Logger)
    {s : Session} {z : Deflater} (before : Summary)
    (rejected : column.Rejected config z (indexPath dir name) s.volume) :
    ∃ e summary s', build name column dir config logger s z before = (.error e, summary, s') ∧
      ((∀ q, s'.volume.node? q = s.volume.node? q) ↔
        Layout.maxInt32 < column.size ∨ ∀ p, ¬ s.volume.Removable (indexPath dir name) p) ∧
      (column.size ≤ Layout.maxInt32 → ∀ p, s.volume.Removable (indexPath dir name) p →
        ∀ q, s'.volume.node? q = if q = p then none else s.volume.node? q) := by
  by_cases size : column.size ≤ Layout.maxInt32
  · obtain ⟨e, s₁, failed, volume⟩ :=
      writeValues_rejected logger (planned name dir column)
        (s.report (logger.debug (buildingLine (planned name dir column) config))) rejected size rfl
    have built : build name column dir config logger s z before =
        (.error e, planned name dir column, cleanUp logger (indexPath dir name) s₁) := by
      rw [build_eq size]
      simp only [failed]
      rfl
    have same : s₁.volume = s.volume := volume
    refine ⟨e, _, _, built, ?_, ?_⟩
    · constructor
      · intro kept
        refine .inr fun p removable => removable.stands ?_
        rw [← kept p, cleanUp_removable (same ▸ removable), if_pos rfl]
      · rintro (large | none) q
        · exact absurd size (Nat.not_le.2 large)
        · rw [cleanUp_none (same ▸ none), same]
    · intro _ p removable q
      rw [cleanUp_removable (same ▸ removable), same]
  · have large := Nat.not_le.1 size
    refine ⟨_, _, s, if_pos large, ?_, fun small => absurd small size⟩
    exact iff_of_true (fun _ => rfl) (.inl large)

/-- A volume with the index of an earlier build. -/
def earlier : Session :=
  { volume := (FileHandle.create (indexPath [] [99]) (Bytes.ofText [111, 108, 100]) .initial).2 }

/-- A configuration with a compression that is not built in. -/
def notBuiltin : BuildConfig := { compression := .zstandard }

theorem build_rejected_earlier : ∃ p content e summary s',
    earlier.volume.node? p = some (.file content) ∧
    build [99] (.int [1, 2]) [] notBuiltin { level := 1 } earlier .builtin {} =
      (.error e, summary, s') ∧
    s'.volume.node? p = none := by
  have rejected : Rejected (.int [1, 2]) notBuiltin .builtin (indexPath [] [99]) earlier.volume := by
    refine .inl fun accepted => ?_
    obtain ⟨c, builtin⟩ := accepted.builtin
    cases builtin
  obtain ⟨e, summary, s', built, _, gone⟩ := build_rejected { level := 1 } {} rejected
  have stands : earlier.volume.node? (indexPath [] [99] :: Place.working) =
      some (.file (Bytes.ofText [111, 108, 100])) := rfl
  have removable : earlier.volume.Removable (indexPath [] [99])
      (indexPath [] [99] :: Place.working) :=
    ⟨rfl, by simp [stands], rfl, rfl⟩
  refine ⟨_, _, e, summary, s', stands, built, ?_⟩
  rw [gone (by decide) _ removable, if_pos rfl]

end Column
end ForwardIndex
