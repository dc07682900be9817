import ForwardIndex.Proofs.IndexFile
import ForwardIndex.Proofs.Layout
import Mathlib.Algebra.Order.Floor.Div

/-!
# Headers and their bytes

A header is made for a number of documents and given one offset after the other. Whatever it is
given, accepted or refused, its bytes take the room it tells, and reading them gives back the
fields, the offsets that were accepted, and zeros in the places left.
-/
set_option autoImplicit false
namespace ForwardIndex.Header

/-- Whether the table's width has room for an offset. -/
def Takes (h : Header) (offset : UInt64) : Prop :=
  h.version = 2 → offset.toNat ≤ Layout.maxInt32

/-- What becomes of a header that is given an offset: it is full, the offset is too large for it,
or the offset comes last in the table. -/
inductive Recorded (h : Header) (offset : UInt64) : Outcome → Header → Prop
  | full (e : Failure) (usage : e.kind = .usage) (isFull : h.recorded = h.capacity) :
      Recorded h offset (.error e) h
  | tooLarge (e : Failure) (overflow : e.kind = .overflow) (room : h.recorded < h.capacity)
      (far : ¬ h.Takes offset) : Recorded h offset (.error e) h
  | added (room : h.recorded < h.capacity) (near : h.Takes offset) :
      Recorded h offset (.ok ()) { h with offsets := h.offsets.push offset.toNat }

theorem recorded_record {h : Header} (within : h.recorded ≤ h.capacity) (offset : UInt64) :
    h.Recorded offset (h.record offset.toNat).1 (h.record offset.toNat).2 := by
  by_cases full : h.isFull
  · simp only [record, full, if_true]
    have most : h.capacity ≤ h.recorded := by simpa [isFull] using full
    exact .full _ rfl (by omega)
  · have room : h.recorded < h.capacity := by simpa [isFull] using full
    cases checked : h.checkOffset offset.toNat with
    | ok u =>
      simp only [record, full, checked]
      exact .added room (checkOffset_ok checked)
    | error e =>
      obtain ⟨narrow, far⟩ := checkOffset_error checked
      have overflow : e.kind = .overflow := by
        unfold checkOffset at checked
        split at checked <;> cases checked
        rfl
      simp only [record, full, checked]
      exact .tooLarge e overflow room fun near => by
        have := near narrow
        omega

/-- Which answer a header gives is decided by the room in its table and by the table's width. -/
theorem Recorded.exactly {h h' : Header} {offset : UInt64} {answer : Outcome}
    (step : h.Recorded offset answer h') :
    ((∃ e, answer = .error e ∧ e.kind = .usage) ↔ h.recorded = h.capacity) ∧
      ((∃ e, answer = .error e ∧ e.kind = .overflow) ↔
        h.recorded < h.capacity ∧ h.version = 2 ∧ Layout.maxInt32 < offset.toNat) ∧
      (answer = .ok () ↔ h.recorded < h.capacity ∧ h.Takes offset) ∧
      (answer ≠ .ok () → h' = h) := by
  have narrow : ¬ h.Takes offset ↔ h.version = 2 ∧ Layout.maxInt32 < offset.toNat := by
    simp [Takes, Classical.not_imp]
  rw [← narrow]
  cases step with
  | full e usage isFull => simp [isFull, usage]
  | tooLarge e overflow room far => simp [room, room.ne, far, overflow]
  | added room near => simp [room, room.ne, near]

/-- The header behind offsets that were given to it one after the other. -/
def recordAll (h : Header) : List UInt64 → Header
  | [] => h
  | offset :: rest => (h.record offset.toNat).2.recordAll rest

/-- The offsets that are accepted of those given one after the other. -/
def accepted (h : Header) : List UInt64 → List UInt64
  | [] => []
  | offset :: rest =>
    match (h.record offset.toNat).1 with
    | .ok () => offset :: (h.record offset.toNat).2.accepted rest
    | .error _ => (h.record offset.toNat).2.accepted rest

/-- What holds of a header whatever offsets it was given. -/
structure Keeps (h : Header) (offsets : List UInt64) (h' : Header) : Prop where
  within : h'.recorded ≤ h'.capacity
  fits : h'.Fits
  /-- Only the table grows, by the offsets that were accepted. -/
  table : h' = { h with offsets := h.offsets ++ ((h.accepted offsets).map UInt64.toNat).toArray }

theorem Takes.lt {h : Header} {offset : UInt64} (near : h.Takes offset) :
    offset.toNat < 256 ^ h.offsetWidth := by
  have bound := offset.toNat_lt
  obtain four | eight := h.offsetWidth_cases
  · have := near (h.offsetWidth_eq_four.1 four)
    rw [four]
    unfold Layout.maxInt32 at this
    omega
  · rw [eight]
    omega

theorem recordAll_keeps {h : Header} (within : h.recorded ≤ h.capacity) (fits : h.Fits)
    (offsets : List UInt64) : h.Keeps offsets (h.recordAll offsets) := by
  induction offsets generalizing h with
  | nil => exact ⟨within, fits, by simp [recordAll, accepted]⟩
  | cons offset rest ih =>
    have step := recorded_record within offset
    rw [recordAll]
    generalize hr : h.record offset.toNat = r at step
    obtain ⟨answer, h'⟩ := r
    cases step with
    | full e usage isFull =>
      have ih := ih within fits
      exact ⟨ih.within, ih.fits, by simpa [accepted, hr] using ih.table⟩
    | tooLarge e overflow room far =>
      have ih := ih within fits
      exact ⟨ih.within, ih.fits, by simpa [accepted, hr] using ih.table⟩
    | added room near =>
      have within' : { h with offsets := h.offsets.push offset.toNat }.recorded ≤ h.capacity := by
        rw [recorded, Array.size_push]
        exact room
      have fits' : Fits { h with offsets := h.offsets.push offset.toNat } := by
        intro other known
        obtain before | rfl := Array.mem_push.1 known
        · exact fits other before
        · exact near.lt
      have ih := ih within' fits'
      refine ⟨ih.within, ih.fits, ih.table.trans ?_⟩
      congr 1
      apply Array.ext'
      simp [accepted, hr]

/-- A header declares as many chunks as the documents fill, the last one perhaps in part. -/
theorem toInt_chunkCount_new (version entrySize : Int32) (compression : Compression)
    {totalDocs docsPerChunk : Int32} (total : 0 ≤ totalDocs) (docs : 1 ≤ docsPerChunk) :
    (new version totalDocs docsPerChunk entrySize compression).chunkCount.toInt =
      (totalDocs.toNatClampNeg ⌈/⌉ docsPerChunk.toNatClampNeg : Nat) := by
  rw [Int32.le_iff_toInt_le] at total docs
  have total : 0 ≤ totalDocs.toInt := by simpa using total
  have docs : 1 ≤ docsPerChunk.toInt := by simpa using docs
  rw [Nat.ceilDiv_eq_add_pred_div]
  exact Layout.toInt_chunkCount total docs

/-- Whatever offsets a new header is given, its bytes take the room it tells, they are read as its
fields and the offsets accepted, and it answers to one more by the room in the table and its
width. -/
theorem parse_recordAll (version entrySize : Int32) (compression : Compression)
    {totalDocs docsPerChunk : Int32} (total : 0 ≤ totalDocs) (docs : 1 ≤ docsPerChunk)
    (offsets : List UInt64) :
    let blank := new version totalDocs docsPerChunk entrySize compression
    let h := blank.recordAll offsets
    let kept := (blank.accepted offsets).map UInt64.toNat
    let declared := totalDocs.toNatClampNeg ⌈/⌉ docsPerChunk.toNatClampNeg
    h.toBytes.size = h.size ∧
      blank.chunkCount.toInt = declared ∧
      kept.length ≤ declared ∧
      IndexFile.parse h.toBytes = some
        { version
          chunkCount := blank.chunkCount
          docsPerChunk
          entrySize
          totalDocs
          compression := compression.code
          tableStart := 28
          offsets := kept ++ List.replicate (declared - kept.length) 0
          content := h.toBytes } ∧
      ∀ offset : UInt64,
        let (answer, h') := h.record offset.toNat
        ((∃ e, answer = .error e ∧ e.kind = .usage) ↔ kept.length = declared) ∧
          ((∃ e, answer = .error e ∧ e.kind = .overflow) ↔
            kept.length < declared ∧ version = 2 ∧ Layout.maxInt32 < offset.toNat) ∧
          (answer = .ok () ↔
            kept.length < declared ∧ (version = 2 → offset.toNat ≤ Layout.maxInt32)) ∧
          (answer ≠ .ok () → h' = h) := by
  intro blank h kept declared
  have count := toInt_chunkCount_new version entrySize compression total docs
  have capacity : blank.capacity = declared := by
    rw [Header.capacity, ← Int32.toNat_toInt, count, Int.toNat_natCast]
  have keeps : blank.Keeps offsets h :=
    recordAll_keeps (Nat.zero_le _) (fun offset known => absurd known (Array.not_mem_empty _))
      offsets
  have recorded : h.offsets.toList = kept := by simp [keeps.table, blank, new, kept]
  have places : h.capacity = declared := by
    rw [← capacity, keeps.table]
    rfl
  have size : h.recorded = kept.length := by rw [← recorded, Array.length_toList, Header.recorded]
  have within : kept.length ≤ declared := by
    have := keeps.within
    omega
  refine ⟨size_toBytes h keeps.within, count, within, ?_, fun offset => ?_⟩
  · have read := IndexFile.parse_header keeps.within keeps.fits (List.append_nil _).symm
    have table : h.table = kept ++ List.replicate (declared - kept.length) 0 := by
      rw [Header.table, recorded, places, size]
    rw [read, table]
    simp only [keeps.table]
    rfl
  · have versions : h.version = version := by
      rw [keeps.table]
      rfl
    have exactly := (recorded_record keeps.within offset).exactly
    rwa [size, places, Takes, versions] at exactly

/-- Five documents in chunks of two: of three offsets the one too large for the narrow table is
refused, the place of the third chunk stays zero, and it is refused once more. -/
theorem parse_recordAll_narrow :
    let h := (new 2 5 2 12 .gzip).recordAll [40, 0x80000000, 60]
    h.toBytes.size = 40 ∧
      IndexFile.parse h.toBytes = some
        { version := 2
          chunkCount := 3
          docsPerChunk := 2
          entrySize := 12
          totalDocs := 5
          compression := 5
          tableStart := 28
          offsets := [40, 60, 0]
          content := h.toBytes } ∧
      ∃ e, (h.record 0x80000000).1 = .error e ∧ e.kind = .overflow := by
  have total : (0 : Int32) ≤ 5 := by decide
  have docs : (1 : Int32) ≤ 2 := by decide
  obtain ⟨size, -, -, read, answers⟩ :=
    parse_recordAll 2 12 .gzip total docs [40, 0x80000000, 60]
  have declared : (5 : Int32).toNatClampNeg ⌈/⌉ (2 : Int32).toNatClampNeg = 3 := by decide
  have kept : (new 2 5 2 12 .gzip).accepted [40, 0x80000000, 60] = [40, 60] := by decide
  rw [declared, kept] at read
  refine ⟨size, read, (answers 0x80000000).2.1.2 ⟨?_, rfl, by decide⟩⟩
  rw [declared, kept]
  decide

end ForwardIndex.Header
