import ForwardIndex.IndexFile
import ForwardIndex.Proofs.Compressor
import ForwardIndex.Proofs.Header
import ForwardIndex.Proofs.ChunkWriter

/-!
# Reading what was written

A file that starts with the bytes of a header is read as that header, whatever follows. Where chunks
lie back to back behind it, at the offsets in its table, the chunks are read back.
-/
set_option autoImplicit false
namespace ForwardIndex

/-! ## Pieces of one width -/

section Pieces

variable {α : Type} {f : α → Text} {width : Nat}

theorem Text.length_pieces {l : List α} (len : ∀ a ∈ l, (f a).length = width) :
    (l.flatMap f).length = l.length * width := by
  induction l with
  | nil => simp
  | cons a l ih =>
    rw [List.flatMap_cons, List.length_append, len a List.mem_cons_self,
      ih fun b hb => len b (List.mem_cons_of_mem _ hb), List.length_cons, Nat.succ_mul,
      Nat.add_comm]

/-- A piece is found at the multiple of the width that its index tells. -/
theorem Text.piece {l : List α} (len : ∀ a ∈ l, (f a).length = width) {i : Nat} {a : α}
    (h : l[i]? = some a) (rest : Text) :
    ((l.flatMap f ++ rest).drop (i * width)).take width = f a := by
  induction l generalizing i with
  | nil => cases h
  | cons b l ih =>
    have first := len b List.mem_cons_self
    rw [List.flatMap_cons, List.append_assoc]
    cases i with
    | zero =>
      obtain rfl : b = a := by simpa using h
      rw [Nat.zero_mul, List.drop_zero, List.take_left' first]
    | succ i =>
      rw [Nat.succ_mul, Nat.add_comm, ← List.drop_drop, List.drop_left' first]
      exact ih (fun c hc => len c (List.mem_cons_of_mem _ hc)) (by simpa using h)

/-- Numbers that stand side by side are read one after the other. -/
theorem IndexFile.numbersAt_pieces {b : Bytes} {position : Nat} {l : List α}
    (len : ∀ a ∈ l, (f a).length = width) {rest : Text}
    (view : b.toText.drop position = l.flatMap f ++ rest) :
    numbersAt b width position l.length = l.map fun a => Bytes.bigEndian (f a) := by
  induction l generalizing position with
  | nil => rfl
  | cons a l ih =>
    have first := len a List.mem_cons_self
    rw [List.flatMap_cons, List.append_assoc] at view
    have next : b.toText.drop (position + width) = l.flatMap f ++ rest := by
      rw [← List.drop_drop, view, List.drop_left' first]
    rw [List.length_cons, numbersAt, Bytes.toText_slice, view, Nat.add_sub_cancel_left,
      List.take_left' first, ih (fun c hc => len c (List.mem_cons_of_mem _ hc)) next, List.map_cons]

end Pieces

/-! ## Headers -/

namespace Header

/-- Every recorded offset fits the width of the table. -/
def Fits (h : Header) : Prop := ∀ offset ∈ h.offsets, offset < 256 ^ h.offsetWidth

theorem bigEndian_offsetBytes {h : Header} {offset : Nat} (small : offset < 256 ^ h.offsetWidth) :
    Bytes.bigEndian (h.offsetBytes offset) = offset := by
  unfold offsetBytes
  obtain four | eight := h.offsetWidth_cases
  · rw [four] at small
    rw [if_pos four, Bytes.bigEndian_word32, UInt32.toNat_ofNat']
    exact Nat.mod_eq_of_lt small
  · rw [eight] at small
    rw [if_neg (by omega), Bytes.bigEndian_word64, UInt64.toNat_ofNat']
    exact Nat.mod_eq_of_lt small

theorem offsetBytes_zero (h : Header) : h.offsetBytes 0 = List.replicate h.offsetWidth 0 := by
  unfold offsetBytes
  obtain four | eight := h.offsetWidth_cases
  · rw [if_pos four, four]
    rfl
  · rw [if_neg (by omega), eight]
    rfl

/-- The table of a header: the offsets recorded, and zeros for those to come. -/
def table (h : Header) : List Nat := h.offsets.toList ++ List.replicate (h.capacity - h.recorded) 0

theorem length_table {h : Header} (within : h.recorded ≤ h.capacity) :
    h.table.length = h.capacity := by
  rw [table, List.length_append, List.length_replicate, Array.length_toList]
  exact Nat.add_sub_cancel' within

theorem toText_toBytes_table (h : Header) :
    h.toBytes.toText =
      h.fields.flatMap (fun f => Bytes.word32 f.toUInt32) ++ h.table.flatMap h.offsetBytes := by
  have zeros (n : Nat) : (List.replicate n 0).flatMap h.offsetBytes =
      List.replicate (n * h.offsetWidth) 0 := by
    induction n with
    | zero => simp
    | succ n ih =>
      rw [List.replicate_succ, List.flatMap_cons, ih, h.offsetBytes_zero,
        List.replicate_append_replicate, Nat.succ_mul, Nat.add_comm]
  rw [toText_toBytes, table, List.flatMap_append, zeros, List.append_assoc]

end Header

namespace IndexFile

/-- A field of the header is read back. -/
theorem int32At_field {h : Header} {content : Bytes} {rest : Text}
    (view : content.toText = h.fields.flatMap (fun f => Bytes.word32 f.toUInt32) ++ rest) {i : Nat}
    {field : Int32} (found : h.fields[i]? = some field) : int32At content (i * 4) = field := by
  rw [int32At, Bytes.toText_slice, view, Nat.add_sub_cancel_left,
    Text.piece (fun f _ => Bytes.length_word32 _) found, Bytes.bigEndian_word32]
  rw [← Int32.toBitVec_inj]
  simp

/-- A file that starts with a header is read as the header tells. -/
theorem parse_header {h : Header} (within : h.recorded ≤ h.capacity) (fits : h.Fits)
    {content : Bytes} {body : Text} (view : content.toText = h.toBytes.toText ++ body) :
    parse content = some
      { version := h.version
        chunkCount := h.chunkCount
        docsPerChunk := h.docsPerChunk
        entrySize := h.entrySize
        totalDocs := h.totalDocs
        compression := h.compression.code
        tableStart := Int32.ofNat Layout.fieldsSize
        offsets := h.table
        content } := by
  have size : h.size ≤ content.size := by
    rw [← Bytes.length_toText, view, List.length_append, Bytes.length_toText,
      Header.size_toBytes h within]
    exact Nat.le_add_right _ _
  rw [Header.toText_toBytes_table, List.append_assoc] at view
  have least : ¬ content.size < Layout.fieldsSize := by
    unfold Header.size at size
    omega
  have room : ¬ content.size < headerSize h.version h.chunkCount := Nat.not_lt.2 size
  have start : (Int32.ofNat Layout.fieldsSize).toNatClampNeg = Layout.fieldsSize := by decide
  have behind : content.toText.drop Layout.fieldsSize = h.table.flatMap h.offsetBytes ++ body := by
    rw [view, List.drop_left' h.length_fieldBytes]
  have numbers : numbersAt content (Layout.offsetWidth h.version) Layout.fieldsSize
      h.chunkCount.toNatClampNeg = h.table := by
    have read := numbersAt_pieces (fun offset _ => h.length_offsetBytes offset) behind
    rw [Header.length_table within] at read
    refine read.trans ((List.map_congr_left fun offset ho => ?_).trans (List.map_id _))
    refine Header.bigEndian_offsetBytes ?_
    rw [Header.table, List.mem_append, Array.mem_toList_iff] at ho
    obtain recorded | zero := ho
    · exact fits offset recorded
    · rw [List.eq_of_mem_replicate zero]
      exact Nat.pow_pos (by omega)
  unfold parse
  rw [if_neg least]
  simp only [show int32At content 0 = h.version from int32At_field (i := 0) view rfl,
    show int32At content 4 = h.chunkCount from int32At_field (i := 1) view rfl,
    show int32At content 8 = h.docsPerChunk from int32At_field (i := 2) view rfl,
    show int32At content 12 = h.entrySize from int32At_field (i := 3) view rfl,
    show int32At content 16 = h.totalDocs from int32At_field (i := 4) view rfl,
    show int32At content 20 = h.compression.code from int32At_field (i := 5) view rfl,
    show int32At content 24 = Int32.ofNat Layout.fieldsSize from int32At_field (i := 6) view rfl,
    start, numbers, if_neg room]

/-! ## Chunks -/

/-- Where every step gives a result, so do all. -/
theorem mapM_some {α β : Type} {f : α → Option β} {g : α → β} {l : List α}
    (h : ∀ a ∈ l, f a = some (g a)) : l.mapM f = some (l.map g) := by
  induction l with
  | nil => rfl
  | cons a l ih =>
    rw [List.mapM_cons, h a List.mem_cons_self, ih fun b hb => h b (List.mem_cons_of_mem _ hb)]
    rfl

/-- Every span of chunks that lie back to back lies inside the file. -/
theorem mem_spans_starts {position finish start stop : Nat} {chunks : List Bytes}
    (size : finish = position + (Bytes.joined chunks).length)
    (h : (start, stop) ∈ spans finish (Layout.starts position chunks)) :
    start ≤ stop ∧ stop ≤ finish := by
  induction chunks generalizing position with
  | nil => nomatch h
  | cons chunk rest ih =>
    rw [Bytes.length_joined_cons] at size
    cases rest with
    | nil =>
      simp only [Layout.starts, spans, List.mem_singleton, Prod.mk.injEq] at h
      obtain ⟨rfl, rfl⟩ := h
      exact ⟨by omega, Nat.le_refl _⟩
    | cons next rest =>
      simp only [Layout.starts, spans, List.mem_cons] at h
      obtain first | later := h
      · obtain ⟨rfl, rfl⟩ := Prod.mk.inj first
        exact ⟨by omega, by omega⟩
      · exact ih (by omega) later

/-- Chunks that lie back to back up to the end of a file are cut out again. -/
theorem slices_starts {content : Bytes} {position : Nat} {chunks : List Bytes}
    (within : position ≤ content.size) (view : content.toText.drop position = Bytes.joined chunks) :
    ((spans content.size (Layout.starts position chunks)).map fun (start, stop) =>
      content.slice start stop) = chunks := by
  induction chunks generalizing position with
  | nil => rfl
  | cons chunk rest ih =>
    have split : Bytes.joined (chunk :: rest) = chunk.toText ++ Bytes.joined rest := rfl
    rw [split] at view
    have size := congrArg List.length view
    rw [List.length_drop, Bytes.length_toText, List.length_append, Bytes.length_toText] at size
    have first : content.slice position (position + chunk.size) = chunk := Bytes.ext (by
      rw [Bytes.toText_slice, view, Nat.add_sub_cancel_left,
        List.take_left' (Bytes.length_toText _)])
    cases rest with
    | nil =>
      have stop : content.size = position + chunk.size := by
        rw [show (Bytes.joined []).length = 0 from rfl] at size
        omega
      simp only [Layout.starts, spans, List.map_cons, List.map_nil]
      rw [stop, first]
    | cons next rest =>
      have behind : content.toText.drop (position + chunk.size) = Bytes.joined (next :: rest) := by
        rw [← List.drop_drop, view, List.drop_left' (Bytes.length_toText _)]
      have ih := ih (by omega) behind
      simp only [Layout.starts, spans, List.map_cons] at ih ⊢
      rw [first, ih]

end IndexFile
end ForwardIndex
