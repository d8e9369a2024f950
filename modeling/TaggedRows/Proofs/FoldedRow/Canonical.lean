import TaggedRows.Proofs.FoldedRow.Framing

/-!
# One value for each row

Writing a row and reading a folded row undo each other (`encode_decode_inverse`).

From rows to values and back this holds for every row that fits.  In the other direction a value
holds more than its row, namely timestamps, deleted cells and an order of the frames.  The frames of
a value are determined by its bytes (`Framing.unique`), and writing gives back the value exactly if
its frames are **canonical**: no timestamp is set, no cell is deleted, and the columns ascend
(`Canonical`).
-/

namespace TaggedRows.FoldedRow

open TaggedRows.Text

/-! ## The frames of a value -/

theorem lengthed_append_inj {bytes bytes' more more' : Bytes} (h : bytes.length ≤ maxLength)
    (h' : bytes'.length ≤ maxLength) (heq : lengthed bytes ++ more = lengthed bytes' ++ more') :
    bytes = bytes' ∧ more = more' := by
  rw [lengthed, lengthed, List.append_assoc, List.append_assoc] at heq
  obtain ⟨hword, hrest⟩ := List.append_inj heq rfl
  have hlength : bytes.length = bytes'.length := by
    rw [← ofBigEndian_word32 h, hword, ofBigEndian_word32 h']
  exact List.append_inj hrest hlength

theorem text_append_inj {text text' : String} {more more' : Bytes}
    (h : (Utf8.encode text).length ≤ maxLength) (h' : (Utf8.encode text').length ≤ maxLength)
    (heq : lengthed (Utf8.encode text) ++ more = lengthed (Utf8.encode text') ++ more') :
    text = text' ∧ more = more' := by
  obtain ⟨hbytes, hmore⟩ := lengthed_append_inj h h' heq
  have hread := Utf8.decode?_encode text
  rw [hbytes, Utf8.decode?_encode] at hread
  exact ⟨(Option.some.inj hread).symm, hmore⟩

/-- A frame is determined by its bytes, and so is where it ends. -/
theorem Frame.Fits.toBytes_append_inj {f g : Frame} {more more' : Bytes} (hf : f.Fits)
    (hg : g.Fits) (heq : f.toBytes ++ more = g.toBytes ++ more') : f = g ∧ more = more' := by
  rw [toBytes, toBytes] at heq
  simp only [List.append_assoc] at heq
  obtain ⟨hfamily, heq⟩ := text_append_inj hf.family hg.family heq
  obtain ⟨hqualifier, heq⟩ := text_append_inj hf.qualifier hg.qualifier heq
  obtain ⟨hlabel, heq⟩ := text_append_inj hf.label hg.label heq
  obtain ⟨htimestamp, heq⟩ := List.append_inj heq (hf.timestamp.trans hg.timestamp.symm)
  obtain ⟨hdeleted, heq⟩ := List.append_inj heq rfl
  obtain ⟨hbytes, hmore⟩ := lengthed_append_inj hf.bytes hg.bytes heq
  obtain ⟨⟨family, qualifier⟩, ⟨⟨label⟩, bytes⟩, timestamp, deleted⟩ := f
  obtain ⟨⟨family', qualifier'⟩, ⟨⟨label'⟩, bytes'⟩, timestamp', deleted'⟩ := g
  cases hfamily
  cases hqualifier
  cases hlabel
  cases htimestamp
  cases hdeleted
  cases hbytes
  exact ⟨rfl, hmore⟩

theorem flatMap_toBytes_inj {frames frames' : List Frame} (h : ∀ f ∈ frames, f.Fits)
    (h' : ∀ f ∈ frames', f.Fits) (hlength : frames.length = frames'.length)
    (heq : frames.flatMap Frame.toBytes = frames'.flatMap Frame.toBytes) : frames = frames' := by
  induction frames generalizing frames' with
  | nil => exact (List.eq_nil_of_length_eq_zero hlength.symm).symm
  | cons f frames ih =>
    cases frames' with
    | nil => cases hlength
    | cons g frames' =>
      obtain ⟨hf, hframes⟩ := List.forall_mem_cons.1 h
      obtain ⟨hg, hframes'⟩ := List.forall_mem_cons.1 h'
      obtain ⟨rfl, hrest⟩ := hf.toBytes_append_inj hg heq
      rw [ih hframes hframes' (Nat.succ.inj hlength) hrest]

/-- A value is made of one list of frames at most. -/
theorem Framing.unique {frames frames' : List Frame} {value : Bytes} (h : Framing frames value)
    (h' : Framing frames' value) : frames = frames' := by
  have heq : toBytes frames = toBytes frames' := h.bytes.symm.trans h'.bytes
  obtain ⟨hword, hframes⟩ := List.append_inj heq rfl
  have hlength : frames.length = frames'.length := by
    rw [← ofBigEndian_word32 h.count, hword, ofBigEndian_word32 h'.count]
  exact flatMap_toBytes_inj h.fits h'.fits hlength hframes

/-! ## Canonical frames -/

/-- No frame has a timestamp or is deleted, and the columns ascend. -/
structure Canonical (frames : List Frame) : Prop where
  timestamp : ∀ f ∈ frames, f.timestamp = List.replicate 8 0
  deleted : ∀ f ∈ frames, f.deleted = 0
  ascending : frames.Pairwise fun a b => compare a.column b.column = .lt

/-- A row is written in canonical frames. -/
theorem canonical_map_ofCell (row : Row) : Canonical (row.cells.toList.map Frame.ofCell) where
  timestamp f hf := by
    obtain ⟨cell, -, rfl⟩ := List.mem_map.1 hf
    rfl
  deleted f hf := by
    obtain ⟨cell, -, rfl⟩ := List.mem_map.1 hf
    rfl
  ascending := List.pairwise_map.2 row.cells.ascending

namespace Canonical

variable {frames : List Frame}

/-- Canonical frames are those that their cells are written in. -/
theorem eq_map_ofCell (h : Canonical frames) : frames = (liveCells frames).map Frame.ofCell := by
  have hframe : ∀ f ∈ frames, f = Frame.ofCell (f.column, f.content) := by
    intro f hf
    rw [Frame.ofCell, ← h.timestamp f hf, ← h.deleted f hf]
  have hmap : frames = (frames.map fun f => (f.column, f.content)).map Frame.ofCell := by
    rw [List.map_map]
    conv => lhs; rw [← List.map_id frames]
    exact List.map_congr_left hframe
  have hlive : liveCells frames = frames.map fun f => (f.column, f.content) := by
    conv => lhs; rw [hmap]
    rw [liveCells_map_ofCell]
  rw [hlive]
  exact hmap

/-- All cells of canonical frames stay in the row that they are put into. -/
theorem toList_insertCells (h : Canonical frames) (id : String) :
    (insertCells (Row.empty id) (liveCells frames)).cells.toList = liveCells frames := by
  have hascending : Ascending (liveCells frames) := by
    have hframes := h.ascending
    rw [h.eq_map_ofCell, List.pairwise_map] at hframes
    exact hframes
  rw [insertCells_empty]
  exact SortedMap.toList_ofList hascending

end Canonical

/-- The row of canonical frames fits. -/
theorem Canonical.rowFits {frames : List Frame} {value : Bytes} (h : Canonical frames)
    (hframes : Framing frames value) (id : String) :
    RowFits (insertCells (Row.empty id) (liveCells frames)) where
  count := by
    have hlength : (liveCells frames).length = frames.length := by
      conv => rhs; rw [h.eq_map_ofCell]
      rw [List.length_map]
    rw [Row.size, SortedMap.size, h.toList_insertCells, hlength]
    exact hframes.count
  cells cell hcell := by
    rw [h.toList_insertCells] at hcell
    apply hframes.fits
    rw [h.eq_map_ofCell]
    exact List.mem_map_of_mem hcell

/-- Writing gives back a value exactly if the frames that it is made of are canonical. -/
theorem canonical_iff_encode {frames : List Frame} {value : Bytes} (h : Framing frames value)
    (id : String) :
    Canonical frames ↔ encode (insertCells (Row.empty id) (liveCells frames)) = .ok value := by
  constructor
  · intro hcanonical
    rw [encode_of_fits (hcanonical.rowFits h id), rowBytes, hcanonical.toList_insertCells,
      ← hcanonical.eq_map_ofCell, ← h.bytes]
  · intro hencode
    have hwritten := writesIf_encode (insertCells (Row.empty id) (liveCells frames))
    by_cases hfits : RowFits (insertCells (Row.empty id) (liveCells frames))
    · rw [hwritten.ok hfits] at hencode
      cases hencode
      rw [h.unique hfits.framing]
      exact canonical_map_ofCell _
    · obtain ⟨n, -, herror⟩ := hwritten.tooLong hfits
      rw [herror] at hencode
      cases hencode

/-! ## Main result -/

/-- Writing and reading undo each other. -/
theorem encode_decode_inverse :
    (∀ row, RowFits row → ∃ value, encode row = .ok value ∧ decode row.id value = .ok row) ∧
    (∀ row, ¬ RowFits row → ∃ n, maxLength < n ∧ encode row = .error (.tooLong n)) ∧
    ∀ id value row, decode id value = .ok row →
      ∃ frames, (∀ frames', Framing frames' value ↔ frames' = frames) ∧
        (Canonical frames ↔ encode row = .ok value) := by
  refine ⟨?_, ?_, ?_⟩
  · intro row h
    exact ⟨rowBytes row, encode_of_fits h, decode_rowBytes h⟩
  · intro row h
    exact (writesIf_encode row).tooLong h
  · intro id value row h
    obtain ⟨frames, hframes, rfl⟩ := decode_eq_ok_iff.1 h
    refine ⟨frames, ?_, canonical_iff_encode hframes id⟩
    intro frames'
    constructor
    · intro h'
      exact h'.unique hframes
    · rintro rfl
      exact hframes

/-- A value with a timestamp is read, but what its row is written as is another value, which is read
as the same row. -/
theorem encode_decode_inverse_timestamp :
    let frames : List Frame := [⟨⟨"f", "q"⟩, ⟨⟨"a"⟩, [255]⟩, [0, 0, 0, 0, 0, 0, 0, 7], 0⟩]
    ∃ row, decode "r" (toBytes frames) = .ok row ∧ encode row ≠ .ok (toBytes frames) ∧
      ∃ value, encode row = .ok value ∧ decode "r" value = .ok row := by
  intro frames
  have hframes : Framing frames (toBytes frames) := ⟨rfl, by decide, by decide⟩
  obtain ⟨hrow, -, hvalue⟩ := encode_decode_inverse
  refine ⟨_, hframes.decode_eq "r", ?_, hrow _ (by decide)⟩
  obtain ⟨frames', hunique, hcanonical⟩ := hvalue "r" _ _ (hframes.decode_eq "r")
  obtain rfl := (hunique frames).1 hframes
  intro hencode
  have htimestamp := (hcanonical.2 hencode).timestamp _ (List.mem_singleton_self _)
  exact absurd htimestamp (by decide)

end TaggedRows.FoldedRow
