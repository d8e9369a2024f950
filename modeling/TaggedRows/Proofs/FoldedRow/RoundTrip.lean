import TaggedRows.FoldedRow
import TaggedRows.Proofs.Row.Filling
import TaggedRows.Proofs.Text.Utf8

/-!
# Folded rows read back

A value is a count and a **frame** for each cell.  As data a frame holds more than a cell: a
timestamp and a flag for a deleted cell (`Frame`).  Every value made of frames is read, and what is
read is the row that the cells of the frames are put into one after the other
(`Framing.decode_eq`).

Reading is put together from parts just like the value is: a reader that **reads** certain bytes as
something does so wherever they stand and whatever follows them (`Reads`), so that one lemma for
each part and one for parts in sequence (`Reads.bind`) are all it takes.

Writing puts each cell of a row into a frame of its own, as long as its count and lengths are
numbers that a frame can hold, and otherwise reports one that is not (`writesIf_encode`).  The
columns of a row ascend, so reading puts back each of them (`decode_rowBytes`).
-/

namespace TaggedRows.FoldedRow

open TaggedRows.Text

/-! ## Frames -/

/-- The greatest count or length in a value. -/
def maxLength : Nat := 2147483647

/-- Bytes behind their length. -/
def lengthed (bytes : Bytes) : Bytes := word32 bytes.length ++ bytes

/-- The frame of a cell: the cell, a timestamp, and a flag that is zero unless the cell is
deleted. -/
structure Frame where
  column : Column
  content : Content
  timestamp : Bytes
  deleted : UInt8

namespace Frame

/-- The bytes of the frame. -/
def toBytes (f : Frame) : Bytes :=
  lengthed (Utf8.encode f.column.family) ++ (lengthed (Utf8.encode f.column.qualifier) ++
    (lengthed (Utf8.encode f.content.label.text) ++ (f.timestamp ++ ([f.deleted] ++
      lengthed f.content.bytes))))

/-- The cell in the frame, unless it is deleted. -/
def cell? (f : Frame) : Option (Column × Content) :=
  if f.deleted = 0 then some (f.column, f.content) else none

/-- The frame that a cell is written in. -/
def ofCell (cell : Column × Content) : Frame := ⟨cell.1, cell.2, List.replicate 8 0, 0⟩

/-- All lengths are numbers that a frame can hold. -/
structure Fits (f : Frame) : Prop where
  family : (Utf8.encode f.column.family).length ≤ maxLength
  qualifier : (Utf8.encode f.column.qualifier).length ≤ maxLength
  label : (Utf8.encode f.content.label.text).length ≤ maxLength
  bytes : f.content.bytes.length ≤ maxLength
  timestamp : f.timestamp.length = 8

instance (f : Frame) : Decidable f.Fits :=
  decidable_of_iff ((Utf8.encode f.column.family).length ≤ maxLength ∧
    (Utf8.encode f.column.qualifier).length ≤ maxLength ∧
      (Utf8.encode f.content.label.text).length ≤ maxLength ∧
        f.content.bytes.length ≤ maxLength ∧ f.timestamp.length = 8)
    ⟨fun ⟨hf, hq, hl, hb, ht⟩ => ⟨hf, hq, hl, hb, ht⟩,
      fun h => ⟨h.family, h.qualifier, h.label, h.bytes, h.timestamp⟩⟩

end Frame

/-- A value made of frames. -/
def toBytes (frames : List Frame) : Bytes := word32 frames.length ++ frames.flatMap Frame.toBytes

/-- The value is made of these frames, and it can hold their count and their lengths. -/
structure Framing (frames : List Frame) (value : Bytes) : Prop where
  bytes : value = toBytes frames
  count : frames.length ≤ maxLength
  fits : ∀ f ∈ frames, f.Fits

/-- The cells in frames that are not deleted. -/
def liveCells (frames : List Frame) : List (Column × Content) := frames.filterMap Frame.cell?

theorem liveCells_map_ofCell (cells : List (Column × Content)) :
    liveCells (cells.map Frame.ofCell) = cells := by
  rw [liveCells, List.filterMap_map]
  exact List.filterMap_some

/-! ## Reading parts -/

/-- The reader reads the bytes as `a`, wherever they stand and whatever follows them. -/
def Reads (r : Reader α) (bytes : Bytes) (a : α) : Prop :=
  ∀ offset rest, r ⟨offset, bytes ++ rest⟩ = .ok (a, ⟨offset + bytes.length, rest⟩)

theorem Reads.pure (a : α) : Reads (pure a) [] a := fun _ _ => rfl

/-- What stands behind each other is read in sequence. -/
theorem Reads.bind {r : Reader α} {f : α → Reader β} {bytes more : Bytes} {a : α} {b : β}
    (hr : Reads r bytes a) (hf : Reads (f a) more b) : Reads (r >>= f) (bytes ++ more) b := by
  intro offset rest
  have hstep : (r >>= f) ⟨offset, bytes ++ more ++ rest⟩ =
      (r ⟨offset, bytes ++ (more ++ rest)⟩).bind fun p => f p.1 p.2 := by
    rw [List.append_assoc]
    rfl
  rw [hstep, hr, Except.bind, hf, List.length_append, Nat.add_assoc]

/-- A step that reads nothing can follow. -/
theorem Reads.bind_nil {r : Reader α} {f : α → Reader β} {bytes : Bytes} {a : α} {b : β}
    (hr : Reads r bytes a) (hf : Reads (f a) [] b) : Reads (r >>= f) bytes b := by
  have hread := hr.bind hf
  rwa [List.append_nil] at hread

theorem reads_readBytes (part : Part) (bytes : Bytes) :
    Reads (readBytes part bytes.length) bytes bytes := by
  intro offset rest
  have henough : ¬ (bytes ++ rest).length < bytes.length := by simp
  rw [readBytes, if_neg henough]
  simp

theorem ofBigEndian_word32 {n : Nat} (h : n ≤ maxLength) : ofBigEndian (word32 n) = n := by
  simp only [maxLength] at h
  simp only [ofBigEndian, word32, List.foldl_cons, List.foldl_nil, UInt8.toNat_ofNat']
  omega

theorem reads_readLength (part : Part) {n : Nat} (h : n ≤ maxLength) :
    Reads (readLength part) (word32 n) n := by
  have hword : ofWord32 (word32 n) = n := by
    have hsmall : n < 2147483648 := by
      simp only [maxLength] at h
      omega
    rw [ofWord32, ofBigEndian_word32 h]
    exact if_pos hsmall
  unfold readLength
  refine (reads_readBytes part (word32 n)).bind_nil ?_
  rw [hword, if_neg (by omega)]
  exact Reads.pure n

theorem reads_readText (part : Part) {text : String} (h : (Utf8.encode text).length ≤ maxLength) :
    Reads (readText part) (lengthed (Utf8.encode text)) text := by
  unfold readText lengthed
  refine (reads_readLength part h).bind ((reads_readBytes part _).bind_nil ?_)
  rw [Utf8.decode?_encode]
  exact Reads.pure text

/-! ## Reading frames -/

/-- A frame is read as the cell in it, or as nothing if that is deleted. -/
theorem Frame.Fits.reads {f : Frame} (h : f.Fits) : Reads readCell f.toBytes f.cell? := by
  unfold readCell Frame.toBytes lengthed
  refine (reads_readText .family h.family).bind ?_
  refine (reads_readText .qualifier h.qualifier).bind ?_
  refine (reads_readText .label h.label).bind ?_
  have htimestamp : Reads (readBytes .timestamp 8) f.timestamp f.timestamp := by
    have hread := reads_readBytes .timestamp f.timestamp
    rwa [h.timestamp] at hread
  refine htimestamp.bind ?_
  refine (reads_readBytes .deletedFlag [f.deleted]).bind ?_
  refine (reads_readLength .valueLength h.bytes).bind ((reads_readBytes .value _).bind_nil ?_)
  have hcell : (if [f.deleted] = [0] then some (f.column, f.content) else none) = f.cell? := by
    simp [Frame.cell?]
  rw [← hcell]
  exact Reads.pure _

/-- Put cells into a row, one after the other. -/
def insertCells (row : Row) (cells : List (Column × Content)) : Row :=
  cells.foldl (fun row cell => row.insert cell.1 cell.2) row

theorem insertCells_eq (row : Row) (cells : List (Column × Content)) :
    insertCells row cells = ⟨row.id, row.cells.insertMany cells⟩ := by
  induction cells generalizing row with
  | nil => rfl
  | cons cell cells ih => exact ih (row.insert cell.1 cell.2)

/-- Cells that are put into a row without any make up the map of a list, in which the later of two
cells in one column stays. -/
theorem insertCells_empty (id : String) (cells : List (Column × Content)) :
    insertCells (Row.empty id) cells = ⟨id, .ofList cells⟩ := insertCells_eq ..

/-- Frames in sequence are read as the cells in them. -/
theorem reads_readCells {frames : List Frame} (h : ∀ f ∈ frames, f.Fits) (row : Row) :
    Reads (readCells frames.length row) (frames.flatMap Frame.toBytes)
      (insertCells row (liveCells frames)) := by
  induction frames generalizing row with
  | nil => exact Reads.pure row
  | cons f frames ih =>
    obtain ⟨hf, hframes⟩ := List.forall_mem_cons.1 h
    rw [List.length_cons, List.flatMap_cons, readCells]
    refine hf.reads.bind ?_
    cases hcell : f.cell? with
    | none =>
      rw [liveCells, List.filterMap_cons_none hcell]
      exact ih hframes row
    | some cell =>
      rw [liveCells, List.filterMap_cons_some hcell]
      exact ih hframes (row.insert cell.1 cell.2)

namespace Framing

variable {frames : List Frame} {value : Bytes}

/-- A value made of frames is read up to its end, and what follows it is reported. -/
theorem decode_append (h : Framing frames value) (id : String) (more : Bytes) :
    decode id (value ++ more) =
      if more = [] then .ok (insertCells (Row.empty id) (liveCells frames))
      else .error (.trailing more.length frames.length) := by
  have hlength := reads_readLength .cellCount h.count 0 (frames.flatMap Frame.toBytes ++ more)
  have hcells := reads_readCells h.fits (Row.empty id) (0 + (word32 frames.length).length) more
  rw [decode, h.bytes, toBytes, List.append_assoc, hlength]
  simp only [bind, Except.bind]
  rw [hcells]
  rfl

/-- A value made of frames is read as the row of the cells in them. -/
theorem decode_eq (h : Framing frames value) (id : String) :
    decode id value = .ok (insertCells (Row.empty id) (liveCells frames)) := by
  have hread := h.decode_append id []
  rwa [List.append_nil, if_pos rfl] at hread

end Framing

/-! ## Writing -/

/-- Writing succeeds with these bytes if all lengths fit, and else reports one that does not. -/
structure WritesIf (r : Except FrameError Bytes) (fits : Prop) (bytes : Bytes) : Prop where
  ok : fits → r = .ok bytes
  tooLong : ¬ fits → ∃ n, maxLength < n ∧ r = .error (.tooLong n)

section WritesIf

variable {r : Except FrameError Bytes} {f : Bytes → Except FrameError Bytes} {p q : Prop}
  {bytes out : Bytes}

theorem WritesIf.pure (bytes : Bytes) : WritesIf (pure bytes) True bytes where
  ok _ := rfl
  tooLong h := absurd trivial h

/-- Writing in sequence succeeds if each step does, and else reports what the first failing step
reports. -/
theorem WritesIf.bind (hr : WritesIf r p bytes) (hf : WritesIf (f bytes) q out) :
    WritesIf (r >>= f) (p ∧ q) out where
  ok h := by
    rw [hr.ok h.1]
    exact hf.ok h.2
  tooLong h := by
    by_cases hp : p
    · rw [hr.ok hp]
      exact hf.tooLong fun hq => h ⟨hp, hq⟩
    · obtain ⟨n, hn, herror⟩ := hr.tooLong hp
      exact ⟨n, hn, by rw [herror]; rfl⟩

theorem WritesIf.congr (h : WritesIf r p bytes) (hpq : p ↔ q) (hbytes : bytes = out) :
    WritesIf r q out where
  ok hq := by rw [h.ok (hpq.2 hq), hbytes]
  tooLong hq := h.tooLong fun hp => hq (hpq.1 hp)

end WritesIf

theorem writesIf_encodeLength (n : Nat) :
    WritesIf (encodeLength n) (n ≤ maxLength) (word32 n) where
  ok h := if_pos h
  tooLong h := ⟨n, Nat.lt_of_not_le h, if_neg h⟩

theorem writesIf_encodeBytes (bytes : Bytes) :
    WritesIf (encodeBytes bytes) (bytes.length ≤ maxLength) (lengthed bytes) :=
  .congr (.bind (writesIf_encodeLength bytes.length) (.pure _)) (iff_of_eq (and_true _)) rfl

theorem writesIf_encodeCell (cell : Column × Content) :
    WritesIf (encodeCell cell.1 cell.2) (Frame.ofCell cell).Fits (Frame.ofCell cell).toBytes := by
  unfold encodeCell
  refine .congr (.bind (writesIf_encodeBytes _) (.bind (writesIf_encodeBytes _)
    (.bind (writesIf_encodeBytes _) (.bind (writesIf_encodeBytes _) (.pure _))))) ?_ ?_
  · constructor
    · rintro ⟨hfamily, hqualifier, hlabel, hbytes, -⟩
      exact ⟨hfamily, hqualifier, hlabel, hbytes, rfl⟩
    · intro h
      exact ⟨h.family, h.qualifier, h.label, h.bytes, trivial⟩
  · simp [Frame.toBytes, Frame.ofCell]

theorem writesIf_encodeCells (cells : List (Column × Content)) :
    WritesIf (encodeCells cells) (∀ cell ∈ cells, (Frame.ofCell cell).Fits)
      ((cells.map Frame.ofCell).flatMap Frame.toBytes) := by
  induction cells with
  | nil => exact (WritesIf.pure []).congr (by simp) rfl
  | cons cell cells ih =>
    refine .congr (.bind (writesIf_encodeCell cell) (.bind ih (.pure _))) ?_ rfl
    rw [and_true, List.forall_mem_cons]

/-- The count of the row and the lengths of its cells are numbers that a value can hold. -/
structure RowFits (row : Row) : Prop where
  count : row.size ≤ maxLength
  cells : ∀ cell ∈ row.cells.toList, (Frame.ofCell cell).Fits

instance (row : Row) : Decidable (RowFits row) :=
  decidable_of_iff (row.size ≤ maxLength ∧ ∀ cell ∈ row.cells.toList, (Frame.ofCell cell).Fits)
    ⟨fun ⟨hcount, hcells⟩ => ⟨hcount, hcells⟩, fun h => ⟨h.count, h.cells⟩⟩

/-- The value that a row is written as. -/
def rowBytes (row : Row) : Bytes := toBytes (row.cells.toList.map Frame.ofCell)

/-- A row is written exactly if it fits, and else a length that does not fit is reported. -/
theorem writesIf_encode (row : Row) : WritesIf (encode row) (RowFits row) (rowBytes row) := by
  unfold encode
  refine .congr (.bind (writesIf_encodeLength _) (.bind (writesIf_encodeCells _) (.pure _))) ?_ ?_
  · constructor
    · rintro ⟨hcount, hcells, -⟩
      exact ⟨hcount, hcells⟩
    · intro h
      exact ⟨h.count, h.cells, trivial⟩
  · rw [rowBytes, toBytes, List.length_map]
    rfl

theorem encode_of_fits {row : Row} (h : RowFits row) : encode row = .ok (rowBytes row) :=
  (writesIf_encode row).ok h

/-! ## Round trip -/

theorem insertCells_empty_toList (row : Row) :
    insertCells (Row.empty row.id) row.cells.toList = row := by
  have hall : SortedMap.ofList row.cells.toList = row.cells :=
    SortedMap.ext (SortedMap.toList_ofList row.cells.ascending)
  rw [insertCells_empty, hall]

/-- A row that fits is written in a frame for each of its cells. -/
theorem RowFits.framing {row : Row} (h : RowFits row) :
    Framing (row.cells.toList.map Frame.ofCell) (rowBytes row) where
  bytes := rfl
  count := by
    rw [List.length_map]
    exact h.count
  fits f hf := by
    obtain ⟨cell, hcell, rfl⟩ := List.mem_map.1 hf
    exact h.cells cell hcell

/-- A row that fits is read back from the value it was written as. -/
theorem decode_rowBytes {row : Row} (h : RowFits row) : decode row.id (rowBytes row) = .ok row := by
  rw [h.framing.decode_eq, liveCells_map_ofCell, insertCells_empty_toList]

end TaggedRows.FoldedRow
