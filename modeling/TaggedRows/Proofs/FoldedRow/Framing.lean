import TaggedRows.Proofs.FoldedRow.Positions
import TaggedRows.Proofs.FoldedRow.RoundTrip
import TaggedRows.Tag.Codec

/-!
# What is read as a folded row

Every value made of frames is read (`Framing.decode_eq`).  The converse holds as well: whatever a
reader accepts it has taken off the front of its input in the very form in which that part is
written, from counts and texts (`readLength_eq_ok`, `readText_eq_ok`) up to frames
(`readCell_eq_ok`) and sequences of frames (`readCells_eq_ok`).  The values that are read are
therefore the values made of frames and no others (`decode_eq_ok_iff`).

A count stands in front of the frames, so that no value made of frames is a proper part of the front
of another one (`Framing.eq_nil_of_append`).
-/

namespace TaggedRows.FoldedRow

open TaggedRows.Text

/-! ## What readers take -/

/-- A reading in sequence that succeeds, step by step. -/
theorem exists_of_bind {r : Reader α} {f : α → Reader β} {place later : Place} {b : β}
    (h : (r >>= f) place = .ok (b, later)) :
    ∃ a next, r place = .ok (a, next) ∧ f a next = .ok (b, later) := by
  have hstep : (r >>= f) place = (r place).bind fun p => f p.1 p.2 := rfl
  rw [hstep] at h
  cases hplace : r place with
  | error e =>
    rw [hplace] at h
    cases h
  | ok p =>
    rw [hplace] at h
    exact ⟨p.1, p.2, rfl, h⟩

variable {place later : Place}

theorem readBytes_eq_ok {part : Part} {n : Nat} {bytes : Bytes}
    (h : readBytes part n place = .ok (bytes, later)) :
    place.rest = bytes ++ later.rest ∧ bytes.length = n := by
  rw [readBytes] at h
  split at h
  · cases h
  · rename_i henough
    cases h
    refine ⟨(List.take_append_drop n place.rest).symm, ?_⟩
    rw [List.length_take]
    omega

theorem word32_ofBigEndian (a b c d : UInt8) :
    word32 (ofBigEndian [a, b, c, d]) = [a, b, c, d] := by
  have ha := a.toNat_lt
  have hb := b.toNat_lt
  have hc := c.toNat_lt
  have hd := d.toNat_lt
  have hn : ofBigEndian [a, b, c, d] =
      ((a.toNat * 256 + b.toNat) * 256 + c.toNat) * 256 + d.toNat := by
    simp [ofBigEndian]
  rw [word32, hn]
  congr 1
  · rw [← UInt8.toNat_inj, UInt8.toNat_ofNat']
    omega
  congr 1
  · rw [← UInt8.toNat_inj, UInt8.toNat_ofNat']
    omega
  congr 1
  · rw [← UInt8.toNat_inj, UInt8.toNat_ofNat']
    omega
  congr 1
  rw [← UInt8.toNat_inj, UInt8.toNat_ofNat']
  omega

/-- Four bytes that spell no negative number are the bytes of their number. -/
theorem eq_word32 {bytes : Bytes} (hlength : bytes.length = 4) (h : ¬ ofWord32 bytes < 0) :
    bytes = word32 (ofWord32 bytes).toNat ∧ (ofWord32 bytes).toNat ≤ maxLength := by
  have hbytes : word32 (ofBigEndian bytes) = bytes := by
    match bytes, hlength with
    | [a, b, c, d], _ => exact word32_ofBigEndian a b c d
  have hbound : ofBigEndian bytes < 4294967296 := by
    match bytes, hlength with
    | [a, b, c, d], _ =>
      have ha := a.toNat_lt
      have hb := b.toNat_lt
      have hc := c.toNat_lt
      have hd := d.toNat_lt
      simp [ofBigEndian]
      omega
  rw [ofWord32] at h ⊢
  split at h
  · rename_i hsmall
    rw [if_pos hsmall, Int.toNat_natCast, hbytes, maxLength]
    exact ⟨rfl, by omega⟩
  · omega

theorem readLength_eq_ok {part : Part} {n : Nat} (h : readLength part place = .ok (n, later)) :
    place.rest = word32 n ++ later.rest ∧ n ≤ maxLength := by
  unfold readLength at h
  obtain ⟨bytes, next, hbytes, h⟩ := exists_of_bind h
  obtain ⟨hrest, hlength⟩ := readBytes_eq_ok hbytes
  simp only at h
  split at h
  · cases h
  · rename_i hneg
    cases h
    obtain ⟨hword, hmax⟩ := eq_word32 hlength hneg
    exact ⟨by rw [← hword, hrest], hmax⟩

theorem readText_eq_ok {part : Part} {text : String} (h : readText part place = .ok (text, later)) :
    place.rest = lengthed (Utf8.encode text) ++ later.rest ∧
      (Utf8.encode text).length ≤ maxLength := by
  unfold readText at h
  obtain ⟨n, next, hn, h⟩ := exists_of_bind h
  obtain ⟨bytes, last, hbytes, hread⟩ := exists_of_bind h
  obtain ⟨hrest, hmax⟩ := readLength_eq_ok hn
  obtain ⟨hnext, rfl⟩ := readBytes_eq_ok hbytes
  cases htext : Utf8.decode? bytes with
  | none =>
    rw [htext] at hread
    cases hread
  | some s =>
    rw [htext] at hread
    cases hread
    obtain rfl := Utf8.decode?_eq_some_iff.1 htext
    exact ⟨by rw [hrest, hnext, lengthed, List.append_assoc], hmax⟩

/-- What is read as a cell, or as nothing in place of one, is a frame. -/
theorem readCell_eq_ok {cell? : Option (Column × Content)}
    (h : readCell place = .ok (cell?, later)) :
    ∃ f : Frame, f.Fits ∧ place.rest = f.toBytes ++ later.rest ∧ f.cell? = cell? := by
  unfold readCell at h
  obtain ⟨family, p₁, hfamily, h⟩ := exists_of_bind h
  obtain ⟨qualifier, p₂, hqualifier, h⟩ := exists_of_bind h
  obtain ⟨label, p₃, hlabel, h⟩ := exists_of_bind h
  obtain ⟨timestamp, p₄, htimestamp, h⟩ := exists_of_bind h
  obtain ⟨flag, p₅, hflag, h⟩ := exists_of_bind h
  obtain ⟨n, p₆, hn, h⟩ := exists_of_bind h
  obtain ⟨bytes, p₇, hbytes, h⟩ := exists_of_bind h
  cases h
  obtain ⟨hr₁, hfamily⟩ := readText_eq_ok hfamily
  obtain ⟨hr₂, hqualifier⟩ := readText_eq_ok hqualifier
  obtain ⟨hr₃, hlabel⟩ := readText_eq_ok hlabel
  obtain ⟨hr₄, htimestamp⟩ := readBytes_eq_ok htimestamp
  obtain ⟨hr₅, hflag⟩ := readBytes_eq_ok hflag
  obtain ⟨hr₆, hn⟩ := readLength_eq_ok hn
  obtain ⟨hr₇, rfl⟩ := readBytes_eq_ok hbytes
  obtain ⟨deleted, rfl⟩ := List.length_eq_one_iff.1 hflag
  refine ⟨⟨⟨family, qualifier⟩, ⟨⟨label⟩, bytes⟩, timestamp, deleted⟩,
    ⟨hfamily, hqualifier, hlabel, hn, htimestamp⟩, ?_, ?_⟩
  · simp only [hr₁, hr₂, hr₃, hr₄, hr₅, hr₆, hr₇, Frame.toBytes, lengthed, List.append_assoc]
  · simp [Frame.cell?]

/-- What is read as a number of cells is that number of frames. -/
theorem readCells_eq_ok {n : Nat} {row row' : Row} (h : readCells n row place = .ok (row', later)) :
    ∃ frames : List Frame, frames.length = n ∧ (∀ f ∈ frames, f.Fits) ∧
      place.rest = frames.flatMap Frame.toBytes ++ later.rest ∧
      row' = insertCells row (liveCells frames) := by
  induction n generalizing row place with
  | zero =>
    cases h
    exact ⟨[], rfl, by simp, rfl, rfl⟩
  | succ n ih =>
    rw [readCells] at h
    obtain ⟨cell?, next, hcell, h⟩ := exists_of_bind h
    obtain ⟨f, hf, hrest, rfl⟩ := readCell_eq_ok hcell
    have hlater : ∃ row₁, readCells n row₁ next = .ok (row', later) ∧ ∀ frames,
        insertCells row₁ (liveCells frames) = insertCells row (liveCells (f :: frames)) := by
      cases hcell? : f.cell? with
      | none =>
        rw [hcell?] at h
        exact ⟨row, h, fun frames => by rw [liveCells, liveCells, List.filterMap_cons_none hcell?]⟩
      | some cell =>
        rw [hcell?] at h
        exact ⟨row.insert cell.1 cell.2, h, fun frames => by
          rw [liveCells, liveCells, List.filterMap_cons_some hcell?]
          rfl⟩
    obtain ⟨row₁, hcells, hrow⟩ := hlater
    obtain ⟨frames, rfl, hfits, hnext, rfl⟩ := ih hcells
    refine ⟨f :: frames, rfl, List.forall_mem_cons.2 ⟨hf, hfits⟩, ?_, hrow frames⟩
    rw [hrest, hnext, List.flatMap_cons, List.append_assoc]

/-! ## Values made of frames -/

/-- A value is read exactly if it is made of frames, as the row of their cells. -/
theorem decode_eq_ok_iff {id : String} {value : Bytes} {row : Row} :
    decode id value = .ok row ↔
      ∃ frames, Framing frames value ∧ row = insertCells (Row.empty id) (liveCells frames) := by
  constructor
  · intro h
    rw [decode] at h
    cases hcount : readLength .cellCount ⟨0, value⟩ with
    | error e =>
      rw [hcount] at h
      cases h
    | ok p =>
      obtain ⟨count, place⟩ := p
      obtain ⟨hvalue, hmax⟩ := readLength_eq_ok hcount
      rw [hcount] at h
      simp only [bind, Except.bind] at h
      cases hcells : readCells count (Row.empty id) place with
      | error e =>
        rw [hcells] at h
        cases h
      | ok p =>
        obtain ⟨row', last⟩ := p
        obtain ⟨frames, rfl, hfits, hplace, rfl⟩ := readCells_eq_ok hcells
        rw [hcells] at h
        simp only at h
        split at h
        · rename_i hend
          cases h
          rw [hplace, hend, List.append_nil] at hvalue
          exact ⟨frames, ⟨hvalue, hmax, hfits⟩, rfl⟩
        · cases h
  · rintro ⟨frames, hframes, rfl⟩
    exact hframes.decode_eq id

/-- Of the cells in one column the last stays. -/
theorem get?_insertCells (id : String) (cells : List (Column × Content)) (column : Column) :
    (insertCells (Row.empty id) cells).cells.get? column = findEntry column cells.reverse := by
  rw [insertCells_empty, SortedMap.get?_ofList]

/-- What is not made of frames is reported as malformed. -/
theorem decode_of_not_framing {value : Bytes} (h : ¬ ∃ frames, Framing frames value)
    (id : String) : ∃ e, decode id value = .error e := by
  cases hread : decode id value with
  | error e => exact ⟨e, rfl⟩
  | ok row =>
    obtain ⟨frames, hframes, -⟩ := decode_eq_ok_iff.1 hread
    exact absurd ⟨frames, hframes⟩ h

/-- No value made of frames is a proper part of the front of another. -/
theorem Framing.eq_nil_of_append {frames frames' : List Frame} {value more : Bytes}
    (h : Framing frames value) (h' : Framing frames' (value ++ more)) : more = [] := by
  have hread := h'.decode_eq ""
  rw [h.decode_append] at hread
  split at hread
  · assumption
  · cases hread

/-! ## Main result -/

/-- A folded row is read exactly from the values made of frames.  It holds the cells of the frames
that are not deleted, put in one after the other.  Every other value is reported as malformed, no
step of the reading leaves the value, and neither a proper part of the front of a value that is read
nor a longer value that begins with it is read. -/
theorem decode_accepts_frames (id : String) (value : Bytes) :
    (∀ row, decode id value = .ok row ↔ ∃ frames, Framing frames value ∧
      row = insertCells (Row.empty id) (liveCells frames) ∧
      ∀ column, row.cells.get? column = findEntry column (liveCells frames).reverse) ∧
    ((¬ ∃ frames, Framing frames value) → ∃ e, decode id value = .error e ∧
      ∀ codec : Codec, codec.decodeFolded id value = .error (.malformedFrame e)) ∧
    decodeAt id value = some (decode id value) ∧
    ∀ frames, Framing frames value → ∀ more, more ≠ [] →
      decode id (value ++ more) = .error (.trailing more.length frames.length) ∧
      ∀ front, value = front ++ more → ∃ e, decode id front = .error e := by
  refine ⟨?_, ?_, decodeAt_eq id value, ?_⟩
  · intro row
    rw [decode_eq_ok_iff]
    constructor
    · rintro ⟨frames, hframes, rfl⟩
      exact ⟨frames, hframes, rfl, get?_insertCells id _⟩
    · rintro ⟨frames, hframes, hrow, -⟩
      exact ⟨frames, hframes, hrow⟩
  · intro h
    obtain ⟨e, he⟩ := decode_of_not_framing h id
    refine ⟨e, he, fun codec => ?_⟩
    rw [Codec.decodeFolded, he]
    rfl
  · intro frames hframes more hmore
    refine ⟨(hframes.decode_append id more).trans (if_neg hmore), ?_⟩
    rintro front rfl
    refine decode_of_not_framing ?_ id
    rintro ⟨frames', hfront⟩
    exact hmore (hfront.eq_nil_of_append hframes)

/-- Of two cells in one column the later one is read, a deleted one between them is not, and a value
that goes on by one byte or ends one byte early is refused. -/
theorem decode_accepts_frames_twice :
    let column : Column := ⟨"f", "q"⟩
    let frames : List Frame := [⟨column, ⟨⟨"a"⟩, [1]⟩, [0, 0, 0, 0, 0, 0, 0, 7], 0⟩,
      ⟨column, ⟨⟨"b"⟩, [2]⟩, [0, 0, 0, 0, 0, 0, 0, 0], 1⟩,
      ⟨column, ⟨⟨"c"⟩, [3]⟩, [0, 0, 0, 0, 0, 0, 0, 0], 0⟩]
    (∃ row, decode "r" (toBytes frames) = .ok row ∧
      row.cells.get? column = some ⟨⟨"c"⟩, [3]⟩) ∧
    decode "r" (toBytes frames ++ [0]) = .error (.trailing 1 3) ∧
    ∃ e, decode "r" (toBytes frames).dropLast = .error e := by
  intro column frames
  have hframes : Framing frames (toBytes frames) := ⟨rfl, by decide, by decide⟩
  obtain ⟨hread, -, -, hother⟩ := decode_accepts_frames "r" (toBytes frames)
  refine ⟨⟨_, (hread _).2 ⟨frames, hframes, rfl, get?_insertCells "r" _⟩, by decide⟩, ?_, ?_⟩
  · exact (hother frames hframes [0] (by decide)).1
  · exact (hother frames hframes [3] (by decide)).2 _ (by decide)

end TaggedRows.FoldedRow
