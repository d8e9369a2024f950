import TaggedRows.Proofs.Dump.Lines

/-!
# Where the writing of cells stops

Lines of records are encoded one by one, and what they give is written at once.  A line has a
**fault** if it is no text, or holds something that is no record, or a record that cannot be encoded
(`Dump.HasFault`); every other line is blank or gives all cells of its record
(`Dump.exists_holds_or_hasFault`).

* Lines without a fault are all written (`Dump.exists_rows_of_faultless`).
* **The first fault is the end.**  What is written then is what the lines before it give, and the
  failure tells of this fault (`Dump.encodeLines_fault`).  As the input can be divided before that
  line, it is what the input up to there gives (`Dump.cellsOfRecords_stops`).
-/

namespace TaggedRows.Dump

open TaggedRows.Text

/-! ## Faults -/

/-- What can be wrong with a line of records. -/
inductive Fault where
  | unreadable
  | noRecord
  | notEncoded (e : TableError)

/-- The failure that tells of the fault of a numbered line. -/
def Fault.failure (number : Nat) : Fault → Failure
  | unreadable => .unreadableInput
  | noRecord => [.text ("Line " ++ natText number ++ ": not a record"), .brokenJson]
  | notEncoded e => e.failure

/-- The line has the fault. -/
inductive HasFault (codec : Codec) (line : Bytes) : Fault → Prop
  | unreadable (h : Utf8.decode? line = none) : HasFault codec line .unreadable
  | noRecord {text : String} (htext : Utf8.decode? line = some text)
    (hblank : isBlank text = false) (h : (Json.read? text).bind Record.ofJson? = none) :
    HasFault codec line .noRecord
  | notEncoded {record : Record} {e : TableError} (hblank : isBlankLine line = false)
    (hvalue : lineValue? Record.ofJson? line = some record) (h : codec.encode record = .error e) :
    HasFault codec line (.notEncoded e)

/-- None of the lines has a fault. -/
def Faultless (codec : Codec) (ls : List Bytes) : Prop :=
  ∀ line ∈ ls, ∀ fault, ¬ HasFault codec line fault

variable {codec : Codec} {line : Bytes} {ls before later : List Bytes} {fault : Fault}

/-! ## One line -/

/-- A line that is not blank holds a record that can be encoded, or has a fault. -/
theorem exists_holds_or_hasFault (codec : Codec) (hblank : isBlankLine line = false) :
    (∃ record cells, lineValue? Record.ofJson? line = some record ∧
      codec.encode record = .ok cells) ∨ ∃ fault, HasFault codec line fault := by
  cases hvalue : lineValue? Record.ofJson? line with
  | some record =>
    cases hencode : codec.encode record with
    | ok cells => exact .inl ⟨record, cells, rfl, hencode⟩
    | error e => exact .inr ⟨_, .notEncoded hblank hvalue hencode⟩
  | none =>
    cases htext : Utf8.decode? line with
    | none => exact .inr ⟨_, .unreadable htext⟩
    | some text =>
      rw [lineValue?, htext] at hvalue
      rw [isBlankLine, htext, Option.any_some] at hblank
      exact .inr ⟨_, .noRecord htext hblank hvalue⟩

theorem HasFault.encodeLine_eq (h : HasFault codec line fault) (number : Nat) :
    encodeLine codec number line = .error (fault.failure number) := by
  cases h with
  | unreadable h =>
    rw [encodeLine, readLine, h]
    rfl
  | noRecord htext hblank h =>
    rw [encodeLine, readLine, htext, String.append_assoc]
    simp only [hblank, h, Bool.false_eq_true, if_false]
    rfl
  | notEncoded hblank hvalue h =>
    rw [encodeLine_record hblank hvalue, h]
    rfl

/-- A line without a fault is passed over, or gives lines of cells. -/
theorem exists_encodeLine_of_not_hasFault (h : ∀ fault, ¬ HasFault codec line fault) :
    ∃ cells, ∀ number, encodeLine codec number line = .ok cells := by
  cases hblank : isBlankLine line with
  | true => exact ⟨none, encodeLine_blank hblank codec⟩
  | false =>
    rcases exists_holds_or_hasFault codec hblank with ⟨record, cells, hvalue, hencode⟩ | ⟨f, hf⟩
    · refine ⟨some (cells.map fun c => c.toJson.text), fun number => ?_⟩
      rw [encodeLine_record hblank hvalue, hencode]
      rfl
    · exact absurd hf (h f)

/-! ## Lines one after the other -/

/-- Lines without a fault hold records, and all of these can be encoded. -/
theorem exists_rows_of_faultless (h : Faultless codec ls) :
    ∃ (records : List Record) (rows : List (List Cell)),
      Holds Record.ofJson? ls records ∧ records.map codec.encode = rows.map .ok := by
  induction ls with
  | nil => exact ⟨[], [], rfl, rfl⟩
  | cons line ls ih =>
    obtain ⟨records, rows, hrecords, hrows⟩ := ih fun l hl => h l (List.mem_cons_of_mem _ hl)
    cases hblank : isBlankLine line with
    | true => exact ⟨records, rows, (holds_cons_blank hblank).2 hrecords, hrows⟩
    | false =>
      rcases exists_holds_or_hasFault codec hblank with ⟨record, cells, hvalue, hencode⟩ | ⟨f, hf⟩
      · refine ⟨record :: records, cells :: rows, hrecords.cons hblank hvalue, ?_⟩
        rw [List.map_cons, List.map_cons, hencode, hrows]
      · exact absurd hf (h line List.mem_cons_self f)

/-- Of lines either none has a fault, or there is a first one. -/
theorem faultless_or_exists_first (codec : Codec) (ls : List Bytes) : Faultless codec ls ∨
    ∃ before line later fault, ls = before ++ line :: later ∧ Faultless codec before ∧
      HasFault codec line fault := by
  induction ls with
  | nil => exact .inl fun line hline => absurd hline List.not_mem_nil
  | cons line ls ih =>
    by_cases hline : ∃ fault, HasFault codec line fault
    · obtain ⟨fault, hfault⟩ := hline
      exact .inr ⟨[], line, ls, fault, rfl, fun l hl => absurd hl List.not_mem_nil, hfault⟩
    · have hcons : ∀ {ls}, Faultless codec ls → Faultless codec (line :: ls) := by
        intro ls hls l hl
        rcases List.mem_cons.1 hl with rfl | hl
        · exact not_exists.1 hline
        · exact hls l hl
      rcases ih with hls | ⟨before, first, later, fault, rfl, hbefore, hfault⟩
      · exact .inl (hcons hls)
      · exact .inr ⟨line :: before, first, later, fault, rfl, hcons hbefore, hfault⟩

/-- A fault behind lines without one ends the writing, and nothing of its line is written. -/
theorem encodeLines_fault (hbefore : Faultless codec before) (hfault : HasFault codec line fault)
    (number : Nat) : encodeLines codec number (before ++ line :: later) =
      ⟨(encodeLines codec number before).lines,
        .error (fault.failure (number + before.length))⟩ := by
  induction before generalizing number with
  | nil =>
    simp only [List.nil_append, encodeLines, hfault.encodeLine_eq, List.length_nil, Nat.add_zero]
  | cons first before ih =>
    obtain ⟨cells, hcells⟩ := exists_encodeLine_of_not_hasFault
      (hbefore first List.mem_cons_self)
    have hrest := ih (fun l hl => hbefore l (List.mem_cons_of_mem _ hl)) (number + 1)
    rw [Nat.add_assoc, Nat.add_comm 1] at hrest
    rw [List.cons_append, encodeLines, encodeLines, hcells, hrest]
    cases cells <;> rfl

/-! ## Main result -/

/-- Input without a fault is written as the rows of its records. -/
theorem cellsOfRecords_of_faultless {input : Bytes} (h : Faultless codec (lines input)) :
    ∃ (records : List Record) (rows : List (List Cell)),
      Holds Record.ofJson? (lines input) records ∧ records.map codec.encode = rows.map .ok ∧
      cellsOfRecords codec input =
        ⟨rows.flatten.map fun c => c.toJson.text, .ok records.length⟩ := by
  obtain ⟨records, rows, hrecords, hrows⟩ := exists_rows_of_faultless h
  exact ⟨records, rows, hrecords, hrows, encodeLines_of_holds hrecords hrows 1⟩

/-- Cells are written row by row, up to the first fault.  Without a fault all lines are written: the
rows that encoding gives of the records, one from each line that is not blank, cell by cell and in
their order.  Otherwise the input can be divided before the first line with a fault.  The failure
tells of that fault, and what is written is what the input up to there gives, which has no fault. -/
theorem cellsOfRecords_stops (codec : Codec) (input : Bytes) :
    let out := cellsOfRecords codec input
    ((∃ n, out.outcome = .ok n) ↔ Faultless codec (lines input)) ∧
    (∀ n, out.outcome = .ok n → ∃ (records : List Record) (rows : List (List Cell)),
      Holds Record.ofJson? (lines input) records ∧ records.length = n ∧
        records.map codec.encode = rows.map .ok ∧
        out.lines = rows.flatten.map fun c => c.toJson.text) ∧
    ∀ e, out.outcome = .error e → ∃ head tail line later fault n, input = head ++ tail ∧
      lines tail = line :: later ∧ lines input = lines head ++ line :: later ∧
      Faultless codec (lines head) ∧ HasFault codec line fault ∧
      e = fault.failure ((lines head).length + 1) ∧
      cellsOfRecords codec head = ⟨out.lines, .ok n⟩ := by
  intro out
  rcases faultless_or_exists_first codec (lines input) with
    hall | ⟨before, line, later, fault, hlines, hbefore, hfault⟩
  · obtain ⟨records, rows, hrecords, hrows, hout⟩ := cellsOfRecords_of_faultless hall
    have houtcome : out.outcome = .ok records.length := congrArg Output.outcome hout
    refine ⟨⟨fun _ => hall, fun _ => ⟨_, houtcome⟩⟩, ?_, ?_⟩
    · intro n hn
      rw [houtcome] at hn
      cases hn
      exact ⟨records, rows, hrecords, rfl, hrows, congrArg Output.lines hout⟩
    · intro e he
      rw [houtcome] at he
      cases he
  · obtain ⟨head, tail, rfl, rfl, htail⟩ := exists_lines_append hlines
    have hout : out = ⟨(cellsOfRecords codec head).lines,
        .error (fault.failure (1 + (lines head).length))⟩ := by
      have hstop : encodeLines codec 1 (lines head ++ line :: later) = _ :=
        encodeLines_fault hbefore hfault 1
      rwa [← hlines] at hstop
    refine ⟨⟨?_, ?_⟩, ?_, ?_⟩
    · rintro ⟨n, hn⟩
      rw [hout] at hn
      cases hn
    · intro hall
      have hmem : line ∈ lines (head ++ tail) := by
        rw [hlines]
        exact List.mem_append_right _ List.mem_cons_self
      exact absurd hfault (hall line hmem fault)
    · intro n hn
      rw [hout] at hn
      cases hn
    · intro e he
      obtain ⟨records, rows, -, -, hhead⟩ := cellsOfRecords_of_faultless hbefore
      rw [hout] at he
      cases he
      refine ⟨head, tail, line, later, fault, records.length, rfl, htail, hlines, hbefore, hfault,
        by rw [Nat.add_comm], ?_⟩
      rw [hout, hhead]

/-- An entity, a blank line, an entity without an id, and a line that is no record. -/
def namelessDump : Bytes := Utf8.encode "[\"entity\",\"a\"]\n\n[\"entity\",null]\n["

/-- The entity without an id ends the writing.  One cell is written by then, as for the input before
that entity. -/
theorem cellsOfRecords_stops_nameless :
    (cellsOfRecords (.standard default) namelessDump).outcome =
        .error [.text "invalid record: entity id cannot be empty"] ∧
      (cellsOfRecords (.standard default) namelessDump).lines.length = 1 ∧
      ∃ head tail n, namelessDump = head ++ tail ∧ cellsOfRecords (.standard default) head =
        ⟨(cellsOfRecords (.standard default) namelessDump).lines, .ok n⟩ := by
  have houtcome : (cellsOfRecords (.standard default) namelessDump).outcome =
      .error [.text "invalid record: entity id cannot be empty"] := by decide +kernel
  obtain ⟨-, -, hstops⟩ := cellsOfRecords_stops (.standard default) namelessDump
  obtain ⟨head, tail, -, -, -, n, hinput, -, -, -, -, -, hhead⟩ := hstops _ houtcome
  exact ⟨houtcome, by decide +kernel, head, tail, n, hinput, hhead⟩

end TaggedRows.Dump
