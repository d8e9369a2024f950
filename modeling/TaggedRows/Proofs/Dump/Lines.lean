import TaggedRows.Dump
import TaggedRows.Proofs.Schema.Cell
import TaggedRows.Proofs.Schema.Record
import TaggedRows.Proofs.Text.Lines

/-!
# Values on lines

What reading the lines of a dump comes down to.  A line is blank, spells a value or neither
(`Dump.isBlankLine`, `Dump.lineValue?`), and the number of a line shows up in messages only.

Lines whose values are known (`Dump.Holds`) are read as these values: `Dump.readCells_of_holds` for
lines of cells, `Dump.encodeLines_of_holds` for lines of records.  A line that is neither blank nor
a cell ends the reading of cells with an error (`Dump.exists_readCells_error`).

Text that was written line by line is read as it was written (`Dump.holds_unlines`), with any blank
lines between.
-/

namespace TaggedRows

open TaggedRows.Text

namespace Dump

/-! ## Lines -/

/-- Whether a line is text without anything but white space. -/
def isBlankLine (line : Bytes) : Bool := (Utf8.decode? line).any isBlank

/-- The value that a line spells as JSON. -/
def lineValue? (value? : Json → Option α) (line : Bytes) : Option α := do
  (Json.read? (← Utf8.decode? line)).bind value?

/-- The lines that are not blank. -/
def writtenLines (ls : List Bytes) : List Bytes := ls.filter fun line => !isBlankLine line

/-- The lines that are not blank spell the values, one each and in their order. -/
def Holds (value? : Json → Option α) (ls : List Bytes) (values : List α) : Prop :=
  (writtenLines ls).map (lineValue? value?) = values.map some

section Reading

variable {α : Type} {what : String} {value? : Json → Option α} {number : Nat} {line : Bytes}
  {ls : List Bytes}

theorem readLine_blank (h : isBlankLine line = true) :
    readLine what value? number line = .ok none := by
  rw [isBlankLine, Option.any_eq_true] at h
  obtain ⟨text, htext, hblank⟩ := h
  rw [readLine, htext]
  exact if_pos hblank

theorem readLine_value {a : α} (hblank : isBlankLine line = false)
    (h : lineValue? value? line = some a) : readLine what value? number line = .ok (some a) := by
  obtain ⟨text, htext, hvalue⟩ := Option.bind_eq_some_iff.1 h
  rw [isBlankLine, htext, Option.any_some] at hblank
  rw [readLine, htext]
  simp only [hblank, hvalue, Bool.false_eq_true, if_false]

theorem exists_readLine_error (hblank : isBlankLine line = false)
    (h : lineValue? value? line = none) : ∃ e, readLine what value? number line = .error e := by
  rw [readLine]
  cases htext : Utf8.decode? line with
  | none => exact ⟨_, rfl⟩
  | some text =>
    have hvalue : (Json.read? text).bind value? = none := by
      rw [lineValue?, htext] at h
      exact h
    rw [isBlankLine, htext, Option.any_some] at hblank
    simp only [hblank, hvalue, Bool.false_eq_true, if_false]
    exact ⟨_, rfl⟩

theorem holds_cons_blank {values : List α} (hblank : isBlankLine line = true) :
    Holds value? (line :: ls) values ↔ Holds value? ls values := by
  rw [Holds, Holds, writtenLines, List.filter_cons_of_neg (by simp [hblank])]
  rfl

theorem Holds.cons_inv {values : List α} (h : Holds value? (line :: ls) values)
    (hblank : isBlankLine line = false) : ∃ a rest, values = a :: rest ∧
      lineValue? value? line = some a ∧ Holds value? ls rest := by
  rw [Holds, writtenLines, List.filter_cons_of_pos (by simp [hblank]), List.map_cons] at h
  cases values with
  | nil => cases h
  | cons a rest =>
    obtain ⟨hvalue, hrest⟩ := List.cons.inj h
    exact ⟨a, rest, rfl, hvalue, hrest⟩

theorem Holds.cons {a : α} {values : List α} (hblank : isBlankLine line = false)
    (hvalue : lineValue? value? line = some a) (h : Holds value? ls values) :
    Holds value? (line :: ls) (a :: values) := by
  rw [Holds, writtenLines, List.filter_cons_of_pos (by simp [hblank]), List.map_cons, List.map_cons,
    hvalue]
  exact congrArg _ h

theorem Holds.nil_inv {values : List α} (h : Holds value? [] values) : values = [] :=
  List.map_eq_nil_iff.1 h.symm

end Reading

/-! ## Written lines -/

theorem isBlank_of_prefix {s t : String} (h : t.toList <+: s.toList) (hs : isBlank s = true) :
    isBlank t = true := by
  rw [isBlank, List.all_eq_true] at hs ⊢
  exact fun c hc => hs c (h.mem hc)

theorem isBlankLine_encode (s : String) : isBlankLine (Utf8.encode s) = isBlank s := by
  rw [isBlankLine, Utf8.decode?_encode, Option.any_some]

/-- Blank lines aside, what was written line by line is cut into these lines again. -/
theorem writtenLines_unlines {dump : List String} (hfeed : ∀ l ∈ dump, '\n' ∉ l.toList)
    (hreturn : ∀ l ∈ dump, isBlank l = false → '\r' ∉ l.toList) :
    writtenLines (lines (unlines dump)) =
      (dump.filter fun l => !isBlank l).map Utf8.encode := by
  rw [lines_unlines hfeed, writtenLines, List.filter_map]
  have hkeep : ∀ l ∈ dump, isBlank l = false → dropReturn (Utf8.encode l) = Utf8.encode l := by
    intro l hl hblank
    exact dropReturn_of_not_mem fun hmem =>
      hreturn l hl hblank (Utf8.mem_of_mem_encode hmem (by decide))
  have hfilter : dump.filter ((fun line => !isBlankLine line) ∘ fun l =>
      dropReturn (Utf8.encode l)) = dump.filter fun l => !isBlank l := by
    apply List.filter_congr
    intro l hl
    cases hblank : isBlank l with
    | true =>
      obtain ⟨t, ht, heq⟩ := exists_dropReturn_encode l
      simp [heq, isBlankLine_encode, isBlank_of_prefix ht hblank]
    | false => simp [hkeep l hl hblank, isBlankLine_encode, hblank]
  rw [hfilter]
  refine List.map_congr_left fun l hl => ?_
  obtain ⟨hmem, hblank⟩ := List.mem_filter.1 hl
  exact hkeep l hmem (by simpa using hblank)

/-- A line of text spells the value, and is one line of a dump, not blank and with all of it
kept. -/
structure Spells {α : Type} (value? : Json → Option α) (line : String) (a : α) : Prop where
  value : (Json.read? line).bind value? = some a
  not_blank : isBlank line = false
  not_mem_feed : '\n' ∉ line.toList
  not_mem_return : '\r' ∉ line.toList

/-- Lines that spell the values are read as the values, whatever blank lines stand between. -/
theorem holds_unlines {α : Type} {value? : Json → Option α} (print : α → String)
    {dump : List String} {values : List α} (hspells : ∀ a ∈ values, Spells value? (print a) a)
    (hdump : (dump.filter fun l => !isBlank l) = values.map print)
    (hfeed : ∀ l ∈ dump, '\n' ∉ l.toList) :
    Holds value? (lines (unlines dump)) values := by
  have hreturn : ∀ l ∈ dump, isBlank l = false → '\r' ∉ l.toList := by
    intro l hl hblank
    have hmem : l ∈ dump.filter fun l => !isBlank l := List.mem_filter.2 ⟨hl, by simp [hblank]⟩
    rw [hdump] at hmem
    obtain ⟨a, ha, rfl⟩ := List.mem_map.1 hmem
    exact (hspells a ha).not_mem_return
  rw [Holds, writtenLines_unlines hfeed hreturn, hdump, List.map_map, List.map_map]
  refine List.map_congr_left fun a ha => ?_
  rw [Function.comp_apply, Function.comp_apply, lineValue?, Utf8.decode?_encode]
  exact (hspells a ha).value

theorem holds_unlines_map {α : Type} {value? : Json → Option α} (print : α → String)
    {values : List α} (hspells : ∀ a ∈ values, Spells value? (print a) a) :
    Holds value? (lines (unlines (values.map print))) values := by
  refine holds_unlines print hspells ?_ ?_
  · refine List.filter_eq_self.2 fun l hl => ?_
    obtain ⟨a, ha, rfl⟩ := List.mem_map.1 hl
    simp [(hspells a ha).not_blank]
  · intro l hl
    obtain ⟨a, ha, rfl⟩ := List.mem_map.1 hl
    exact (hspells a ha).not_mem_feed

end Dump

/-! ## Lines of JSON -/

namespace Json

theorem not_mem_text {j : Json} (h : j.allLeaves Numeral.isWritten = true) {c : Char}
    (hc : c.toNat < 0x20) : c ∉ j.text.toList := fun hmem =>
  absurd (le_toNat_of_mem_text h hmem) (by omega)

theorem isBlank_text_ofMembers (members : List (String × Json)) :
    isBlank (ofMembers members).text = false := by
  have hbrace : isBlankChar '\x7b' = false := by decide
  rw [isBlank, text, String.toList_ofList]
  cases members with
  | nil => rfl
  | cons m members => simp [ofMembers, chars, hbrace]

end Json

/-- The text of a cell's JSON is a line that spells the cell. -/
theorem Cell.spells_text (c : Cell) : Dump.Spells Cell.ofJson? c.toJson.text c where
  value := c.read?_text_toJson
  not_blank := Json.isBlank_text_ofMembers _
  not_mem_feed := Json.not_mem_text c.allLeaves_toJson (by decide)
  not_mem_return := Json.not_mem_text c.allLeaves_toJson (by decide)

/-- The text of a record's JSON is a line that spells the record. -/
theorem Record.spells_text {record : Record} (h : record.HasWholeMillis) :
    Dump.Spells Record.ofJson? record.toJson.text record where
  value := Record.read?_text_toJson h
  not_blank := by
    rw [record.toJson_eq]
    exact Json.isBlank_text_ofMembers _
  not_mem_feed := Json.not_mem_text record.allLeaves_toJson (by decide)
  not_mem_return := Json.not_mem_text record.allLeaves_toJson (by decide)

namespace Dump

/-! ## Lines of cells -/

variable {ls : List Bytes}

theorem readCells_of_holds {cells : List Cell} (h : Holds Cell.ofJson? ls cells) (number : Nat) :
    readCells number ls = .ok cells := by
  induction ls generalizing cells number with
  | nil =>
    rw [h.nil_inv]
    rfl
  | cons line ls ih =>
    cases hblank : isBlankLine line with
    | true =>
      rw [readCells, readLine_blank hblank, ih ((holds_cons_blank hblank).1 h)]
      rfl
    | false =>
      obtain ⟨c, rest, rfl, hvalue, hrest⟩ := h.cons_inv hblank
      rw [readCells, readLine_value hblank hvalue, ih hrest]
      rfl

theorem exists_readCells_error {line : Bytes} (hmem : line ∈ ls)
    (hblank : isBlankLine line = false) (hvalue : lineValue? Cell.ofJson? line = none)
    (number : Nat) : ∃ e, readCells number ls = .error e := by
  induction ls generalizing number with
  | nil => cases hmem
  | cons first ls ih =>
    cases hfirst : readLine "cell" Cell.ofJson? number first with
    | error e =>
      rw [readCells, hfirst]
      exact ⟨e, rfl⟩
    | ok cell =>
      have hrest : line ∈ ls := by
        rcases List.mem_cons.1 hmem with rfl | hrest
        · obtain ⟨e, herror⟩ := exists_readLine_error hblank hvalue
          rw [herror] at hfirst
          cases hfirst
        · exact hrest
      obtain ⟨e, herror⟩ := ih hrest (number + 1)
      rw [readCells, hfirst, herror]
      exact ⟨e, rfl⟩

theorem recordsOfCells_of_holds {input : Bytes} {cells : List Cell}
    (h : Holds Cell.ofJson? (lines input) cells) (codec : Codec) (skip : Bool) :
    recordsOfCells codec skip input = decodeList codec skip cells := by
  rw [recordsOfCells, readCells_of_holds h]

/-! ## Lines of records -/

theorem encodeLine_blank {line : Bytes} (h : isBlankLine line = true) (codec : Codec)
    (number : Nat) : encodeLine codec number line = .ok none := by
  rw [encodeLine, readLine_blank h]
  rfl

/-- A line that holds a record gives what encoding the record gives. -/
theorem encodeLine_record {line : Bytes} {record : Record} (hblank : isBlankLine line = false)
    (hvalue : lineValue? Record.ofJson? line = some record) (codec : Codec) (number : Nat) :
    encodeLine codec number line = ((codec.encode record).mapError TableError.failure).map
      fun cells => some (cells.map fun c => c.toJson.text) := by
  rw [encodeLine, readLine_value hblank hvalue]
  simp only [bind, Except.bind]
  cases codec.encode record <;> rfl

/-- Lines of records that encode are written as the lines of their cells. -/
theorem encodeLines_of_holds {codec : Codec} {records : List Record} {rows : List (List Cell)}
    (h : Holds Record.ofJson? ls records) (hencode : records.map codec.encode = rows.map .ok)
    (number : Nat) : encodeLines codec number ls =
      ⟨rows.flatten.map fun c => c.toJson.text, .ok records.length⟩ := by
  induction ls generalizing records rows number with
  | nil =>
    obtain rfl := h.nil_inv
    obtain rfl := List.map_eq_nil_iff.1 hencode.symm
    rfl
  | cons line ls ih =>
    cases hblank : isBlankLine line with
    | true =>
      rw [encodeLines, encodeLine_blank hblank]
      exact ih ((holds_cons_blank hblank).1 h) hencode (number + 1)
    | false =>
      obtain ⟨record, rest, rfl, hvalue, hrest⟩ := h.cons_inv hblank
      cases rows with
      | nil => cases hencode
      | cons cells rows =>
        rw [List.map_cons, List.map_cons, List.cons.injEq] at hencode
        have hline : encodeLine codec number line =
            .ok (some (cells.map fun c => c.toJson.text)) := by
          rw [encodeLine_record hblank hvalue, hencode.1]
          rfl
        rw [encodeLines, hline]
        simp only [ih hrest hencode.2 (number + 1), Output.after]
        simp [Except.map]

/-- The lines of records that were read without an error. -/
theorem recordLines_map_ok (records : List Record) :
    recordLines (records.map .ok) = ⟨records.map fun r => r.toJson.text, .ok records.length⟩ := by
  induction records with
  | nil => rfl
  | cons record records ih =>
    rw [List.map_cons, recordLines, ih]
    rfl

end Dump

end TaggedRows
