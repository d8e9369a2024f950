import TaggedRows.Proofs.Stream.Cursor
import TaggedRows.Stream.Records

/-!
# Reading records run by run

What a reading yields, said without a cursor: the cells before the first error of the stream fall
into runs, and each run is a record, an error or passed over (`Codec.itemsOfRuns`).

The **step** is one run: a recognized run is read (`nextRecord_recognized`), an unrecognized one is
passed over (`nextRecord_skip`) or left where it is (`nextRecord_stop`).  The whole reading follows
by induction along the runs of the stream (`readAll_reader`, `next_after`, `drain_after_stop`).
-/

namespace TaggedRows

open Cursor

namespace Codec

variable {codec : Codec} {skip : Bool}

/-! ## One run -/

/-- Whether the first cell of the run names a kind. -/
def recognizes (codec : Codec) (run : Run) : Bool := (codec.recognize run.first).isOk

theorem isUnrecognized_of_recognize {first : Cell} {e : TableError}
    (h : codec.recognize first = .error e) : e.isUnrecognized = true := by
  rw [recognize] at h
  split at h
  · rw [kindOfTag] at h
    split at h
    · cases h
    · cases h
      rfl
  · cases h
    rfl

/-- A reading sees no difference between a held cell and one at the head of the stream. -/
theorem nextRecord_eq_pending (codec : Codec) (skip : Bool) (c : Cursor) :
    codec.nextRecord skip c = codec.nextRecord skip { rest := c.pending } := by
  have hpeek := c.peek_eq
  unfold nextRecord
  generalize c.peek = looked at hpeek ⊢
  subst hpeek
  rfl

theorem nextRecord_nil : codec.nextRecord skip { rest := [] } = (.ok none, { rest := [] }) := by
  unfold nextRecord
  rfl

theorem nextRecord_error (e : TableError) (rest : CellStream) :
    codec.nextRecord skip { rest := .error e :: rest } = (.error e, { rest }) := by
  unfold nextRecord
  rfl

theorem peek_run (run : Run) (rest : CellStream) :
    peek { rest := run.stream ++ rest } =
      (.ok (some run.first), ⟨(run.others.map .ok : CellStream) ++ rest, some run.first⟩) := rfl

/-- A recognized run is taken whole and decoded; an error behind it comes in its place. -/
theorem nextRecord_recognized {run : Run} (h : codec.recognizes run = true) (skip : Bool)
    (rest : CellStream) :
    codec.nextRecord skip { rest := run.stream ++ rest } =
      ((takeRow run.row rest).1.bind fun row => (codec.decode row).map some,
        (takeRow run.row rest).2) := by
  unfold nextRecord
  rw [peek_run]
  simp only
  cases hr : codec.recognize run.first with
  | error e => simp [recognizes, hr, Except.toBool] at h
  | ok kind =>
    simp only [nextRow_run]
    cases takeRow run.row rest with
    | mk r c => cases r <;> rfl

/-- An unrecognized run stops a strict reading, which keeps all its cells. -/
theorem nextRecord_stop {run : Run} (h : codec.recognizes run = false) (rest : CellStream) :
    codec.nextRecord false { rest := run.stream ++ rest } =
      (.ok none, ⟨(run.others.map .ok : CellStream) ++ rest, some run.first⟩) := by
  unfold nextRecord
  rw [peek_run]
  simp only
  cases hr : codec.recognize run.first with
  | ok kind => simp [recognizes, hr, Except.toBool] at h
  | error e => simp [isUnrecognized_of_recognize hr]

/-- An unrecognized run is passed over: the reading goes on as if it were not there. -/
theorem nextRecord_skip {run : Run} {rest : CellStream} (h : codec.recognizes run = false)
    (hend : run.EndsBefore rest) :
    codec.nextRecord true { rest := run.stream ++ rest } = codec.nextRecord true { rest } := by
  rw [nextRecord, peek_run]
  simp only
  cases hr : codec.recognize run.first with
  | ok kind => simp [recognizes, hr, Except.toBool] at h
  | error e =>
    simp only [isUnrecognized_of_recognize hr, nextRow_run, not_true_eq_false, if_false]
    by_cases hfails : rest.Fails
    · obtain ⟨e', later, rfl⟩ := hfails
      rw [nextRecord_error]
      rfl
    · obtain ⟨hrow, hpending⟩ := takeRow_run hend hfails
      rw [hrow]
      exact (nextRecord_eq_pending codec true _).trans (by rw [hpending])

/-! ## The items of runs -/

/-- The error that directly follows a run: only the last of the runs can have one. -/
def errorBehind (storeError? : Option TableError) (later : List Run) : Option TableError :=
  if later.isEmpty then storeError? else none

theorem errorBehind_none (later : List Run) : errorBehind none later = none := by
  rw [errorBehind]
  split <;> rfl

/-- What a reading yields for runs, where an error of the store may follow the last of them.  A
recognized run yields what its row decodes to, or the error that directly follows it; an
unrecognized one is passed over or ends the reading. -/
def itemsOfRuns (codec : Codec) (skip : Bool) (storeError? : Option TableError) :
    List Run → List (Except TableError Record)
  | [] => (storeError?.map .error).toList
  | run :: later =>
    if codec.recognizes run then
      match errorBehind storeError? later, codec.decode run.row with
      | some e, _ => [.error e]
      | none, .error e => [.error e]
      | none, .ok record => .ok record :: itemsOfRuns codec skip storeError? later
    else if skip then itemsOfRuns codec skip storeError? later
    else []

/-- What a reading of a stream yields, run by run. -/
def itemsOf (codec : Codec) (skip : Bool) (s : CellStream) : List (Except TableError Record) :=
  codec.itemsOfRuns skip s.firstError? (runs s.cells)

theorem errorBehind_of_not_fails {s : CellStream} (h : ¬ s.Fails) :
    errorBehind s.firstError? (runs s.cells) = none := by
  cases s with
  | nil => rfl
  | cons item rest =>
    cases item with
    | error e => exact absurd ⟨e, rest, rfl⟩ h
    | ok cell =>
      obtain ⟨head, tail, hruns, -⟩ := id_head_runs cell (CellStream.cells rest)
      have hcells : CellStream.cells (.ok cell :: rest) = cell :: CellStream.cells rest := rfl
      rw [hcells, hruns]
      rfl

variable {run : Run} {rest : CellStream}

theorem itemsOf_cut (h : codec.recognizes run = true) (e : TableError) (rest : CellStream) :
    codec.itemsOf skip (run.stream ++ .error e :: rest) = [.error e] := by
  have hend : run.EndsBefore (.error e :: rest) := by
    intro cell later heq
    cases heq
  rw [itemsOf, Run.runs_stream_append hend, Run.firstError?_stream_append, itemsOfRuns, if_pos h]
  rfl

theorem itemsOf_decoded (h : codec.recognizes run = true) (hend : run.EndsBefore rest)
    (hrest : ¬ rest.Fails) {record : Record} (hd : codec.decode run.row = .ok record) :
    codec.itemsOf skip (run.stream ++ rest) = .ok record :: codec.itemsOf skip rest := by
  rw [itemsOf, Run.runs_stream_append hend, Run.firstError?_stream_append, itemsOfRuns, if_pos h,
    errorBehind_of_not_fails hrest, hd]
  rfl

theorem itemsOf_failed (h : codec.recognizes run = true) (hend : run.EndsBefore rest)
    (hrest : ¬ rest.Fails) {e : TableError} (hd : codec.decode run.row = .error e) :
    codec.itemsOf skip (run.stream ++ rest) = [.error e] := by
  rw [itemsOf, Run.runs_stream_append hend, Run.firstError?_stream_append, itemsOfRuns, if_pos h,
    errorBehind_of_not_fails hrest, hd]

theorem itemsOf_unrecognized (h : codec.recognizes run = false) (hend : run.EndsBefore rest) :
    codec.itemsOf skip (run.stream ++ rest) = if skip then codec.itemsOf skip rest else [] := by
  rw [itemsOf, Run.runs_stream_append hend, Run.firstError?_stream_append, itemsOfRuns,
    if_neg (by simp [h])]
  rfl

end Codec

namespace RecordStream

variable {codec : Codec} {skip : Bool}

/-! ## Calls one after the other -/

/-- The stream of records after a number of calls of `next`. -/
def after : Nat → RecordStream → RecordStream
  | 0, r => r
  | n + 1, r => after n r.next.2

/-- The records of a stream of cells, none of them read so far. -/
def reader (codec : Codec) (skip : Bool) (s : CellStream) : RecordStream :=
  { codec, skip, cursor := { rest := s } }

theorem readAll_of_none {r t : RecordStream} (h : r.next = (none, t)) : r.readAll = ([], t) := by
  unfold readAll
  split
  · rw [h]
  · rename_i hsome
    rw [h] at hsome
    cases hsome

theorem readAll_of_some {r t : RecordStream} {item : Except TableError Record}
    (h : r.next = (some item, t)) : r.readAll = (item :: t.readAll.1, t.readAll.2) := by
  conv => lhs; unfold readAll
  split
  · rename_i hnone
    rw [h] at hnone
    cases hnone
  · rename_i hsome
    rw [h] at hsome
    cases hsome
    rw [h]

theorem readAll_congr {r t : RecordStream} (h : r.next = t.next) : r.readAll = t.readAll := by
  rcases ht : t.next with ⟨_ | item, u⟩
  · rw [readAll_of_none (h.trans ht), readAll_of_none ht]
  · rw [readAll_of_some (h.trans ht), readAll_of_some ht]

theorem next_of_failed {r : RecordStream} (h : r.failed = true) : r.next = (none, r) := by
  rw [next, if_pos h]

theorem next_eq_reader (c : Cursor) :
    next ⟨codec, skip, c, false⟩ = next (reader codec skip c.pending) := by
  simp only [next, reader, Codec.nextRecord_eq_pending codec skip c]
  rfl

theorem next_of_record {s : CellStream} {record : Record} {c : Cursor}
    (h : codec.nextRecord skip { rest := s } = (.ok (some record), c)) :
    next (reader codec skip s) = (some (.ok record), ⟨codec, skip, c, false⟩) := by
  simp [next, reader, h]

theorem next_of_end {s : CellStream} {c : Cursor}
    (h : codec.nextRecord skip { rest := s } = (.ok none, c)) :
    next (reader codec skip s) = (none, ⟨codec, skip, c, false⟩) := by
  simp [next, reader, h]

theorem next_of_error {s : CellStream} {e : TableError} {c : Cursor}
    (h : codec.nextRecord skip { rest := s } = (.error e, c)) :
    next (reader codec skip s) = (some (.error e), ⟨codec, skip, c, true⟩) := by
  simp [next, reader, h]

theorem readAll_eq_reader (c : Cursor) :
    readAll ⟨codec, skip, c, false⟩ = readAll (reader codec skip c.pending) :=
  readAll_congr (next_eq_reader c)

/-- Reading yields the items of the runs. -/
theorem readAll_reader (codec : Codec) (skip : Bool) (s : CellStream) :
    (reader codec skip s).readAll.1 = codec.itemsOf skip s := by
  induction s using CellStream.inductionOnRuns with
  | nil => rw [readAll_of_none (next_of_end Codec.nextRecord_nil)]; rfl
  | error e rest =>
    rw [readAll_of_some (next_of_error (Codec.nextRecord_error e rest)),
      readAll_of_none (next_of_failed rfl)]
    rfl
  | run run rest hend ih =>
    cases hrec : codec.recognizes run with
    | false =>
      rw [Codec.itemsOf_unrecognized hrec hend]
      cases skip with
      | false => rw [readAll_of_none (next_of_end (Codec.nextRecord_stop hrec rest))]; rfl
      | true =>
        have hnext : next (reader codec true (run.stream ++ rest)) =
            next (reader codec true rest) := by
          simp only [next, reader, Codec.nextRecord_skip hrec hend]
          rfl
        rw [readAll_congr hnext, ih]
        rfl
    | true =>
      have hread := Codec.nextRecord_recognized hrec skip rest
      -- the run is complete only if the next cell could be looked at
      by_cases hfails : rest.Fails
      · obtain ⟨e, later, rfl⟩ := hfails
        rw [Codec.itemsOf_cut hrec, readAll_of_some (next_of_error hread),
          readAll_of_none (next_of_failed rfl)]
      · obtain ⟨hrow, hpending⟩ := takeRow_run hend hfails
        rw [hrow] at hread
        cases hd : codec.decode run.row with
        | error e =>
          rw [Except.bind, hd] at hread
          rw [Codec.itemsOf_failed hrec hend hfails hd, readAll_of_some (next_of_error hread),
            readAll_of_none (next_of_failed rfl)]
        | ok record =>
          rw [Except.bind, hd] at hread
          rw [Codec.itemsOf_decoded hrec hend hfails hd, readAll_of_some (next_of_record hread),
            readAll_eq_reader, hpending, ih]

/-- Cells without an error among them are read run by run. -/
theorem records_of_cells (codec : Codec) (skip : Bool) (cells : List Cell) :
    codec.records skip (cells.map .ok) = codec.itemsOfRuns skip none (runs cells) := by
  have hrecords : codec.records skip (cells.map .ok) =
      codec.itemsOf skip (cells.map .ok) := readAll_reader codec skip _
  rw [hrecords, Codec.itemsOf, CellStream.firstError?_map_ok, CellStream.cells_map_ok]

/-! ## After the end -/

theorem nextRecord_again {s : CellStream} {c : Cursor}
    (h : codec.nextRecord skip { rest := s } = (.ok none, c)) :
    codec.nextRecord skip c = (.ok none, c) := by
  induction s using CellStream.inductionOnRuns with
  | nil =>
    rw [Codec.nextRecord_nil] at h
    cases h
    exact Codec.nextRecord_nil
  | error e rest =>
    rw [Codec.nextRecord_error] at h
    cases h
  | run run rest hend ih =>
    cases hrec : codec.recognizes run with
    | true =>
      rw [Codec.nextRecord_recognized hrec] at h
      cases htake : (takeRow run.row rest).1 with
      | error e => simp [htake, Except.bind] at h
      | ok row => cases hd : codec.decode row <;> simp [htake, Except.bind, hd, Except.map] at h
    | false =>
      cases skip with
      | true =>
        rw [Codec.nextRecord_skip hrec hend] at h
        exact ih h
      | false =>
        rw [Codec.nextRecord_stop hrec] at h
        cases h
        rw [Codec.nextRecord_eq_pending]
        exact Codec.nextRecord_stop hrec rest

/-- Once there is no record, every further call says so again and changes nothing. -/
theorem next_again {r t : RecordStream} (h : r.next = (none, t)) : t.next = (none, t) := by
  obtain ⟨codec, skip, c, failed⟩ := r
  cases failed with
  | true =>
    rw [next_of_failed rfl] at h
    cases h
    exact next_of_failed rfl
  | false =>
    rw [next_eq_reader] at h
    rcases hread : codec.nextRecord skip { rest := c.pending } with ⟨e | _ | record, d⟩
    · rw [next_of_error hread] at h
      cases h
    · rw [next_of_end hread] at h
      cases h
      have hagain := nextRecord_again hread
      rw [Codec.nextRecord_eq_pending] at hagain
      rw [next_eq_reader, next_of_end hagain]
    · rw [next_of_record hread] at h
      cases h

theorem after_again {t : RecordStream} (h : t.next = (none, t)) (n : Nat) : after n t = t := by
  induction n with
  | zero => rfl
  | succ n ih => rw [after, h, ih]

/-- The calls of `next` answer with the items of the reading, and then with none. -/
theorem next_after (n : Nat) (r : RecordStream) : (after n r).next.1 = r.readAll.1[n]? := by
  induction n generalizing r with
  | zero =>
    rcases hr : r.next with ⟨_ | item, t⟩
    · rw [after, readAll_of_none hr, hr]
      rfl
    · rw [after, readAll_of_some hr, hr]
      rfl
  | succ n ih =>
    rcases hr : r.next with ⟨_ | item, t⟩
    · rw [after, hr, ih, readAll_of_none hr, readAll_of_none (next_again hr)]
      rfl
    · rw [after, hr, ih, readAll_of_some hr]
      rfl

/-- The runs before an unrecognized one read, a strict reading stands before that run for good. -/
theorem drain_after_stop {s : CellStream} {before later : List Run} {run : Run}
    (hruns : runs s.cells = before ++ run :: later)
    (hbefore : ∀ b ∈ before, codec.recognizes b = true ∧
      ∃ record, codec.decode b.row = .ok record)
    (hrun : codec.recognizes run = false) :
    ∃ rest, s = before.flatMap Run.stream ++ (run.stream ++ rest) ∧
      ∀ c : Cursor, c.pending = s → ∀ n, before.length ≤ n →
        (after n ⟨codec, false, c, false⟩).cursor.drain = run.stream ++ rest := by
  induction before generalizing s with
  | nil =>
    obtain ⟨rest, rfl, -, -⟩ := CellStream.exists_rest_of_runs hruns
    refine ⟨rest, rfl, ?_⟩
    intro c hc n _
    have hstop : next ⟨codec, false, c, false⟩ = (none, ⟨codec, false,
        ⟨(run.others.map .ok : CellStream) ++ rest, some run.first⟩, false⟩) := by
      rw [next_eq_reader, hc]
      exact next_of_end (Codec.nextRecord_stop hrun rest)
    cases n with
    | zero => rw [after, drain_eq_pending, hc]
    | succ n =>
      rw [after, hstop, after_again (next_again hstop), drain_eq_pending]
      rfl
  | cons b before ih =>
    obtain ⟨later', rfl, hend, hruns'⟩ := CellStream.exists_rest_of_runs hruns
    obtain ⟨hrec, record, hd⟩ := hbefore b (by simp)
    obtain ⟨rest, hrest, hafter⟩ := ih hruns' fun b' hb' => hbefore b' (List.mem_cons_of_mem _ hb')
    refine ⟨rest, by rw [hrest, List.flatMap_cons, List.append_assoc], ?_⟩
    intro c hc n hn
    have hfails : ¬ CellStream.Fails later' := by
      rintro ⟨e, tail, rfl⟩
      cases before <;> cases hruns'
    obtain ⟨hrow, hpending⟩ := takeRow_run hend hfails
    have hread := Codec.nextRecord_recognized hrec false later'
    rw [hrow, Except.bind, hd] at hread
    cases n with
    | zero => cases hn
    | succ n =>
      rw [after, next_eq_reader, hc, next_of_record hread]
      exact hafter _ hpending n (Nat.le_of_succ_le_succ hn)

/-! ## Main result -/

/-- A reading is its specification run by run.  The records of a stream are the items of its runs;
the calls of `next` answer with them in order and with none ever after; and a strict reading that
stops at an unrecognized run leaves that run and all behind it to the cursor. -/
theorem records_eq_itemsOfRuns (codec : Codec) (skip : Bool) (s : CellStream) :
    codec.records skip s = codec.itemsOfRuns skip s.firstError? (runs s.cells) ∧
    (∀ n, (after n (reader codec skip s)).next.1 =
      (codec.itemsOfRuns skip s.firstError? (runs s.cells))[n]?) ∧
    ∀ before run later, skip = false → runs s.cells = before ++ run :: later →
      (∀ b ∈ before, codec.recognizes b = true ∧ ∃ record, codec.decode b.row = .ok record) →
      codec.recognizes run = false →
      ∃ rest, s = before.flatMap Run.stream ++ (run.stream ++ rest) ∧
        ∀ n, before.length ≤ n →
          (after n (reader codec skip s)).cursor.drain = run.stream ++ rest := by
  refine ⟨readAll_reader codec skip s, ?_, ?_⟩
  · intro n
    rw [next_after, readAll_reader, Codec.itemsOf]
  · rintro before run later rfl hruns hbefore hrun
    obtain ⟨rest, hs, hafter⟩ := drain_after_stop hruns hbefore hrun
    exact ⟨rest, hs, hafter _ rfl⟩

/-- A row without a tag stops a strict reading behind the first record, and its cell is still there
to be taken, with the error behind it. -/
theorem records_eq_itemsOfRuns_untagged :
    ∀ n, 1 ≤ n →
      (after n (reader (.standard default) false
        [.ok (tagCell "a" "entity"), .ok ⟨"b", ⟨"f", "q"⟩, ⟨.unrestricted, []⟩⟩,
          .error (.store "down")])).cursor.drain =
        [.ok ⟨"b", ⟨"f", "q"⟩, ⟨.unrestricted, []⟩⟩, .error (.store "down")] := by
  have hbefore : ∀ b ∈ [(⟨tagCell "a" "entity", [], by simp⟩ : Run)],
      (Codec.standard default).recognizes b = true ∧
        ∃ record, (Codec.standard default).decode b.row = .ok record := by
    intro b hb
    obtain rfl := List.mem_singleton.1 hb
    exact ⟨rfl, .entity ⟨some "a", .empty, .empty⟩, rfl⟩
  obtain ⟨rest, hs, hafter⟩ := (records_eq_itemsOfRuns (.standard default) false
    [.ok (tagCell "a" "entity"), .ok ⟨"b", ⟨"f", "q"⟩, ⟨.unrestricted, []⟩⟩,
      .error (.store "down")]).2.2 _
        ⟨⟨"b", ⟨"f", "q"⟩, ⟨.unrestricted, []⟩⟩, [], by simp⟩ [] rfl rfl hbefore rfl
  cases hs
  exact hafter

end RecordStream

end TaggedRows
