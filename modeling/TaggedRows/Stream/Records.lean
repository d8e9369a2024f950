import TaggedRows.Stream.Cursor
import TaggedRows.Tag.Codec

/-!
# Records of a stream

The records of a stream of cells.  A row that is not recognized, because it has no tag cell or an
unknown tag, is either passed over or ends the reading; any other error ends it after being handed
out.
-/

namespace TaggedRows

namespace Codec

/-- Read the next record.  The first cell of its row decides, without being taken, whether the row
is recognized; one that is not is passed over if `skip` is set, and otherwise the cursor stays
before it and there is no record. -/
def nextRecord (codec : Codec) (skip : Bool) (c : Cursor) :
    Except TableError (Option Record) × Cursor :=
  match _hp : c.peek.1 with
  | .error e => (.error e, c.peek.2)
  | .ok none => (.ok none, c.peek.2)
  | .ok (some first) =>
    match codec.recognize first with
    | .ok _ =>
      match c.peek.2.nextRow with
      | (.error e, c) => (.error e, c)
      | (.ok none, c) => (.ok none, c)
      | (.ok (some row), c) => ((codec.decode row).map some, c)
    | .error e =>
      if ¬ e.isUnrecognized then (.error e, c.peek.2)
      else if ¬ skip then (.ok none, c.peek.2)
      else
        match c.peek.2.nextRow.1 with
        | .error e => (.error e, c.peek.2.nextRow.2)
        | .ok _ => nextRecord codec skip c.peek.2.nextRow.2
termination_by c.size
decreasing_by exact Cursor.size_nextRow_lt_of_peek _hp

theorem size_nextRecord_lt {codec : Codec} {skip : Bool} {c : Cursor} {record : Record}
    (h : (codec.nextRecord skip c).1 = .ok (some record)) :
    (codec.nextRecord skip c).2.size < c.size := by
  fun_induction nextRecord codec skip c with
  | case1 => cases h
  | case2 => cases h
  | case3 => cases h
  | case4 => cases h
  | case5 c first hp _ _ row c' hn =>
    have := Cursor.size_nextRow_lt_of_peek hp
    rwa [hn] at this
  | case6 => cases h
  | case7 => cases h
  | case8 => cases h
  | case9 c first hp e _ _ _ _ hn ih =>
    exact Nat.lt_trans (ih h) (Cursor.size_nextRow_lt_of_peek hp)

end Codec

/-- The records of a cursor, one after the other.  After an error there is nothing more. -/
structure RecordStream where
  codec : Codec
  skip : Bool
  cursor : Cursor
  failed : Bool := false

namespace RecordStream

/-- The next record, or the error in its place. -/
def next (r : RecordStream) : Option (Except TableError Record) × RecordStream :=
  if r.failed then (none, r)
  else
    let step := r.codec.nextRecord r.skip r.cursor
    match step.1 with
    | .ok record => (record.map .ok, { r with cursor := step.2 })
    | .error e => (some (.error e), { r with cursor := step.2, failed := true })

/-- At most `n` records, and the stream after them. -/
def take : Nat → RecordStream → List (Except TableError Record) × RecordStream
  | 0, r => ([], r)
  | n + 1, r =>
    match r.next with
    | (none, r) => ([], r)
    | (some item, r) =>
      let (items, r) := take n r
      (item :: items, r)

/-- A bound on the number of records to come. -/
def bound (r : RecordStream) : Nat := if r.failed then 0 else r.cursor.size + 1

theorem bound_next {r : RecordStream} {item : Except TableError Record}
    (h : r.next.1 = some item) : r.next.2.bound < r.bound := by
  by_cases hf : r.failed
  · simp [next, hf] at h
  · cases hs : (r.codec.nextRecord r.skip r.cursor).1 with
    | error e => simp [next, bound, hf, hs]
    | ok record =>
      cases record with
      | none => simp [next, hf, hs] at h
      | some record =>
        have := Codec.size_nextRecord_lt hs
        simp only [next, bound, hf, hs, if_false, Bool.false_eq_true]
        omega

/-- All records to come, and the stream after them. -/
def readAll (r : RecordStream) : List (Except TableError Record) × RecordStream :=
  match _h : r.next.1 with
  | none => ([], r.next.2)
  | some item =>
    let (items, last) := readAll r.next.2
    (item :: items, last)
termination_by r.bound
decreasing_by exact bound_next _h

end RecordStream

/-- The records of a stream of cells. -/
def Codec.records (codec : Codec) (skip : Bool) (cells : CellStream) :
    List (Except TableError Record) :=
  (RecordStream.readAll { codec, skip, cursor := { rest := cells } }).1

end TaggedRows
