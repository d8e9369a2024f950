import TaggedRows.FoldedRow

/-!
# Folded rows read by position

A reader that keeps a position in the value, rather than the bytes that are still to come, cuts
slices out of the value and subtracts its position from the length.  Both only make sense as long as
it stays within the value.  Here such steps are **partial**: a slice that reaches beyond the value
and a difference below zero have no outcome at all (`sliceAt`, `leftAt`).

The program is the same for both kinds of reader, and is therefore written once for any way to get
at bytes (`rowFrom`).  Over the bytes to come it is `decode` (`decode_eq_rowFrom`).  Over positions
it is `decodeAt`, and as each position it reaches lies in the value, it always has an outcome, which
is that of `decode` (`decodeAt_eq`).  The argument goes step by step: readers that **follow** one
another from all positions in the value do so in sequence too (`Follows.bind`).
-/

namespace TaggedRows.FoldedRow

open TaggedRows.Text

/-! ## Reading from any source -/

section Source

variable {m : Type → Type} [Monad m] [MonadExcept FrameError m] (take : Part → Nat → m Bytes)

/-- Read a count or length. -/
def lengthFrom (part : Part) : m Nat := do
  let n := ofWord32 (← take part 4)
  if n < 0 then throw (.negative part n) else pure n.toNat

/-- Read a text after its length. -/
def textFrom (part : Part) : m String := do
  let n ← lengthFrom take part
  match Utf8.decode? (← take part n) with
  | some text => pure text
  | none => throw (.notText part)

/-- Read a cell, or nothing in place of a deleted one. -/
def cellFrom : m (Option (Column × Content)) := do
  let family ← textFrom take .family
  let qualifier ← textFrom take .qualifier
  let label ← textFrom take .label
  let _ ← take .timestamp 8
  let deleted ← take .deletedFlag 1
  let length ← lengthFrom take .valueLength
  let bytes ← take .value length
  pure (if deleted = [0] then some (⟨family, qualifier⟩, ⟨⟨label⟩, bytes⟩) else none)

/-- Read a number of cells and put those that are not deleted into a row. -/
def cellsFrom : Nat → Row → m Row
  | 0, row => pure row
  | n + 1, row => do
    match ← cellFrom take with
    | some (column, content) => cellsFrom n (row.insert column content)
    | none => cellsFrom n row

/-- Read a row, behind which no bytes may be left. -/
def rowFrom (left : m Nat) (id : String) : m Row := do
  let count ← lengthFrom take .cellCount
  let row ← cellsFrom take count (Row.empty id)
  let bytes ← left
  if bytes = 0 then pure row else throw (.trailing bytes count)

end Source

theorem readCell_eq_cellFrom : readCell = cellFrom readBytes := rfl

theorem readCells_eq_cellsFrom (n : Nat) (row : Row) :
    readCells n row = cellsFrom readBytes n row := by
  induction n generalizing row with
  | zero => rfl
  | succ n ih =>
    rw [readCells, cellsFrom, readCell_eq_cellFrom]
    congr 1
    funext cell?
    cases cell? with
    | none => exact ih row
    | some cell => exact ih _

/-- The number of bytes that a reader has before it. -/
def bytesLeft : Reader Nat := fun place => .ok (place.rest.length, place)

theorem decode_eq_rowFrom (id : String) (value : Bytes) :
    decode id value = (rowFrom readBytes bytesLeft id).run' ⟨0, value⟩ := by
  have hrun : (rowFrom readBytes bytesLeft id).run' ⟨0, value⟩ =
      ((readLength .cellCount ⟨0, value⟩).bind fun p =>
        (cellsFrom readBytes p.1 (Row.empty id) p.2).bind fun q =>
          (if q.2.rest.length = 0 then (pure q.1 : Reader Row)
            else throw (.trailing q.2.rest.length p.1)) q.2).map Prod.fst := rfl
  rw [hrun, decode]
  cases hcount : readLength .cellCount ⟨0, value⟩ with
  | error e => rfl
  | ok p =>
    simp only [bind, Except.bind]
    rw [← readCells_eq_cellsFrom]
    cases hcells : readCells p.1 (Row.empty id) p.2 with
    | error e => rfl
    | ok q =>
      simp only [List.length_eq_zero_iff]
      split
      · rfl
      · rfl

/-! ## Reading by position -/

/-- A reader with a position in a value.  A step that leaves the value has no outcome. -/
abbrev Indexed := StateT Nat (ExceptT FrameError Option)

/-- The number of bytes from the position on, found by a subtraction that must not fall below
zero. -/
def leftAt (value : Bytes) : Indexed Nat := fun pos =>
  if pos ≤ value.length then some (.ok (value.length - pos, pos)) else none

/-- The next bytes of the value, cut out between two positions that have to lie in it. -/
def sliceAt (value : Bytes) (part : Part) (n : Nat) : Indexed Bytes := do
  let left ← leftAt value
  fun pos =>
    if left < n then some (.error (.truncated part n pos left))
    else if pos + n ≤ value.length then some (.ok (value.extract pos (pos + n), pos + n))
    else none

/-- Read a row by positions in the value. -/
def decodeAt (id : String) (value : Bytes) : Option (Except FrameError Row) :=
  ((rowFrom (sliceAt value) (leftAt value) id).run' 0).run

/-- From every position in the value, both readers fail with the same error or answer the same and
come to the same position in the value. -/
def Follows (value : Bytes) (s : Indexed α) (r : Reader α) : Prop :=
  ∀ pos ≤ value.length, (∃ e, r ⟨pos, value.drop pos⟩ = .error e ∧ s pos = some (.error e)) ∨
    ∃ a next, next ≤ value.length ∧ r ⟨pos, value.drop pos⟩ = .ok (a, ⟨next, value.drop next⟩) ∧
      s pos = some (.ok (a, next))

variable {value : Bytes}

theorem Follows.pure (a : α) : Follows value (pure a) (pure a) := by
  intro pos hpos
  exact .inr ⟨a, pos, hpos, rfl, rfl⟩

theorem Follows.throw (e : FrameError) :
    Follows value (throw e : Indexed α) (throw e : Reader α) := by
  intro pos hpos
  exact .inl ⟨e, rfl, rfl⟩

theorem Follows.bind {s : Indexed α} {r : Reader α} {t : α → Indexed β} {f : α → Reader β}
    (hs : Follows value s r) (hf : ∀ a, Follows value (t a) (f a)) :
    Follows value (s >>= t) (r >>= f) := by
  intro pos hpos
  have hr : (r >>= f) ⟨pos, value.drop pos⟩ =
      (r ⟨pos, value.drop pos⟩).bind fun p => f p.1 p.2 := rfl
  rcases hs pos hpos with ⟨e, hread, hindex⟩ | ⟨a, next, hnext, hread, hindex⟩
  · refine .inl ⟨e, by rw [hr, hread]; rfl, ?_⟩
    show (s pos).bind _ = _
    rw [hindex]
    rfl
  · have hlast : (s >>= t) pos = t a next := by
      show (s pos).bind _ = _
      rw [hindex]
      rfl
    rw [hr, hread, hlast]
    exact hf a next hnext

theorem follows_sliceAt (part : Part) (n : Nat) :
    Follows value (sliceAt value part n) (readBytes part n) := by
  intro pos hpos
  have hleft : (value.drop pos).length = value.length - pos := List.length_drop ..
  have hslice : sliceAt value part n pos =
      if value.length - pos < n then some (.error (.truncated part n pos (value.length - pos)))
      else if pos + n ≤ value.length then some (.ok (value.extract pos (pos + n), pos + n))
      else none := by
    show (leftAt value pos).bind _ = _
    rw [leftAt, if_pos hpos]
    rfl
  rw [hslice, readBytes]
  simp only [hleft]
  by_cases hshort : value.length - pos < n
  · rw [if_pos hshort, if_pos hshort]
    exact .inl ⟨_, rfl, rfl⟩
  · have hend : pos + n ≤ value.length := by omega
    rw [if_neg hshort, if_neg hshort, if_pos hend]
    refine .inr ⟨_, pos + n, hend, ?_, rfl⟩
    rw [List.extract_eq_take_drop, Nat.add_sub_cancel_left, List.drop_drop]

theorem follows_leftAt : Follows value (leftAt value) bytesLeft := by
  intro pos hpos
  refine .inr ⟨value.length - pos, pos, hpos, ?_, if_pos hpos⟩
  rw [bytesLeft, List.length_drop]

theorem follows_lengthFrom (part : Part) :
    Follows value (lengthFrom (sliceAt value) part) (lengthFrom readBytes part) := by
  refine (follows_sliceAt part 4).bind fun bytes => ?_
  by_cases h : ofWord32 bytes < 0
  · simp only [if_pos h]
    exact Follows.throw _
  · simp only [if_neg h]
    exact Follows.pure _

theorem follows_textFrom (part : Part) :
    Follows value (textFrom (sliceAt value) part) (textFrom readBytes part) := by
  refine (follows_lengthFrom part).bind fun n => (follows_sliceAt part n).bind fun bytes => ?_
  cases Utf8.decode? bytes with
  | none => exact Follows.throw _
  | some text => exact Follows.pure text

theorem follows_cellFrom : Follows value (cellFrom (sliceAt value)) (cellFrom readBytes) := by
  refine (follows_textFrom .family).bind fun family => ?_
  refine (follows_textFrom .qualifier).bind fun qualifier => ?_
  refine (follows_textFrom .label).bind fun label => ?_
  refine (follows_sliceAt .timestamp 8).bind fun _ => ?_
  refine (follows_sliceAt .deletedFlag 1).bind fun deleted => ?_
  refine (follows_lengthFrom .valueLength).bind fun length => ?_
  refine (follows_sliceAt .value length).bind fun bytes => ?_
  exact Follows.pure _

theorem follows_cellsFrom (n : Nat) (row : Row) :
    Follows value (cellsFrom (sliceAt value) n row) (cellsFrom readBytes n row) := by
  induction n generalizing row with
  | zero => exact Follows.pure row
  | succ n ih =>
    refine follows_cellFrom.bind fun cell? => ?_
    cases cell? with
    | none => exact ih row
    | some cell => exact ih _

theorem follows_rowFrom (value : Bytes) (id : String) :
    Follows value (rowFrom (sliceAt value) (leftAt value) id) (rowFrom readBytes bytesLeft id) := by
  refine (follows_lengthFrom .cellCount).bind fun count => ?_
  refine (follows_cellsFrom count (Row.empty id)).bind fun row => ?_
  refine follows_leftAt.bind fun bytes => ?_
  by_cases h : bytes = 0
  · simp only [if_pos h]
    exact Follows.pure row
  · simp only [if_neg h]
    exact Follows.throw _

/-- Reading by position has an outcome for every value, and it is that of the reading. -/
theorem decodeAt_eq (id : String) (value : Bytes) : decodeAt id value = some (decode id value) := by
  have hread : (rowFrom readBytes bytesLeft id).run' ⟨0, value⟩ =
      (rowFrom readBytes bytesLeft id ⟨0, value.drop 0⟩).map Prod.fst := rfl
  rw [decode_eq_rowFrom, hread]
  rcases follows_rowFrom value id 0 (Nat.zero_le _) with
    ⟨e, hplace, hpos⟩ | ⟨row, next, -, hplace, hpos⟩
  · rw [hplace]
    show Option.bind (rowFrom (sliceAt value) (leftAt value) id 0) _ = _
    rw [hpos]
    rfl
  · rw [hplace]
    show Option.bind (rowFrom (sliceAt value) (leftAt value) id 0) _ = _
    rw [hpos]
    rfl

end TaggedRows.FoldedRow
