import TaggedRows.Proofs.Stream.Cursor

/-!
# Calls on a cursor

A cursor is called in any order to show the next cell, to take it, or to say whether there is none.
What a call answers and what it leaves depends on the items to come alone (`CursorCall.run_eq`),
however many of them the cursor has looked at: a cell stays first until it is taken, an error goes
with whatever call meets it, and at the end nothing happens.

* **Nothing is lost or repeated.**  What calls have handed out for good and what is still to come
  make up the stream (`CursorCall.handed_runAll`).
* **What is shown is what comes.**  Until a cell is taken, every call answers as if this cell were
  next (`CursorCall.runAll_before_cell`).
* **The end is the end** (`CursorCall.runAll_at_end`).
-/

namespace TaggedRows

namespace CellStream

/-- What comes next in a stream: a cell, an error, or nothing. -/
def upcoming : CellStream → Except TableError (Option Cell)
  | [] => .ok none
  | .ok cell :: _ => .ok (some cell)
  | .error e :: _ => .error e

/-- The errors among the items of a stream. -/
def errors (s : CellStream) : List TableError :=
  s.filterMap fun item =>
    match item with
    | .ok _ => none
    | .error e => some e

theorem errors_append (s t : CellStream) : errors (s ++ t) = s.errors ++ t.errors :=
  List.filterMap_append

theorem exists_of_upcoming {s : CellStream} {cell : Cell} (h : s.upcoming = .ok (some cell)) :
    ∃ later, s = .ok cell :: later := by
  rcases s with _ | ⟨e | first, later⟩
  · cases h
  · cases h
  · cases h
    exact ⟨later, rfl⟩

end CellStream

/-- The cell held back is no error. -/
theorem Cursor.errors_pending (c : Cursor) : c.pending.errors = c.rest.errors := by
  obtain ⟨rest, held⟩ := c
  cases held <;> rfl

/-! ## Calls and answers -/

/-- A call on a cursor. -/
inductive CursorCall where
  | peek
  | next
  | atEnd
deriving DecidableEq

/-- The answer to a call on a cursor. -/
inductive CursorAnswer where
  /-- The next cell is shown. -/
  | shown (cell : Except TableError (Option Cell))
  /-- The next cell is taken. -/
  | taken (cell : Except TableError (Option Cell))
  /-- It is said whether there is no next cell. -/
  | ended (r : Except TableError Bool)

namespace CursorAnswer

/-- The error that was met instead. -/
def error? : CursorAnswer → Option TableError
  | shown (.error e) | taken (.error e) | ended (.error e) => some e
  | _ => none

/-- The items that the answer hands out for good: a cell that is taken, or an error. -/
def handed : CursorAnswer → CellStream
  | taken (.ok (some cell)) => [.ok cell]
  | answer => answer.error?.toList.map .error

theorem errors_handed (a : CursorAnswer) : a.handed.errors = a.error?.toList := by
  rcases a with (e | cell) | (e | cell | cell) | (e | r) <;> rfl

theorem errors_flatMap_handed (answers : List CursorAnswer) :
    CellStream.errors (answers.flatMap handed) = answers.filterMap error? := by
  induction answers with
  | nil => rfl
  | cons a answers ih =>
    rw [List.flatMap_cons, CellStream.errors_append, errors_handed, ih]
    cases herror : a.error? <;> simp [herror]

end CursorAnswer

namespace CursorCall

/-- What the call answers if `item` comes next. -/
def answer (item : Except TableError (Option Cell)) : CursorCall → CursorAnswer
  | peek => .shown item
  | next => .taken item
  | atEnd => .ended (item.map Option.isNone)

/-- What the call leaves of the items to come. -/
def remaining (call : CursorCall) : CellStream → CellStream
  | [] => []
  | .ok cell :: later => if call = next then later else .ok cell :: later
  | .error _ :: later => later

/-- Call a cursor. -/
def run : CursorCall → Cursor → CursorAnswer × Cursor
  | peek, c => (.shown c.peek.1, c.peek.2)
  | next, c => (.taken c.next.1, c.next.2)
  | atEnd, c => (.ended c.atEnd.1, c.atEnd.2)

/-- The answers to calls one after the other, and the cursor behind them. -/
def runAll : List CursorCall → Cursor → List CursorAnswer × Cursor
  | [], c => ([], c)
  | call :: calls, c =>
    ((call.run c).1 :: (runAll calls (call.run c).2).1, (runAll calls (call.run c).2).2)

variable {c : Cursor} {cell : Cell} {later : CellStream}

/-! ## One call -/

/-- A call depends on the items to come, and not on whether the first of them is held back. -/
theorem run_eq (call : CursorCall) (c : Cursor) :
    (call.run c).1 = call.answer c.pending.upcoming ∧
      (call.run c).2.pending = call.remaining c.pending := by
  obtain ⟨rest, held⟩ := c
  cases held with
  | some cell => cases call <;> exact ⟨rfl, rfl⟩
  | none =>
    rcases rest with _ | ⟨e | cell, later⟩
    · cases call <;> exact ⟨rfl, rfl⟩
    · cases call <;> exact ⟨rfl, rfl⟩
    · cases call <;> exact ⟨rfl, rfl⟩

theorem handed_answer (call : CursorCall) (s : CellStream) :
    (call.answer s.upcoming).handed ++ call.remaining s = s := by
  rcases s with _ | ⟨e | cell, later⟩
  · cases call <;> rfl
  · cases call <;> rfl
  · cases call <;> rfl

theorem handed_run (call : CursorCall) (c : Cursor) :
    (call.run c).1.handed ++ (call.run c).2.pending = c.pending := by
  obtain ⟨hanswer, hpending⟩ := call.run_eq c
  rw [hanswer, hpending]
  exact call.handed_answer c.pending

/-! ## Calls one after the other -/

/-- What was handed out, and behind it what is still to come, is what was to come before. -/
theorem handed_runAll (calls : List CursorCall) (c : Cursor) :
    (runAll calls c).1.flatMap CursorAnswer.handed ++ (runAll calls c).2.pending = c.pending := by
  induction calls generalizing c with
  | nil => rfl
  | cons call calls ih =>
    calc (runAll (call :: calls) c).1.flatMap CursorAnswer.handed
          ++ (runAll (call :: calls) c).2.pending
        = (call.run c).1.handed ++ ((runAll calls (call.run c).2).1.flatMap CursorAnswer.handed
          ++ (runAll calls (call.run c).2).2.pending) := List.append_assoc ..
      _ = (call.run c).1.handed ++ (call.run c).2.pending := by rw [ih]
      _ = c.pending := call.handed_run c

/-- Calls that do not take the first cell leave it first. -/
theorem runAll_before_cell (h : c.pending = .ok cell :: later) {calls : List CursorCall}
    (hcalls : next ∉ calls) :
    (runAll calls c).1 = calls.map (answer (.ok (some cell))) ∧
      (runAll calls c).2.pending = .ok cell :: later := by
  induction calls generalizing c with
  | nil => exact ⟨rfl, h⟩
  | cons call calls ih =>
    rw [List.mem_cons, not_or] at hcalls
    obtain ⟨hanswer, hpending⟩ := call.run_eq c
    rw [h, remaining, if_neg (Ne.symm hcalls.1)] at hpending
    rw [h] at hanswer
    obtain ⟨hanswers, hlast⟩ := ih hpending hcalls.2
    exact ⟨congrArg₂ List.cons hanswer hanswers, hlast⟩

theorem runAll_at_end (h : c.pending = []) (calls : List CursorCall) :
    (runAll calls c).1 = calls.map (answer (.ok none)) := by
  induction calls generalizing c with
  | nil => rfl
  | cons call calls ih =>
    obtain ⟨hanswer, hpending⟩ := call.run_eq c
    rw [h] at hanswer hpending
    exact congrArg₂ List.cons hanswer (ih hpending)

/-! ## Main result -/

/-- Whatever the calls on a cursor, it hands out the items of its stream in their order: the cells
that were taken and the errors that were met, then the cell held back if there is one, then the rest
of the stream make up the stream.  Every error was met once, or is still to come.  The next call
answers from the first of the items to come.  A cell that is shown is what all calls answer from
until it is taken; when every item has been handed out, all calls say that this is the end. -/
theorem runAll_delivers (stream : CellStream) (calls : List CursorCall) :
    let answers := (runAll calls { rest := stream }).1
    let c := (runAll calls { rest := stream }).2
    answers.flatMap CursorAnswer.handed ++ (c.held.toList.map Except.ok ++ c.rest) = stream ∧
      answers.filterMap CursorAnswer.error? ++ c.rest.errors = stream.errors ∧
      (∀ call, (run call c).1 = call.answer c.pending.upcoming) ∧
      (∀ cell, (peek.run c).1 = .shown (.ok (some cell)) → ∀ looks, next ∉ looks →
        (runAll looks (peek.run c).2).1 = looks.map (answer (.ok (some cell))) ∧
          (next.run (runAll looks (peek.run c).2).2).1 = .taken (.ok (some cell))) ∧
      (answers.flatMap CursorAnswer.handed = stream →
        ∀ later, (runAll later c).1 = later.map (answer (.ok none))) := by
  intro answers c
  have hstream : answers.flatMap CursorAnswer.handed ++ c.pending = stream :=
    handed_runAll calls { rest := stream }
  refine ⟨hstream, ?_, fun call => (call.run_eq c).1, ?_, ?_⟩
  · have herrors := congrArg CellStream.errors hstream
    rwa [CellStream.errors_append, CursorAnswer.errors_flatMap_handed,
      Cursor.errors_pending] at herrors
  · intro cell hshown looks hlooks
    obtain ⟨hanswer, hpending⟩ := peek.run_eq c
    have hupcoming : c.pending.upcoming = .ok (some cell) :=
      CursorAnswer.shown.inj (hanswer.symm.trans hshown)
    obtain ⟨later, hlater⟩ := CellStream.exists_of_upcoming hupcoming
    rw [hlater] at hpending
    obtain ⟨hlook, hlast⟩ := runAll_before_cell hpending hlooks
    refine ⟨hlook, ?_⟩
    rw [(next.run_eq _).1, hlast]
    rfl
  · intro hall
    have hpending : c.pending = [] := by
      rw [hall] at hstream
      exact List.self_eq_append_right.1 hstream.symm
    exact runAll_at_end hpending

/-- A stream of two cells with an error between them. -/
def brokenStream : CellStream :=
  [.ok ⟨"r", ⟨"f", "a"⟩, ⟨.unrestricted, [1]⟩⟩, .error (.store "down"),
    .ok ⟨"r", ⟨"f", "b"⟩, ⟨.unrestricted, [2]⟩⟩]

/-- The error is met by a call that only looks, and is gone with it; the last cell is then shown as
often as wanted, and taken once. -/
theorem runAll_delivers_broken :
    let c := (runAll [next, atEnd, peek] { rest := brokenStream }).2
    (runAll [peek, atEnd] (peek.run c).2).1 =
        [.shown (.ok (some ⟨"r", ⟨"f", "b"⟩, ⟨.unrestricted, [2]⟩⟩)), .ended (.ok false)] ∧
      (runAll [atEnd, next, peek]
          (runAll [next, atEnd, peek, next] { rest := brokenStream }).2).1 =
        [.ended (.ok true), .taken (.ok none), .shown (.ok none)] := by
  intro c
  obtain ⟨-, -, -, hshown, -⟩ := runAll_delivers brokenStream [next, atEnd, peek]
  obtain ⟨-, -, -, -, hend⟩ := runAll_delivers brokenStream [next, atEnd, peek, next]
  exact ⟨(hshown _ rfl [peek, atEnd] (by decide)).1, hend rfl [atEnd, next, peek]⟩

end CursorCall

end TaggedRows
