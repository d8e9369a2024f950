import TaggedRows.Proofs.Ingest.Intake
import TaggedRows.Proofs.Store.LastWrite

/-!
# Buffers that share a store

Two buffers over one store in memory do not disturb each other, as long as they have no row in
common.  Their limits and the clock decide when a batch of the one comes between two batches of the
other, and none of this shows in the end (`BufferUse.run_interleaved`).

A store takes each write as a whole, so the steps of the two buffers follow one another in some
order, which is one of the ways to interleave them (`Interleaves`).  In the middle of such a run
there are cells **on their way** to the store: those that wait in a buffer, and behind them those
that its further steps will bring in (`BufferStep.onWay`).

* A step writes a front part of the cells on their way and leaves the others there, in order
  (`BufferStep.run_onWay`).
* Writes of the one buffer pass by the cells on their way from the other, whose addresses are
  different (`MapStore.insertMany_comm`), so a whole run writes what is on the way from the one and
  then what is on the way from the other (`SharedStore.run_of_interleaves`).
-/

namespace TaggedRows

open Cell MapStore

/-! ## The steps of one buffer -/

/-- How a buffer is given up. -/
inductive BufferEnd where
  | close
  | release

/-- A step in the use of a buffer. -/
inductive BufferStep where
  | op (op : BufferOp)
  | giveUp (how : BufferEnd)

namespace BufferStep

/-- The cells that a step brings in. -/
def cells : BufferStep → List Cell
  | .op bop => bop.rows.flatten
  | .giveUp _ => []

/-- Run a step on a buffer and the store beside it.  A buffer that was given up is gone, and nothing
can be done with it any more. -/
def run [Store σ] (step : BufferStep) (buffer : Option RowBuffer) (store : σ) :
    Option RowBuffer × σ :=
  match buffer, step with
  | none, _ => (none, store)
  | some b, .op bop =>
    let (_, b, store) := bop.run b store
    (some b, store)
  | some b, .giveUp .close => (none, (b.close store).2)
  | some b, .giveUp .release => (none, b.release store)

/-- Run steps one after the other. -/
def runAll [Store σ] (steps : List BufferStep) (buffer : Option RowBuffer) (store : σ) :
    Option RowBuffer × σ :=
  steps.foldl (fun state step => step.run state.1 state.2) (buffer, store)

/-- The steps that are left for a buffer: none if it is gone, and otherwise operations that drop
nothing, and at last giving it up. -/
inductive Ends : Option RowBuffer → List BufferStep → Prop where
  | gone : Ends none []
  | giveUp {b : RowBuffer} (how : BufferEnd) : Ends (some b) [.giveUp how]
  | op {b : RowBuffer} {op : BufferOp} {steps : List BufferStep} (hop : op ≠ .discard)
      (hsteps : ∀ after, Ends (some after) steps) : Ends (some b) (.op op :: steps)

/-- The cells on their way to the store: those that wait in the buffer, and behind them those that
steps will bring in. -/
def onWay (buffer : Option RowBuffer) (steps : List BufferStep) : List Cell :=
  (buffer.elim [] fun b => b.pending.flatten) ++ steps.flatMap cells

/-- A step writes a front part of the cells on their way, and the others stay on their way. -/
theorem run_onWay {buffer : Option RowBuffer} {step : BufferStep} {steps : List BufferStep}
    (h : Ends buffer (step :: steps)) (s : MapStore) :
    ∃ after written, step.run buffer s = (after, s.insertMany written) ∧ Ends after steps ∧
      written ++ onWay after steps = onWay buffer (step :: steps) := by
  cases h with
  | giveUp how =>
    rename_i b
    refine ⟨none, b.pending.flatten, ?_, .gone, ?_⟩
    · obtain ⟨after, hflush, -⟩ := b.flush_mapStore s
      cases how with
      | close => rw [run, b.close_mapStore]; rfl
      | release => rw [run, RowBuffer.release, hflush]; rfl
    · simp [onWay, cells]
  | op hop hsteps =>
    rename_i b op
    have hrows : onWay (some b) (.op op :: steps) =
        (op.enqueued b).pending.flatten ++ steps.flatMap cells := by
      simp [onWay, cells, op.pending_enqueued]
    rw [hrows]
    rcases op.run_cases b s with ⟨hrun, -⟩ | ⟨hrun, -⟩ | hdiscard
    · -- the rows go on waiting
      refine ⟨some (op.enqueued b), [], ?_, hsteps _, rfl⟩
      rw [run, hrun]
      rfl
    · obtain ⟨after, hflush, hempty⟩ := (op.enqueued b).flush_mapStore s
      refine ⟨some after, (op.enqueued b).pending.flatten, ?_, hsteps _, ?_⟩
      · rw [run, hrun, hflush]
        rfl
      · simp [onWay, hempty]
    · exact absurd hdiscard hop

/-- Alone beside the store, a buffer writes all cells on their way, and is gone. -/
theorem runAll_onWay {buffer : Option RowBuffer} {steps : List BufferStep} (h : Ends buffer steps)
    (s : MapStore) : runAll steps buffer s = (none, s.insertMany (onWay buffer steps)) := by
  induction steps generalizing buffer s with
  | nil =>
    cases h
    rfl
  | cons step steps ih =>
    obtain ⟨after, written, hrun, hends, honWay⟩ := run_onWay h s
    rw [← honWay, insertMany_append, ← ih hends, runAll, List.foldl_cons, hrun]
    rfl

end BufferStep

/-! ## The use of a buffer -/

/-- What is done with a new buffer: operations one after the other, and at last it is given up. -/
structure BufferUse where
  limits : BufferLimits
  ops : List BufferOp
  last : BufferEnd

namespace BufferUse

/-- The buffer before the first step. -/
def buffer (u : BufferUse) : RowBuffer := { limits := u.limits }

/-- The operations, and giving up the buffer. -/
def steps (u : BufferUse) : List BufferStep := u.ops.map .op ++ [.giveUp u.last]

/-- The cells that are added, in order. -/
def added (u : BufferUse) : List Cell := (u.ops.flatMap BufferOp.rows).flatten

/-- The store after all steps, if nothing else happens to it. -/
def runAlone [Store σ] (u : BufferUse) (store : σ) : σ :=
  (BufferStep.runAll u.steps (some u.buffer) store).2

theorem ends_steps {u : BufferUse} (h : ∀ op ∈ u.ops, op ≠ .discard) (b : RowBuffer) :
    BufferStep.Ends (some b) u.steps := by
  obtain ⟨limits, ops, last⟩ := u
  unfold steps
  induction ops generalizing b with
  | nil => exact .giveUp last
  | cons op ops ih =>
    obtain ⟨hop, hops⟩ := List.forall_mem_cons.1 h
    exact .op hop fun after => ih after hops

/-- At first all cells that will be added are on their way. -/
theorem onWay_steps (u : BufferUse) : BufferStep.onWay (some u.buffer) u.steps = u.added := by
  have hcells : ∀ ops : List BufferOp, (ops.map BufferStep.op).flatMap BufferStep.cells =
      (ops.flatMap BufferOp.rows).flatten := by
    intro ops
    induction ops with
    | nil => rfl
    | cons op ops ih => simp [BufferStep.cells, ih]
  simp [BufferStep.onWay, steps, buffer, hcells, BufferStep.cells, added]

theorem runAlone_mapStore {u : BufferUse} (h : ∀ op ∈ u.ops, op ≠ .discard) (s : MapStore) :
    u.runAlone s = s.insertMany u.added := by
  rw [runAlone, BufferStep.runAll_onWay (ends_steps h _), onWay_steps]

end BufferUse

/-! ## Two buffers -/

/-- A list that holds two lists, each in its order. -/
inductive Interleaves : List α → List β → List (α ⊕ β) → Prop where
  | nil : Interleaves [] [] []
  | left {as : List α} {bs : List β} {all : List (α ⊕ β)} (a : α) (h : Interleaves as bs all) :
      Interleaves (a :: as) bs (.inl a :: all)
  | right {as : List α} {bs : List β} {all : List (α ⊕ β)} (b : β) (h : Interleaves as bs all) :
      Interleaves as (b :: bs) (.inr b :: all)

/-- Two buffers and the store beside both.  A buffer that was given up is gone. -/
structure SharedStore (σ : Type) where
  left : Option RowBuffer
  right : Option RowBuffer
  store : σ

namespace SharedStore

/-- Run a step of one of the two buffers. -/
def step [Store σ] (s : SharedStore σ) : BufferStep ⊕ BufferStep → SharedStore σ
  | .inl step =>
    let (left, store) := step.run s.left s.store
    { s with left, store }
  | .inr step =>
    let (right, store) := step.run s.right s.store
    { s with right, store }

/-- Run steps of the two buffers one after the other. -/
def run [Store σ] (s : SharedStore σ) (steps : List (BufferStep ⊕ BufferStep)) : SharedStore σ :=
  steps.foldl step s

open BufferStep (Ends onWay)

/-- Whatever the order of the steps, all cells on their way from the two buffers are written, as if
first the one and then the other did so. -/
theorem run_of_interleaves {ls rs : List BufferStep} {steps : List (BufferStep ⊕ BufferStep)}
    (h : Interleaves ls rs steps) {l r : Option RowBuffer} (hl : Ends l ls) (hr : Ends r rs)
    (hdisjoint : ∀ c ∈ onWay l ls, ∀ d ∈ onWay r rs, c.address ≠ d.address) (s : MapStore) :
    run ⟨l, r, s⟩ steps =
      ⟨none, none, (s.insertMany (onWay l ls)).insertMany (onWay r rs)⟩ := by
  induction h generalizing l r s with
  | nil =>
    cases hl
    cases hr
    rfl
  | @left ls rs steps first _ ih =>
    obtain ⟨after, written, hrun, hends, honWay⟩ := BufferStep.run_onWay hl s
    rw [← honWay] at hdisjoint ⊢
    have hrest := ih hends hr (fun c hc => hdisjoint c (List.mem_append_right _ hc))
      (s.insertMany written)
    rw [insertMany_append, ← hrest, run, List.foldl_cons, step, hrun]
    rfl
  | @right ls rs steps first _ ih =>
    obtain ⟨after, written, hrun, hends, honWay⟩ := BufferStep.run_onWay hr s
    rw [← honWay] at hdisjoint ⊢
    have hrest := ih hl hends (fun c hc d hd => hdisjoint c hc d (List.mem_append_right _ hd))
      (s.insertMany written)
    -- what is written now passes by the cells on their way from the other buffer
    have hpass : ∀ c ∈ onWay l ls, ∀ d ∈ written, c.address ≠ d.address :=
      fun c hc d hd => hdisjoint c hc d (List.mem_append_left _ hd)
    rw [insertMany_append, insertMany_comm hpass, ← hrest, run, List.foldl_cons, step, hrun]
    rfl

end SharedStore

/-! ## Main result -/

/-- Two buffers without a row in common, over one store in memory with any content: whatever their
limits are, whatever the clock says, whether they are closed or let go and however their steps are
interleaved, both are gone in the end and the store is the same.  It is the one that is left if the
one buffer is used after the other, in either order; and at each address it holds what was added
there last by the one buffer or by the other, or else what was there before. -/
theorem BufferUse.run_interleaved {left right : BufferUse}
    (hleft : ∀ op ∈ left.ops, op ≠ .discard) (hright : ∀ op ∈ right.ops, op ≠ .discard)
    (hrows : ∀ c ∈ left.added, ∀ d ∈ right.added, c.row ≠ d.row) (initial : MapStore) :
    ∃ final : MapStore,
      (∀ steps, Interleaves left.steps right.steps steps →
        SharedStore.run ⟨some left.buffer, some right.buffer, initial⟩ steps =
          ⟨none, none, final⟩) ∧
      right.runAlone (left.runAlone initial) = final ∧
      left.runAlone (right.runAlone initial) = final ∧
      ∀ a bytes, final.cells.get? a = some bytes ↔
        LatestIn left.added (ofAddress a bytes) ∨ LatestIn right.added (ofAddress a bytes) ∨
          (∀ d ∈ left.added ++ right.added, d.address ≠ a) ∧
            initial.cells.get? a = some bytes := by
  have haddresses : ∀ c ∈ left.added, ∀ d ∈ right.added, c.address ≠ d.address := by
    intro c hc d hd heq
    exact hrows c hc d hd (congrArg Address.row heq)
  refine ⟨(initial.insertMany left.added).insertMany right.added, ?_, ?_, ?_, ?_⟩
  · intro steps hsteps
    have honWay := SharedStore.run_of_interleaves hsteps (left.ends_steps hleft left.buffer)
      (right.ends_steps hright right.buffer)
    rw [left.onWay_steps, right.onWay_steps] at honWay
    exact honWay haddresses initial
  · rw [left.runAlone_mapStore hleft, right.runAlone_mapStore hright]
  · rw [left.runAlone_mapStore hleft, right.runAlone_mapStore hright, insertMany_comm haddresses]
  · intro a bytes
    have hpass : LatestIn left.added (ofAddress a bytes) → ∀ d ∈ right.added, d.address ≠ a :=
      fun hlast d hd heq => haddresses _ hlast.mem d hd heq.symm
    rw [← insertMany_append, get?_insertMany_iff, latestIn_append]
    simp only [address_ofAddress]
    tauto

/-- One buffer writes its two rows at once, and the second replaces the first.  The other takes its
row up before that and writes it in between, when it is let go. -/
theorem BufferUse.run_interleaved_in_between :
    ∃ final : MapStore,
      SharedStore.run ⟨some { limits := { maxBytes := 0 } }, some { limits := {} },
          .ofCells [tagCell "a" "old", tagCell "c" "old"]⟩
        [.inr (.op (.addRow [tagCell "b" "new"] 0 0)),
          .inl (.op (.addRow [tagCell "a" "first"] 0 0)), .inr (.giveUp .release),
          .inl (.op (.addRow [tagCell "a" "last"] 1 1)), .inl (.giveUp .close)] =
        ⟨none, none, final⟩ ∧
      final.toCells = [tagCell "a" "last", tagCell "b" "new", tagCell "c" "old"] := by
  have hleft : ∀ op ∈ (BufferUse.mk { maxBytes := 0 } [.addRow [tagCell "a" "first"] 0 0,
      .addRow [tagCell "a" "last"] 1 1] .close).ops, op ≠ .discard := by simp
  have hright : ∀ op ∈ (BufferUse.mk {} [.addRow [tagCell "b" "new"] 0 0] .release).ops,
      op ≠ .discard := by simp
  obtain ⟨final, hrun, halone, -⟩ := BufferUse.run_interleaved hleft hright (by decide)
    (.ofCells [tagCell "a" "old", tagCell "c" "old"])
  refine ⟨final, hrun _ (.right _ (.left _ (.right _ (.left _ (.left _ .nil))))), ?_⟩
  rw [← halone]
  decide +kernel

end TaggedRows
