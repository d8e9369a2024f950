import TaggedRows.Store.Basic

/-!
# Stores with faults

A store that fails on command: certain writes are rejected, counted from the first, and scans break
off after a number of cells.
-/

namespace TaggedRows

/-- A store that fails on command. -/
structure FaultyStore (σ : Type) where
  store : σ
  /-- The numbers of the writes to be rejected, the first being 0. -/
  rejectedWrites : List Nat := []
  /-- The number of cells after which a scan yields errors alone. -/
  scanLimit : Option Nat := none
  /-- The number of writes so far. -/
  writes : Nat := 0

namespace FaultyStore

/-- A stream that yields errors alone after `limit` items. -/
def cutOff : Option Nat → CellStream → CellStream
  | none, cells => cells
  | some limit, cells =>
    cells.take limit ++ (cells.drop limit).map fun _ => .error (.store "scan interrupted")

instance [Store σ] : Store (FaultyStore σ) where
  scan s range := do pure (cutOff s.scanLimit (← Store.scan s.store range))
  write s rows :=
    if s.rejectedWrites.contains s.writes then
      (.error (.store "write rejected"), { s with writes := s.writes + 1 })
    else
      let (result, store) := Store.write s.store rows
      (result, { s with store, writes := s.writes + 1 })

end FaultyStore

end TaggedRows
