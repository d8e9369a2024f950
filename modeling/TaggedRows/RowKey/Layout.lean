import TaggedRows.RowKey.Shard
import TaggedRows.RowRange
import TaggedRows.Time.DateText

/-!
# Row keys

A row key reads `<prefix><shard>_<milliseconds>_<source id>`.  The shard depends on the source
id alone, so that the rows of one source stay together in time order while sources spread over the
shards.

`KeyLayout.rowId` writes keys, `KeyLayout.parse?` takes them apart, and
`KeyLayout.windowRanges` gives the ranges, one for each shard, that hold the keys of a span of
time.
-/

namespace TaggedRows

open TaggedRows.Text TaggedRows.Time

/-! ## Errors -/

/-- What can be wrong with a request about row keys. -/
inductive KeyError where
  | invalidShardCount (shardCount : Nat)
  | windowEndsBeforeBegin (begin stop : Instant)

/-- The text of the error. -/
def KeyError.message : KeyError → String
  | .invalidShardCount n =>
    "invalid shard count: " ++ natText n ++ " (must be at least 1)"
  | .windowEndsBeforeBegin begin stop =>
    "invalid timestamp: window end " ++ stop.message ++ " precedes begin " ++ begin.message

/-- The digits of the shard for a hash. -/
def shardOfHash (hash : Int32) (shardCount : Nat) : Except KeyError String :=
  if shardCount = 0 then .error (.invalidShardCount shardCount)
  else .ok (base36 (shardNumber hash shardCount))

/-! ## Layouts -/

/-- What all row keys of a table share: a prefix and the number of shards. -/
structure KeyLayout where
  keyPrefix : String := ""
  shardCount : Nat := 36
  shardCount_pos : 0 < shardCount := by decide
deriving DecidableEq

/-- The parts of a row key. -/
structure RowKey where
  shard : String
  millis : Int
  sourceId : String
deriving DecidableEq

/-- Cut a text at the first `mark`, which belongs to neither part. -/
def cutAt? (mark : Char) : List Char → Option (List Char × List Char)
  | [] => none
  | c :: cs => if c = mark then some ([], cs) else (cutAt? mark cs).map fun (l, r) => (c :: l, r)

/-- The text of a row key. -/
def RowKey.text (keyPrefix : String) (key : RowKey) : String :=
  keyPrefix ++ key.shard ++ "_" ++ intText key.millis ++ "_" ++ key.sourceId

/-- The row key of a source at a time, unless there is no shard to put it in. -/
def rowKeyText (sourceId : String) (millis : Int) (shardCount : Nat) (keyPrefix : String) :
    Except KeyError String := do
  let shard ← shardOfHash (textHash sourceId) shardCount
  pure (RowKey.text keyPrefix ⟨shard, millis, sourceId⟩)

namespace KeyLayout

instance : Inhabited KeyLayout := ⟨{}⟩

/-- A layout with a checked number of shards. -/
def make (keyPrefix : String) (shardCount : Nat) : Except KeyError KeyLayout :=
  if h : 0 < shardCount then .ok ⟨keyPrefix, shardCount, h⟩
  else .error (.invalidShardCount shardCount)

/-- The row key of a source at a time in milliseconds. -/
def rowId (keys : KeyLayout) (sourceId : String) (millis : Int) : String :=
  RowKey.text keys.keyPrefix
    ⟨base36 (shardNumber (textHash sourceId) keys.shardCount), millis, sourceId⟩

/-- The row key of a source at an instant. -/
def rowIdAt (keys : KeyLayout) (sourceId : String) (time : Instant) : String :=
  keys.rowId sourceId time.millis

/-- The digits of every shard, in order. -/
def shardNames (keys : KeyLayout) : List String := (List.range keys.shardCount).map base36

/-- Take a row key apart.  The shard has to be made of base-36 digits, the milliseconds have to be
a 64-bit number, and the source id is whatever follows, separators included. -/
def parse? (keys : KeyLayout) (row : String) : Option RowKey := do
  let rest ← keys.keyPrefix.toList.isPrefixOf? row.toList
  let (shard, rest) ← cutAt? '_' rest
  if shard = [] ∨ ¬ shard.all isBase36Digit then none
  else do
    let (millis, sourceId) ← cutAt? '_' rest
    let millis ← (intOf? millis).filter isInt64
    pure ⟨String.ofList shard, millis, String.ofList sourceId⟩

/-- Milliseconds by which a time window reaches beyond its end, so that the whole last second is
covered. -/
def windowPad : Int := 1000

/-- The ranges, one for each shard, of the keys from `begin` to the end of the second of `stop`.
Bounds compare as text, so both times should have the same number of digits. -/
def windowRanges (keys : KeyLayout) (begin stop : Instant) : Except KeyError (List RowRange) :=
  if stop.before begin then .error (.windowEndsBeforeBegin begin stop)
  else
    .ok (keys.shardNames.map fun shard =>
      RowRange.span (keys.keyPrefix ++ shard ++ "_" ++ intText begin.millis)
        (keys.keyPrefix ++ shard ++ "_" ++ intText (stop.millis + windowPad)))

end KeyLayout

end TaggedRows
