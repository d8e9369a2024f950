import TaggedRows.Json.Fields
import TaggedRows.Ingest.EventTable

/-!
# Event tables in JSON
-/

namespace TaggedRows

open Json

namespace BufferLimits

/-- The limits of a row buffer as JSON. -/
def toJson (l : BufferLimits) : Json :=
  ofMembers [("max_memory_bytes", ofNat l.maxBytes), ("max_latency_ms", ofNat l.maxWaitMillis)]

/-- Read the limits of a row buffer, which are 64-bit numbers. -/
def ofJson? (j : Json) : Option BufferLimits := do
  match (← j.fields? [["max_memory_bytes"], ["max_latency_ms"]]).values with
  | [bytes, wait] =>
    let default : BufferLimits := {}
    pure
      { maxBytes := ← withDefault default.maxBytes (natUpTo? 18446744073709551615) bytes
        maxWaitMillis := ← withDefault default.maxWaitMillis (natUpTo? 18446744073709551615) wait }
  | _ => none

end BufferLimits

namespace EventTable

/-- The settings of an event table as JSON. -/
def toJson (t : EventTable) : Json :=
  ofMembers [("event_table", ofText t.name), ("uuid_prefix", ofText t.keyPrefix),
    ("shard_count", ofNat t.shardCount), ("visibility", Json.ofText? t.label),
    ("visibility_by_field", Json.ofText? t.labelField), ("batch", t.limits.toJson)]

/-- Read the settings of an event table.  The number of shards is a 32-bit number and goes by the
name `splits` too. -/
def ofJson? (j : Json) : Option EventTable := do
  match (← j.fields? [["event_table"], ["uuid_prefix"], ["shard_count", "splits"], ["visibility"],
    ["visibility_by_field"], ["batch"]]).values with
  | [name, keyPrefix, shardCount, label, labelField, limits] =>
    let default : EventTable := {}
    pure
      { name := ← withDefault default.name text? name
        keyPrefix := ← withDefault default.keyPrefix text? keyPrefix
        shardCount := ← withDefault default.shardCount (natUpTo? 4294967295) shardCount
        label := ← withDefault none optionalText? label
        labelField := ← withDefault none optionalText? labelField
        limits := ← withDefault default.limits BufferLimits.ofJson? limits }
  | _ => none

/-- Read and check the settings of an event table. -/
def ofText (text : String) : Except TableError EventTable :=
  match (Json.read? text).bind ofJson? with
  | none => .error .malformedJson
  | some table => do
    table.validate
    pure table

end EventTable

end TaggedRows
