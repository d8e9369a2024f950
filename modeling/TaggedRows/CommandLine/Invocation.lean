import TaggedRows.CommandLine.Options
import TaggedRows.Text.Numeral
import TaggedRows.Time.DateText

/-!
# Invocations

What a command line asks for.  The options about settings may stand before and behind the command;
given in both places, the one behind it counts.
-/

namespace TaggedRows.CommandLine

open TaggedRows.Text TaggedRows.Time

/-- What is to be done. -/
inductive Command where
  /-- Print the row key of a source, now or at a time in milliseconds. -/
  | deriveKey (sourceId : String) (millis : Option Int)
  /-- Print the ranges that cover a time window. -/
  | ranges (begin stop : Instant)
  /-- Turn records into cells. -/
  | encode (input : Option String)
  /-- Turn cells into records. -/
  | decode (input : Option String) (skip : Bool)

/-- The options about settings. -/
structure Globals where
  config : Option String
  keyPrefix : Option String
  shards : Option Nat

/-- What a command line asks for. -/
structure Invocation where
  globals : Globals
  command : Command

/-! ## Values -/

/-- An optional value that has to be well-formed where it is given. -/
def optional (read? : String → Option α) : Option String → Option (Option α)
  | none => some none
  | some text => (read? text).map some

/-- A path, which may not be empty. -/
def path? (text : String) : Option String := if text = "" then none else some text

/-- A signed 64-bit number. -/
def int64? (text : String) : Option Int := (intOf? text.toList).filter isInt64

/-- An unsigned 32-bit number. -/
def nat32? (text : String) : Option Nat := do
  let i ← int64? text
  if 0 ≤ i ∧ i ≤ 4294967295 then some i.toNat else none

/-! ## Options -/

/-- The options that may stand anywhere. -/
def globalSpecs : List OptionSpec :=
  [{ long := "config", letter := some 'c' }, { long := "prefix" }, { long := "shards" },
    { long := "verbose", letter := some 'v', takesValue := false }]

/-- The commands, each with its own options. -/
def commandSpecs : List (String × List OptionSpec) :=
  [("derive-key", [{ long := "timestamp", letter := some 't' }]),
    ("ranges", [{ long := "begin" }, { long := "end" }]),
    ("encode", [{ long := "input", letter := some 'i' }]),
    ("decode", [{ long := "input", letter := some 'i' },
      { long := "skip-unrecognized", takesValue := false }])]

/-- Read the options about settings. -/
def globals? (m : Matches) : Option Globals := do
  pure
    { config := ← optional path? (m.value? "config")
      keyPrefix := m.value? "prefix"
      shards := ← optional nat32? (m.value? "shards") }

/-- Options behind the command win over those before it. -/
def Globals.override (before behind : Globals) : Globals :=
  { config := behind.config <|> before.config
    keyPrefix := behind.keyPrefix <|> before.keyPrefix
    shards := behind.shards <|> before.shards }

/-- Read a command of the given name. -/
def command? (name : String) (m : Matches) : Option Command :=
  match name, m.words with
  | "derive-key", [sourceId] => do
    pure (.deriveKey sourceId (← optional int64? (m.value? "timestamp")))
  | "ranges", [] => do
    let begin ← (m.value? "begin").bind Instant.ofText?
    let stop ← (m.value? "end").bind Instant.ofText?
    pure (.ranges begin stop)
  | "encode", [] => do pure (.encode (← optional path? (m.value? "input")))
  | "decode", [] => do
    pure (.decode (← optional path? (m.value? "input")) (m.has "skip-unrecognized"))
  | _, _ => none

/-- Read a command line, which has to name a command. -/
def Invocation.ofWords? (words : List String) : Option Invocation := do
  let (before, found) ← matchWords globalSpecs (commandSpecs.map (·.1)) {} none words
  let (name, rest) ← found
  let specs ← commandSpecs.lookup name
  let (behind, _) ← matchWords (globalSpecs ++ specs) [] {} none rest
  if before.words ≠ [] then none
  else
    pure
      { globals := (← globals? before).override (← globals? behind)
        command := ← command? name behind }

end TaggedRows.CommandLine
