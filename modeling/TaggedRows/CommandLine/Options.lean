/-!
# Options

How words of a command line are matched with options.

* `--name` and `-n` name an option; several letters may share one dash, the last of which may take a
  value.
* A value is the rest of the word, after an optional `=`, or else the next word.  That word may not
  begin with a dash, unless it is a dash alone.
* No option is given twice, and an option without a value gets none.
* `--` ends the options; what follows is taken as it is.
* Where commands are expected, the first word that is no option has to be one, and the words behind
  it are left to it.
-/

namespace TaggedRows.CommandLine

/-- An option: its long name, its letter, and whether it takes a value. -/
structure OptionSpec where
  long : String
  letter : Option Char := none
  takesValue : Bool := true

/-- What was matched so far: options by long name, each with its value if it takes one, and other
words. -/
structure Matches where
  options : List (String × Option String) := []
  words : List String := []

namespace Matches

/-- Whether an option was given. -/
def has (m : Matches) (long : String) : Bool := m.options.any (·.1 == long)

/-- The value of an option. -/
def value? (m : Matches) (long : String) : Option String :=
  (m.options.find? (·.1 == long)).bind (·.2)

/-- Add an option that was not given before. -/
def add (m : Matches) (long : String) (value : Option String) : Option Matches :=
  if m.has long then none else some { m with options := m.options ++ [(long, value)] }

end Matches

/-- Split a text at its first `=`. -/
def splitAtEquals : List Char → List Char × Option (List Char)
  | [] => ([], none)
  | '=' :: cs => ([], some cs)
  | c :: cs =>
    let (name, value) := splitAtEquals cs
    (c :: name, value)

/-- An option that still waits for its value. -/
abbrev Waiting := Option String

/-- Match a word that begins with two dashes. -/
def matchLong (specs : List OptionSpec) (m : Matches) (cs : List Char) :
    Option (Matches × Waiting) := do
  let (name, value) := splitAtEquals cs
  let spec ← specs.find? fun spec => spec.long.toList == name
  match spec.takesValue, value with
  | true, some value => pure (← m.add spec.long (some (String.ofList value)), none)
  | true, none => pure (m, some spec.long)
  | false, some _ => none
  | false, none => pure (← m.add spec.long none, none)

/-- Match letters behind one dash. -/
def matchLetters (specs : List OptionSpec) : Matches → List Char → Option (Matches × Waiting)
  | m, [] => some (m, none)
  | m, c :: cs => do
    let spec ← specs.find? fun spec => spec.letter == some c
    if spec.takesValue then
      match cs with
      | [] => pure (m, some spec.long)
      | '=' :: value => pure (← m.add spec.long (some (String.ofList value)), none)
      | value => pure (← m.add spec.long (some (String.ofList value)), none)
    else matchLetters specs (← m.add spec.long none) cs

/-- Match words from the first on.  The result has the command and the words left to it, if a
command was found. -/
def matchWords (specs : List OptionSpec) (commands : List String) :
    Matches → Waiting → List String → Option (Matches × Option (String × List String))
  | m, none, [] => some (m, none)
  | _, some _, [] => none
  | m, waiting, word :: rest =>
    match word.toList, waiting with
    | ['-', '-'], none => some ({ m with words := m.words ++ rest }, none)
    | '-' :: '-' :: cs, none => do
      let (m, waiting) ← matchLong specs m cs
      matchWords specs commands m waiting rest
    | '-' :: c :: cs, none => do
      let (m, waiting) ← matchLetters specs m (c :: cs)
      matchWords specs commands m waiting rest
    | '-' :: _ :: _, some _ => none
    | _, some long => do matchWords specs commands (← m.add long (some word)) none rest
    | _, none =>
      if commands.contains word then some (m, some (word, rest))
      else matchWords specs commands { m with words := m.words ++ [word] } none rest

end TaggedRows.CommandLine
