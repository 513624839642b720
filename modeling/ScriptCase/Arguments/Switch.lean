import ScriptCase.Text.Basic

/-!
# Switches

The options of the command line. A switch has one or more names, and some switches take a value, which for one of them
is a choice between words.
-/

namespace ScriptCase

/-- An option of the command line. -/
inductive Switch where
  | help
  | version
  | config
  | verbose
  | workspace
  | logLevel
  | check
  | diff
  | keywords
  | encoding
  deriving DecidableEq, Repr

namespace Switch

/-- The names by which a switch is given. -/
def names : Switch → List String
  | .help => ["-h", "--help"]
  | .version => ["--version"]
  | .config => ["--config"]
  | .verbose => ["--verbose"]
  | .workspace => ["--workspace"]
  | .logLevel => ["--log-level"]
  | .check => ["--check"]
  | .diff => ["--diff"]
  | .keywords => ["--keywords"]
  | .encoding => ["--encoding"]

/-- The switch in messages: all its names. -/
def shown (s : Switch) : String := "/".intercalate s.names

/-- The switch is followed by a value. -/
def takesValue : Switch → Bool
  | .config | .workspace | .logLevel | .keywords | .encoding => true
  | .help | .version | .verbose | .check | .diff => false

/-- The values among which a switch lets choose; none if every value will do. -/
def choices? : Switch → Option (List String)
  | .logLevel => some ["debug", "info", "warn", "error"]
  | _ => none

/-- The switch that may not be given together with this one. -/
def rival? : Switch → Option Switch
  | .check => some .diff
  | .diff => some .check
  | _ => none

end Switch

/-- A switch as it was given, with its value if it has one. Two hyphens are no value. -/
structure Given where
  switch : Switch
  value : Option String
  deriving DecidableEq, Repr

namespace Given

/-- The last time that a switch was given counts. -/
def last? (s : Switch) (gs : List Given) : Option Given := gs.reverse.find? fun g => g.switch == s

/-- The text that was given for a switch; where it is no value, the text is empty. -/
def text? (s : Switch) (gs : List Given) : Option String := (last? s gs).map fun g => g.value.getD ""

/-- The path that was given for a switch, unless it is empty. -/
def path? (s : Switch) (gs : List Given) : Option String := (text? s gs).filter (· != "")

/-- The switch was given. -/
def has (s : Switch) (gs : List Given) : Bool := gs.any fun g => g.switch == s

end Given
end ScriptCase
