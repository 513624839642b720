import ScriptCase.Arguments.Switch
import ScriptCase.Text.Quoted

/-!
# Usage faults

Everything that may be wrong with the words of a command line.
-/

namespace ScriptCase

/-- Why the words of a command line cannot be understood. -/
inductive UsageFault where
  /-- An abbreviation stands for more than one name. -/
  | ambiguous (word : String) (names : List String)
  /-- A value was joined to a switch that takes none. -/
  | needlessValue (switch : Switch) (value : String)
  /-- A switch that takes a value has none. -/
  | missingValue (switch : Switch)
  /-- A value is not among the choices. -/
  | noSuchChoice (argument value : String) (choices : List String)
  /-- Two switches exclude each other. -/
  | excluded (switch other : Switch)
  /-- There is no path. -/
  | missingPaths
  /-- Words that nothing asks for. -/
  | unrecognized (words : List String)
  deriving DecidableEq, Repr

namespace UsageFault

/-- What users are told. -/
def message : UsageFault → String
  | .ambiguous word names => "ambiguous option: " ++ word ++ " could match " ++ ", ".intercalate names
  | .needlessValue s value => "argument " ++ s.shown ++ ": ignored explicit argument " ++ Text.quotedString value
  | .missingValue s => "argument " ++ s.shown ++ ": expected one argument"
  | .noSuchChoice argument value choices =>
    "argument " ++ argument ++ ": invalid choice: " ++ Text.quotedString value ++ " (choose from "
      ++ ", ".intercalate (choices.map Text.quotedString) ++ ")"
  | .excluded s other => "argument " ++ s.shown ++ ": not allowed with argument " ++ other.shown
  | .missingPaths => "the following arguments are required: paths"
  | .unrecognized words => "unrecognized arguments: " ++ " ".intercalate words

end UsageFault
end ScriptCase
