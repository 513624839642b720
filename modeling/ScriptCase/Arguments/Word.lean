import ScriptCase.Arguments.Fault
import ScriptCase.Arguments.Grammar
import ScriptCase.Text.Decimal

/-!
# The words of a command line

Every word is told apart before any of them is acted on. A word with a hyphen in front is a switch, by its full name or
by an abbreviation that fits one name only, with or without a value behind an equals sign; what looks like a negative
number or holds a space is none. Behind a word of two hyphens there are no switches any more.
-/

namespace ScriptCase

/-- What a word of a command line is. -/
inductive Word where
  | operand
  /-- Two hyphens: all further words are operands. -/
  | terminator
  /-- A switch, and the value that was joined to it. -/
  | switch (s : Switch) (value : Option String)
  /-- The short name of a switch that takes no value, and further characters in the same word. -/
  | cluster (s : Switch) (rest : Text)
  /-- A switch that the grammar does not know. -/
  | unknown
  deriving DecidableEq, Repr

namespace Word

/-- The part of a word before its first equals sign, and the part behind it. -/
def splitValue (t : Text) : Text × Option Text :=
  let name := t.takeWhile (· != '=')
  match t.drop name.length with
  | [] => (name, none)
  | _ :: value => (name, some value)

/-- The text without a line feed at its end. -/
def withoutLastFeed (t : Text) : Text := if t.getLast? == some '\n' then t.dropLast else t

/-- Digits, or a point with digits behind it and perhaps some before. -/
def isNumeral (t : Text) : Bool :=
  let front := t.takeWhile Text.isDecimal
  match t.drop front.length with
  | [] => !front.isEmpty
  | '.' :: fraction => !fraction.isEmpty && fraction.all Text.isDecimal
  | _ => false

/-- A hyphen and a numeral; a line feed at the end does not count. -/
def isNegative : Text → Bool
  | '-' :: t => isNumeral (withoutLastFeed t)
  | _ => false

/-- The names that begin with an abbreviation of two hyphens and more. -/
def expansions (g : Grammar) (abbreviation : Text) : List (String × Switch) :=
  g.names.filter fun n => abbreviation.isPrefixOf n.1.toList

/-- A word that is no name and no abbreviation. -/
def other (t : Text) : Word := if isNegative t || t.contains ' ' then .operand else .unknown

/-- A word of two hyphens and more that is no name. -/
def ofLong (g : Grammar) (word : String) : Except UsageFault Word :=
  let (name, value) := splitValue word.toList
  match expansions g name with
  | [] => .ok (other word.toList)
  | [(_, s)] => .ok (.switch s (value.map String.ofList))
  | several => .error (.ambiguous word (several.map (·.1)))

/-- A word of one hyphen that is no name. -/
def ofShort (g : Grammar) (t : Text) : Word :=
  match g.switch? (String.ofList (t.take 2)) with
  | some s => .cluster s (t.drop 2)
  | none => other t

/-- A switch by its full name with a value behind an equals sign. Behind a short name that takes no value there are
further short names. -/
def joined (s : Switch) (name value : Text) : Word :=
  if name.length = 2 ∧ !s.takesValue ∧ value ≠ [] then .cluster s value else .switch s (some (String.ofList value))

/-- The switch that a word names in full, with the value behind an equals sign. -/
def named? (g : Grammar) (word : String) : Option Word :=
  match g.switch? word with
  | some s => some (.switch s none)
  | none =>
    match splitValue word.toList with
    | (name, some value) => (g.switch? (String.ofList name)).map fun s => joined s name value
    | (_, none) => none

/-- What a word is. -/
def classify (g : Grammar) (word : String) : Except UsageFault Word :=
  match word.toList with
  | '-' :: second :: _ =>
    match named? g word with
    | some w => .ok w
    | none => if second = '-' then ofLong g word else .ok (ofShort g word.toList)
  | _ => .ok .operand

/-- What the words of a command line are. -/
def classifyAll (g : Grammar) : List String → Except UsageFault (List (String × Word))
  | [] => .ok []
  | word :: words =>
    if word = "--" then .ok ((word, .terminator) :: words.map (·, .operand))
    else do
      let w ← classify g word
      return (word, w) :: (← classifyAll g words)

end Word
end ScriptCase
