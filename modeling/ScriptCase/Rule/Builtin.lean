import ScriptCase.Keyword.Category
import ScriptCase.Rule.Command
import ScriptCase.Rule.Leading
import ScriptCase.Rule.SectionHeader
import ScriptCase.Rule.Trigger

/-!
# The built-in rules

Six rules make up the formatter. Section headers come before every rule that looks at the start of a line, triggers
before assignments, as `ON=` is one, and commands last.
-/

namespace ScriptCase

/-- A rule that could not be applied to a line: the kind of failure and what it had to say. -/
structure RuleFault where
  kind : String
  detail : String
  deriving DecidableEq, Repr

/-- The message of a failure. -/
def RuleFault.message (f : RuleFault) : String := f.kind ++ ": " ++ f.detail

/-- A rule, which changes lines or fails on them. -/
structure Rule where
  id : String
  apply : Text → Except RuleFault Text

/-- The built-in rules. -/
inductive Builtin where
  | sectionHeader
  | trigger
  | scopedAssignment
  | assignment
  | control
  | command
  deriving DecidableEq, Repr

namespace Builtin

/-- The built-in rules in the order in which they run. -/
def order : List Builtin := [.sectionHeader, .trigger, .scopedAssignment, .assignment, .control, .command]

/-- The name of a rule. -/
def id : Builtin → String
  | .sectionHeader => "section-header"
  | .trigger => "trigger"
  | .scopedAssignment => "scoped-assignment"
  | .assignment => "assignment"
  | .control => "control"
  | .command => "command"

/-- The rule of a name. -/
def ofId? (s : String) : Option Builtin := order.find? (·.id == s)

/-- What a rule does. -/
def description : Builtin → String
  | .sectionHeader => "Uppercase the type word of section headers"
  | .trigger => "Uppercase trigger declarations"
  | .scopedAssignment => "Uppercase scoped variable prefixes"
  | .assignment => "Uppercase property assignment keywords"
  | .control => "Uppercase control flow keywords"
  | .command => "Uppercase known command names"

/-- The category of keywords that a rule looks for. -/
def category? : Builtin → Option Category
  | .sectionHeader => none
  | .trigger => none
  | .scopedAssignment => some .scope
  | .assignment => some .assignment
  | .control => some .control
  | .command => some .command

/-- Applies a rule to a line; rules without a category of keywords do not look at the tokens. -/
def apply (b : Builtin) (tokens : List Text) (line : Text) : Text :=
  match b with
  | .sectionHeader => Rule.sectionHeader line
  | .trigger => Rule.trigger line
  | .scopedAssignment => Rule.leading .dotOrEquals tokens line
  | .assignment => Rule.leading .equals tokens line
  | .control => Rule.leading .wordEnd tokens line
  | .command => Rule.command tokens line

/-- The rule for a list of tokens. A built-in rule never fails. -/
def rule (b : Builtin) (tokens : List Text) : Rule := ⟨b.id, fun line => .ok (b.apply tokens line)⟩

end Builtin
end ScriptCase
