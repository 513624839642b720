import ScriptCase.Keyword.Bundled
import ScriptCase.Rule.Builtin

/-!
# Formatting a line

A line loses its trailing blanks. If it is a comment that is all; otherwise the rules are applied to it one after
another.
-/

namespace ScriptCase

/-- A comment begins with two slashes, behind blanks only. -/
def isComment (line : Text) : Bool :=
  match Text.trimStart line with
  | '/' :: '/' :: _ => true
  | _ => false

/-- The rules by which lines are formatted, in order. -/
structure Formatter where
  rules : List Rule

/-- The rule that failed on a line, and its message. -/
structure LineFault where
  rule : String
  message : String
  deriving DecidableEq, Repr

/-- The issue about a line that cannot be formatted. -/
def LineFault.issue (f : LineFault) : Issue :=
  { Issue.ofKind .lineFormat f.message .unknown none with rule := some f.rule }

/-- The tokens of a table that a built-in rule looks for. -/
def Builtin.tokensIn (b : Builtin) (t : Table) : List Text :=
  match b.category? with
  | some c => t.tokens c
  | none => []

namespace Formatter

/-- The built-in rules for a keyword table. -/
def ofTable (t : Table) : Formatter := ⟨Builtin.order.map fun b => b.rule (b.tokensIn t)⟩

/-- One rule on a line; a failure is kept with the name of the rule. -/
def applyRule (line : Text) (r : Rule) : Except LineFault Text :=
  match r.apply line with
  | .ok new => .ok new
  | .error f => .error ⟨r.id, f.message⟩

/-- Formats one line. -/
def formatLine (f : Formatter) (line : Text) : Except LineFault Text :=
  let trimmed := Text.trimEnd line
  if isComment trimmed then .ok trimmed else f.rules.foldlM applyRule trimmed

end Formatter
end ScriptCase
