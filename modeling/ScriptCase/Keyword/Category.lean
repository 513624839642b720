/-!
# Keyword categories

Every keyword belongs to the category of the rule that looks for it.
-/

namespace ScriptCase

/-- The categories of keywords. -/
inductive Category where
  /-- Property names, at the start of a line before an equals sign. -/
  | assignment
  /-- Variable scopes, at the start of a line before a full stop or an equals sign. -/
  | scope
  /-- Control words, at the start of a line. -/
  | control
  /-- Commands, anywhere on a line. -/
  | command
  deriving DecidableEq, Repr

namespace Category

/-- The categories in the order in which they are checked and listed. -/
def all : List Category := [.assignment, .scope, .control, .command]

/-- The name of a category in tables and messages. -/
def name : Category → String
  | .assignment => "assignment"
  | .scope => "scoped"
  | .control => "control"
  | .command => "command"

/-- The category of a name. -/
def ofName? (s : String) : Option Category := all.find? (·.name == s)

/-- The names of all categories, as hints list them. -/
def listing : String := ", ".intercalate (all.map name)

theorem mem_all (c : Category) : c ∈ all := by cases c <;> decide

theorem ofName?_name (c : Category) : ofName? c.name = some c := by cases c <;> rfl

end Category
end ScriptCase
