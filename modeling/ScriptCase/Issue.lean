/-!
# Issues

An issue is what the formatter tells its users about: a message, the place it concerns, a code by which tools know it,
and a hint. `Issue.format` is the one line in which all of it is shown.
-/

namespace ScriptCase

/-- A place in a file; every part of it may be unknown. Lines and columns count from 1. -/
structure Location where
  path : Option String
  line : Option Int
  column : Option Int
  deriving DecidableEq, Repr

/-- The place of an issue that concerns no place. -/
def Location.unknown : Location := ⟨none, none, none⟩

/-- The path, unless it is missing or empty. -/
def Location.path? (l : Location) : Option String := l.path.filter (· != "")

/-- The text shown for a place that is not known. -/
def Location.unknownText : String := "unknown location"

/-- The place in one phrase. A column is shown only together with a path and a line. -/
def Location.describe (l : Location) : String :=
  match l.path?, l.line, l.column with
  | some p, some n, some k => p ++ ":" ++ toString n ++ ":" ++ toString k
  | some p, some n, none => p ++ ":" ++ toString n
  | some p, none, _ => p
  | none, some n, _ => "line " ++ toString n
  | none, none, _ => Location.unknownText

/-- What an issue is about. -/
inductive Issue.Kind where
  | general
  | keywordTable
  | lineFormat
  | configuration
  deriving DecidableEq, Repr

/-- The code that an issue of this kind carries unless it has one of its own. -/
def Issue.Kind.code? : Issue.Kind → Option String
  | .general => none
  | .keywordTable => some "KEYWORD_TABLE"
  | .lineFormat => some "LINE_FORMAT"
  | .configuration => some "CONFIG"

/-- Something that users are told about. `rule` names the rule that failed, for issues about a line. -/
structure Issue where
  kind : Issue.Kind
  message : String
  location : Location
  code : Option String
  hint : Option String
  rule : Option String
  deriving DecidableEq, Repr

namespace Issue

/-- An issue with the code of its kind. -/
def ofKind (kind : Kind) (message : String) (location : Location) (hint : Option String) : Issue :=
  ⟨kind, message, location, kind.code?, hint, none⟩

/-- The text, unless it is missing or empty. -/
def shown? (s : Option String) : Option String := s.filter (· != "")

/-- The place and the code, as far as they are known, in parentheses. -/
def details (i : Issue) : String :=
  let place := i.location.describe
  let parts := (if place == Location.unknownText then [] else [place]) ++ (shown? i.code).toList
  if parts.isEmpty then "" else " (" ++ "; ".intercalate parts ++ ")"

/-- The issue in one line: rule, message, place and code, hint. -/
def format (i : Issue) : String :=
  let parts := [i.message ++ i.details] ++ ((shown? i.hint).map ("Hint: " ++ ·)).toList
  let line := " ".intercalate (parts.filter (· != ""))
  match shown? i.rule with
  | some r => "[" ++ r ++ "] " ++ line
  | none => line

/-- The same message about one line of the same file. Code, hint and column do not carry over. -/
def atLine (i : Issue) (line : Int) : Issue :=
  ⟨.lineFormat, i.message, ⟨i.location.path, some line, none⟩, Kind.lineFormat.code?, none, i.rule⟩

end Issue
end ScriptCase
