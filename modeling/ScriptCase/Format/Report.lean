import ScriptCase.Format.Formatter
import ScriptCase.Log
import ScriptCase.Text.Layout

/-!
# Formatting a document

Every line of a document is formatted by itself and gets one edit, which replaces the whole line. A line that cannot be
formatted keeps its text and is listed among the failures. Line breaks are never touched.
-/

namespace ScriptCase

/-- The replacement of a whole line; lines and columns count from 0. -/
structure LineEdit where
  line : Nat
  start : Nat
  stop : Nat
  newText : Text
  deriving DecidableEq, Repr

/-- A line that kept its text because a rule failed on it; lines count from 0. -/
structure LineFailure where
  line : Int
  message : String
  rule : Option String
  deriving DecidableEq, Repr

/-- The failure in one line. -/
def LineFailure.text (f : LineFailure) : String :=
  "line " ++ toString (f.line + 1)
    ++ (match Issue.shown? f.rule with | some r => " (" ++ r ++ ")" | none => "")
    ++ ": " ++ f.message

/-- The warning that is logged about a failure. -/
def LineFailure.record (f : LineFailure) : Log.Record :=
  let issue : Issue := { Issue.ofKind .lineFormat f.message .unknown none with rule := f.rule }
  ⟨.warning, .lines, (issue.atLine (f.line + 1)).format⟩

/-- What came of formatting a document. -/
structure Report where
  edits : List LineEdit
  text : Text
  isChanged : Bool
  failures : List LineFailure

/-- Every line was formatted. -/
def Report.isSuccess (r : Report) : Bool := r.failures.isEmpty

/-- The records that formatting the document logs. -/
def Report.records (r : Report) : List Log.Record := r.failures.map LineFailure.record

/-- One line of a document and what came of formatting it. -/
structure LineResult where
  index : Nat
  line : Text
  outcome : Except LineFault Text

namespace LineResult

/-- The new text of the line: the line itself if it cannot be formatted. -/
def newText (r : LineResult) : Text :=
  match r.outcome with
  | .ok new => new
  | .error _ => r.line

/-- The edit of the line. -/
def edit (r : LineResult) : LineEdit := ⟨r.index, 0, r.line.length, r.newText⟩

/-- The failure of the line, if it cannot be formatted. -/
def failure? (r : LineResult) : Option LineFailure :=
  match r.outcome with
  | .ok _ => none
  | .error e => some ⟨r.index, e.message, some e.rule⟩

end LineResult

namespace Formatter

/-- Formats the lines of a document; a line that is missing counts as empty. -/
def formatDocument (f : Formatter) (lines : List (Option Text)) : Report :=
  let results := lines.zipIdx.map fun (line, index) => LineResult.mk index (line.getD []) (f.formatLine (line.getD []))
  { edits := results.map LineResult.edit
    text := Text.join ['\n'] (results.map LineResult.newText)
    isChanged := results.any fun r => r.newText != r.line
    failures := results.filterMap LineResult.failure? }

/-- Formats a text and keeps every line break of it. -/
def formatText (f : Formatter) (t : Text) : Report :=
  let layout := Layout.ofText t
  let report := f.formatDocument (layout.lines.map some)
  let new := (layout.withLines (report.edits.map (·.newText))).toText
  { report with text := new, isChanged := new != t }

end Formatter
end ScriptCase
