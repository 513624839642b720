import ScriptCase.Diff.Script
import ScriptCase.Text.Basic

/-!
# Unified diffs

Shows how one text becomes another: the changed lines with three lines around them, in hunks that tell where they
begin and how many lines they cover on either side.
-/

namespace ScriptCase
namespace Diff

/-- Characters that end a line on their own. A carriage return takes the line feed behind it along. -/
def endsLine (c : Char) : Bool :=
  c == '\n' || c == '\r' || c == '\x0b' || c == '\x0c' || c == '\x1c' || c == '\x1d' || c == '\x1e' || c == '\u0085'
    || c == '\u2028' || c == '\u2029'

/-- The lines of a text with their ends; `line` is the present one, last character first. -/
def linesFrom : (line : Text) → Text → List Text
  | line, [] => if line.isEmpty then [] else [line.reverse]
  | line, '\r' :: '\n' :: cs => ('\n' :: '\r' :: line).reverse :: linesFrom [] cs
  | line, c :: cs => if endsLine c then (c :: line).reverse :: linesFrom [] cs else linesFrom (c :: line) cs

/-- The lines of a text, each with the characters that end it. -/
def lines (t : Text) : List Text := linesFrom [] t

/-- The number of unchanged lines around a change. -/
def context : Nat := 3

/-- A part of a script with the positions at which it begins in both lists. -/
structure Hunk where
  oldStart : Nat
  newStart : Nat
  body : EditScript Text

/-- A script whose first stretch keeps no more than the context, and how many lines were cut off. -/
def trimFirst : EditScript Text → Nat × EditScript Text
  | .keep ls :: rest => (ls.length - context, .keep (ls.drop (ls.length - context)) :: rest)
  | s => (0, s)

/-- A script whose last stretch keeps no more than the context. -/
def trimLast (s : EditScript Text) : EditScript Text :=
  match s.reverse with
  | .keep ls :: rest => (.keep (ls.take context) :: rest).reverse
  | _ => s

/-- The script changes nothing. -/
def isIdle : EditScript Text → Bool
  | [] => true
  | [.keep _] => true
  | _ => false

/-- The hunks of the rest of a script, which begins at `i` and `j`, after the hunk `h` that is being made. A long
stretch that is kept ends a hunk and begins the next one. -/
def hunksFrom (h : Hunk) : (i j : Nat) → EditScript Text → List Hunk
  | _, _, [] => if isIdle h.body then [] else [h]
  | i, j, .keep ls :: rest =>
    let n := ls.length
    if 2 * context < n then
      { h with body := h.body ++ [.keep (ls.take context)] } ::
        hunksFrom ⟨i + n - context, j + n - context, [.keep (ls.drop (n - context))]⟩ (i + n) (j + n) rest
    else hunksFrom { h with body := h.body ++ [.keep ls] } (i + n) (j + n) rest
  | i, j, .change o n :: rest =>
    hunksFrom { h with body := h.body ++ [.change o n] } (i + o.length) (j + n.length) rest

/-- The hunks of a script. -/
def hunks (s : EditScript Text) : List Hunk :=
  let (start, s) := trimFirst s
  hunksFrom ⟨start, start, []⟩ start start (trimLast s)

/-- The lines from `start` on, as a hunk shows them: the number of the first one and how many there are. -/
def rangeText (start length : Nat) : String :=
  if length = 1 then toString (start + 1)
  else if length = 0 then toString start ++ ",0"
  else toString (start + 1) ++ "," ++ toString length

/-- The lines of a stretch with their marks. -/
def segmentLines : Segment Text → List Text
  | .keep ls => ls.map (' ' :: ·)
  | .change o n => o.map ('-' :: ·) ++ n.map ('+' :: ·)

/-- The lines of a hunk. -/
def hunkLines (h : Hunk) : List Text :=
  ("@@ -" ++ rangeText h.oldStart h.body.old.length ++ " +" ++ rangeText h.newStart h.body.new.length ++ " @@\n").toList
    :: h.body.flatMap segmentLines

/-- The lines of a diff. Texts without a difference have none. -/
def unifiedLines (old new : Text) (name : String) : List Text :=
  match hunks (.align (lines old) (lines new)) with
  | [] => []
  | hs => ("--- a/" ++ name ++ "\n").toList :: ("+++ b/" ++ name ++ "\n").toList :: hs.flatMap hunkLines

/-- The diff between two texts of one name. -/
def unified (old new : Text) (name : String) : Text := (unifiedLines old new name).flatten

end Diff
end ScriptCase
