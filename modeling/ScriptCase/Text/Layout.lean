import ScriptCase.Text.Basic

/-!
# Lines and line breaks

A text is a first line followed by breaks and further lines. A carriage return with a line feed behind it is one
break; either of them alone is one as well. No other character ends a line. `Layout.ofText` takes a text apart and
`Layout.toText` puts it together (`toText_ofText`).
-/

namespace ScriptCase

/-- A line break. -/
inductive LineBreak where
  | crlf
  | cr
  | lf
  deriving DecidableEq, Repr

/-- The characters of a line break. -/
def LineBreak.toText : LineBreak → Text
  | .crlf => ['\r', '\n']
  | .cr => ['\r']
  | .lf => ['\n']

/-- A text as its lines and the breaks between them: always one line more than breaks. -/
structure Layout where
  first : Text
  rest : List (LineBreak × Text)

namespace Layout

/-- The lines in order. -/
def lines (l : Layout) : List Text := l.first :: l.rest.map (·.2)

/-- The breaks in order. -/
def breaks (l : Layout) : List LineBreak := l.rest.map (·.1)

/-- A layout with a character before its first line. -/
def consChar (c : Char) (l : Layout) : Layout := ⟨c :: l.first, l.rest⟩

/-- A layout with an empty line and a break before its first line. -/
def consBreak (b : LineBreak) (l : Layout) : Layout := ⟨[], (b, l.first) :: l.rest⟩

/-- Takes a text apart. -/
def ofText : Text → Layout
  | [] => ⟨[], []⟩
  | '\r' :: '\n' :: cs => consBreak .crlf (ofText cs)
  | '\r' :: cs => consBreak .cr (ofText cs)
  | '\n' :: cs => consBreak .lf (ofText cs)
  | c :: cs => consChar c (ofText cs)

/-- Puts the lines and breaks together. -/
def toText (l : Layout) : Text := l.first ++ l.rest.flatMap fun p => p.1.toText ++ p.2

@[simp] theorem toText_consChar (c : Char) (l : Layout) : (consChar c l).toText = c :: l.toText := rfl

@[simp] theorem toText_consBreak (b : LineBreak) (l : Layout) : (consBreak b l).toText = b.toText ++ l.toText := by
  simp [toText, consBreak]

/-- Taking a text apart loses nothing. -/
theorem toText_ofText (t : Text) : (ofText t).toText = t := by
  fun_induction ofText t with
  | case1 => rfl
  | case2 cs ih => simp [ih, LineBreak.toText]
  | case3 cs _ ih => simp [ih, LineBreak.toText]
  | case4 cs ih => simp [ih, LineBreak.toText]
  | case5 c cs _ _ _ ih => simp [ih]

/-- There is one line more than there are breaks. -/
theorem length_lines (l : Layout) : l.lines.length = l.breaks.length + 1 := by
  simp [lines, breaks]

/-- The same breaks between other lines, of which there are as many as before. -/
def withLines (l : Layout) (new : List Text) : Layout := ⟨new.headD [], l.breaks.zip new.tail⟩

end Layout

/-- The lines of a text. -/
def Text.lines (t : Text) : List Text := (Layout.ofText t).lines

end ScriptCase
