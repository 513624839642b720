import ScriptCase.Text.Printable

/-!
# Quoted text

Messages show a text between quotes on one line: apostrophes, or double quotes where the text holds apostrophes and no
double quotes. Backslashes, the quote itself and characters that are not printable are escaped.
-/

namespace ScriptCase
namespace Text

/-- The lower-case hexadecimal digits of a number, at least `width` of them. -/
def hex (width n : Nat) : Text :=
  let ds := Nat.toDigits 16 n
  List.replicate (width - ds.length) '0' ++ ds

/-- The numbered escape of a character, in its shortest form. -/
def numberedEscape (c : Char) : Text :=
  if c.toNat < 0x100 then '\\' :: 'x' :: hex 2 c.toNat
  else if c.toNat < 0x10000 then '\\' :: 'u' :: hex 4 c.toNat
  else '\\' :: 'U' :: hex 8 c.toNat

/-- A character between the quotes `q`. -/
def quotedChar (q c : Char) : Text :=
  if c = '\\' ∨ c = q then ['\\', c]
  else if c = '\n' then ['\\', 'n']
  else if c = '\r' then ['\\', 'r']
  else if c = '\t' then ['\\', 't']
  else if isPrintable c then [c]
  else numberedEscape c

/-- The quote in which a text is shown. -/
def quoteFor (t : Text) : Char := if t.elem '\x27' && !t.elem '\x22' then '\x22' else '\x27'

/-- The text between quotes. -/
def quoted (t : Text) : Text := quoteFor t :: t.flatMap (quotedChar (quoteFor t)) ++ [quoteFor t]

/-- The string between quotes. -/
def quotedString (s : String) : String := String.ofList (quoted s.toList)

end Text
end ScriptCase
