import ScriptCase.Rule.Region

/-!
# Section headers

A section header is a line that holds nothing but a bracketed type word and its arguments, such as `[itemdef 0x1]`.
The type word is put in upper case.
-/

namespace ScriptCase
namespace Rule

open Text

/--
The rest of a header after its type word: the closing bracket alone, or blanks, the arguments and the closing bracket,
and then blanks up to the end. The bracket that closes is the last character that is no blank, and the arguments do
not run over a line feed.
-/
def closesHeader (rest : Text) : Bool :=
  match rest with
  | [] => false
  | c :: _ =>
    match (trimEnd rest).reverse with
    | ']' :: inner => inner.isEmpty || (isBlank c && !(trimStart inner.reverse).contains '\n')
    | _ => false

/-- Puts the type word of a section header in upper case. -/
def sectionHeader (line : Text) : Text :=
  let indent := line.takeWhile isBlank
  match line.drop indent.length with
  | '[' :: inner =>
    let word := inner.takeWhile isWord
    if !word.isEmpty && closesHeader (inner.drop word.length) then upperAt (indent.length + 1) word.length line
    else line
  | _ => line

end Rule
end ScriptCase
