import ScriptCase.Rule.Region

/-!
# Tokens at the start of a line

Assignments, scoped variables and control words are recognised by a token that stands first on its line, behind blanks
only. The three differ in what must follow the token.
-/

namespace ScriptCase
namespace Rule

open Text

/-- What follows a leading token. -/
inductive Follow where
  /-- A full stop or an equals sign, as after a scope (`tag.x`, `tag=1`). -/
  | dotOrEquals
  /-- An equals sign, as after a property (`name=x`). -/
  | equals
  /-- The end of a word, as after a control word (`if (x)`). -/
  | wordEnd

/-- The condition on the last character of the token and the character after it. -/
def Follow.holds : Follow → (last next : Option Char) → Bool
  | .dotOrEquals, _, next => next == some '.' || next == some '='
  | .equals, _, next => next == some '='
  | .wordEnd, last, next => isBoundary last next

/-- The token stands at position `start` of the line and what follows it is right. -/
def leadsAt (follow : Follow) (token line : Text) (start : Nat) : Bool :=
  let stop := start + token.length
  startsWithToken token (line.drop start) && follow.holds ((line.take stop).getLast?) ((line.drop stop).head?)

/--
Where the token leads the line. Only blanks stand before it; as a token may begin with blanks itself, the longest run
of blanks before it is preferred.
-/
def leadingStart? (follow : Follow) (token line : Text) : Option Nat :=
  (List.range ((line.takeWhile isBlank).length + 1)).reverse.find? (leadsAt follow token line)

/-- Puts the token in upper case where it leads the line. -/
def upperLeading (follow : Follow) (line token : Text) : Text :=
  match leadingStart? follow token line with
  | some start => upperAt start token.length line
  | none => line

/-- Tries the tokens one after another, each on the line that the ones before it left. -/
def leading (follow : Follow) (tokens : List Text) (line : Text) : Text :=
  tokens.foldl (upperLeading follow) line

end Rule
end ScriptCase
