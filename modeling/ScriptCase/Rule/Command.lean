import ScriptCase.Rule.Region

/-!
# Commands

A command name is put in upper case wherever it stands as a whole word with a blank, an opening parenthesis or the end
of the line behind it.
-/

namespace ScriptCase
namespace Rule

open Text

/-- A command ends before a blank, before an opening parenthesis, or with the line. -/
def endsCommand : Option Char → Bool
  | none => true
  | some c => isBlank c || c == '('

/-- The length of the command `token` if it begins at `rest`, 0 otherwise. -/
def commandSpan (token : Text) (before : Option Char) (rest : Text) : Nat :=
  let next := (rest.drop token.length).head?
  if isBoundary before rest.head? && startsWithToken token rest
      && isBoundary ((rest.take token.length).getLast?) next && endsCommand next then
    token.length
  else 0

/-- Puts every occurrence of one command in upper case. -/
def upperCommand (line token : Text) : Text := upperSpans (commandSpan token) 0 none line

/-- Tries the commands one after another, each on the line that the ones before it left. -/
def command (tokens : List Text) (line : Text) : Text := tokens.foldl upperCommand line

end Rule
end ScriptCase
