import ScriptCase.Rule.Region

/-!
# Trigger declarations

A trigger declaration such as `on=@create` is put in upper case up to the next blank. A slash in what follows the
name spoils the declaration, so `on=@create//note` is left alone.
-/

namespace ScriptCase
namespace Rule

open Text

/-- The opening of a trigger declaration. -/
def triggerMark : Text := ['o', 'n', '=', '@']

/-- The length of the name of a trigger and of all that follows up to the next blank; 0 if there is no name or if a
slash follows it. -/
def triggerTail (t : Text) : Nat :=
  let name := t.takeWhile isWord
  let tail := (t.drop name.length).takeWhile fun c => !isBlank c
  if name.isEmpty || tail.contains '/' then 0 else name.length + tail.length

/-- The length of the trigger declaration that begins at `rest`, 0 where none begins. -/
def triggerSpan (before : Option Char) (rest : Text) : Nat :=
  if isBoundary before rest.head? && startsWithToken triggerMark rest then
    match triggerTail (rest.drop triggerMark.length) with
    | 0 => 0
    | length => triggerMark.length + length
  else 0

/-- Puts every trigger declaration of a line in upper case. -/
def trigger (line : Text) : Text := upperSpans triggerSpan 0 none line

end Rule
end ScriptCase
