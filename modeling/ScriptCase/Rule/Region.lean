import ScriptCase.Text.Blank
import ScriptCase.Text.Case
import ScriptCase.Text.Word

/-!
# Regions of a line

A rule finds regions of a line and puts them in upper case; nothing else of the line changes. A region is
either one interval (`upperAt`), or found while the line is read from left to right (`upperSpans`), where a region
that has begun is finished before the next one is looked for.
-/

namespace ScriptCase
namespace Rule

open Text

/-- The line begins with the token, whatever the case of either. -/
def startsWithToken : Text → Text → Bool
  | [], _ => true
  | _ :: _, [] => false
  | t :: ts, c :: cs => sameLetter t c && startsWithToken ts cs

/-- The line with `length` characters from `start` on in upper case. -/
def upperAt (start length : Nat) (line : Text) : Text :=
  line.take start ++ upperText ((line.drop start).take length) ++ line.drop (start + length)

/--
Upper-cases every region of the rest of a line. `span before rest` is the length of the region that begins at `rest`
after the character `before`, and 0 where none begins; `inside` characters of a region are still to come.
-/
def upperSpans (span : Option Char → Text → Nat) : (inside : Nat) → (before : Option Char) → Text → Text
  | _, _, [] => []
  | inside + 1, _, c :: cs => upper c :: upperSpans span inside (some c) cs
  | 0, before, c :: cs =>
    match span before (c :: cs) with
    | 0 => c :: upperSpans span 0 (some c) cs
    | inside + 1 => upper c :: upperSpans span inside (some c) cs

/-- An interval in upper case leaves the length of the line. -/
theorem length_upperAt (start length : Nat) (line : Text) : (upperAt start length line).length = line.length := by
  simp only [upperAt, upperText, List.length_append, List.length_map, List.length_take, List.length_drop]
  omega

/-- Regions in upper case leave the length of the line. -/
theorem length_upperSpans (span : Option Char → Text → Nat) (inside : Nat) (before : Option Char) (line : Text) :
    (upperSpans span inside before line).length = line.length := by
  induction line generalizing inside before with
  | nil => cases inside <;> rfl
  | cons c cs ih =>
    cases inside with
    | zero =>
      rw [upperSpans]
      split <;> simp [ih]
    | succ k => simp [upperSpans, ih]

end Rule
end ScriptCase
