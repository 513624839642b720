import ScriptCase.Value.Basic

/-!
# Reading values

What the readers of the two settings formats share. A reader takes a text and gives a result with the text that is
left, or ends early (`Reading`): at a text that it cannot read on from, or because something is too much.
-/

namespace ScriptCase

namespace Text

/-- The rest of the text behind `start`, if it begins with it. -/
def after? : (start t : Text) → Option Text
  | [], t => some t
  | _ :: _, [] => none
  | s :: ss, c :: cs => if s == c then after? ss cs else none

/-- The value of a hexadecimal digit. -/
def hexDigit? (c : Char) : Option Nat :=
  if c.isDigit then some (c.toNat - '0'.toNat)
  else if 'a' ≤ c ∧ c ≤ 'f' then some (c.toNat - 'a'.toNat + 10)
  else if 'A' ≤ c ∧ c ≤ 'F' then some (c.toNat - 'A'.toNat + 10)
  else none

/-- The value of digits in a base; characters that are no digits count as nothing. -/
def number (base : Nat) (ds : Text) : Nat := (ds.filterMap hexDigit?).foldl (fun n d => n * base + d) 0

/-- The number that exactly `count` hexadecimal digits stand for, and the rest. -/
def hexNumber? (count : Nat) (t : Text) : Option (Nat × Text) :=
  let ds := t.take count
  if ds.length = count ∧ ds.all (fun c => (hexDigit? c).isSome) then some (number 16 ds, t.drop count) else none

end Text

/-- What is too much in a document or in a message about it. -/
inductive Excess where
  /-- A decimal number of so many digits is too long to be read. -/
  | longNumber (digits : Nat)
  /-- A number is too long to be shown in decimal. -/
  | unshownNumber
  /-- Values lie too deep inside one another; `activity` tells what was being read. -/
  | nesting (activity : String)
  deriving DecidableEq, Repr

namespace Excess

/-- The name under which an excess is reported. -/
def kind : Excess → String
  | .nesting _ => "RecursionError"
  | _ => "ValueError"

/-- What users are told. -/
def message : Excess → String
  | .longNumber digits =>
    limitText ++ ": value has " ++ toString digits ++ " digits; use sys.set_int_max_str_digits() to increase the limit"
  | .unshownNumber => limitText ++ "; use sys.set_int_max_str_digits() to increase the limit"
  | .nesting activity => "maximum recursion depth exceeded" ++ activity
where
  limitText : String := "Exceeds the limit (" ++ toString Value.digitLimit ++ " digits) for integer string conversion"

end Excess

/-- Why reading ended early. -/
inductive Halt where
  /-- The text that reading could not go on from. -/
  | unexpected (rest : Text)
  | excess (e : Excess)
  deriving DecidableEq, Repr

/-- Why a document has no value. -/
inductive DocumentFault where
  /-- It is not well formed; `detail` tells where. -/
  | malformed (detail : String)
  | excess (e : Excess)
  deriving DecidableEq, Repr

/-- The fault of a document, given the words for a place in it. -/
def Halt.fault (h : Halt) (describe : Text → String) : DocumentFault :=
  match h with
  | .unexpected rest => .malformed (describe rest)
  | .excess e => .excess e

/-- A result and the rest of the text, or why reading ended early. -/
abbrev Reading (α : Type) := Except Halt (α × Text)

/-- Reading cannot go on from this text. -/
def stop {α : Type} (rest : Text) : Except Halt α := .error (.unexpected rest)

/-- How deep values may lie inside one another, in the units of the readers. -/
def nestingRoom : Nat := 987

/-- A whole number of decimal digits, unless there are too many of them. -/
def wholeNumber (negative : Bool) (ds : Text) : Except Halt Value :=
  if Value.digitLimit < ds.length then .error (.excess (.longNumber ds.length))
  else
    let n : Int := Text.number 10 ds
    .ok (.int (if negative then -n else n))

namespace Reading

/-- The line and column, from 1, at which `rest` begins in `whole`. -/
def place (whole rest : Text) : Nat × Nat :=
  let before := whole.take (whole.length - rest.length)
  (before.count '\n' + 1, (before.reverse.takeWhile (· != '\n')).length + 1)

/-- The place where reading stopped, as messages show it. -/
def placeText (whole rest : Text) : String :=
  if rest.isEmpty then "(at end of document)"
  else
    let (line, column) := place whole rest
    "(at line " ++ toString line ++ ", column " ++ toString column ++ ")"

end Reading

namespace Value

/-- The fields with one of them set: in its place if the key is there already, else at the end. -/
def setField (key : LooseText) (v : Value) : List (LooseText × Value) → List (LooseText × Value)
  | [] => [(key, v)]
  | (k, w) :: fs => if k = key then (k, v) :: fs else (k, w) :: setField key v fs

end Value
end ScriptCase
