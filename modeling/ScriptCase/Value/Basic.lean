import ScriptCase.Text.Loose
import ScriptCase.Value.Moment

/-!
# Setting values

A settings file is read into one value. Tables keep the order in which their keys first appear. Strings and keys may
hold halves of surrogate pairs. Values have two texts: `text` shows a string as it is, `quoted` shows it between quotes;
inside arrays and tables every value is quoted.
-/

namespace ScriptCase

/-- A value of a settings file. -/
inductive Value where
  | null
  | bool (b : Bool)
  | int (n : Int)
  | float (x : Double)
  | string (t : LooseText)
  | moment (m : Moment)
  | array (items : List Value)
  | table (fields : List (LooseText × Value))
  deriving Repr

namespace Value

/-- The value of a key in the fields of a table. -/
def lookup? (key : String) (fields : List (LooseText × Value)) : Option Value :=
  (fields.find? fun f => f.1 == .ofText key.toList).map (·.2)

/-- The value of a key, where a missing key and a null value count the same. -/
def setting? (key : String) (fields : List (LooseText × Value)) : Option Value :=
  match lookup? key fields with
  | some .null => none
  | other => other

/-- The fields of a table. -/
def fields? : Value → Option (List (LooseText × Value))
  | .table fields => some fields
  | _ => none

/-- The text of a string. -/
def string? : Value → Option LooseText
  | .string t => some t
  | _ => none

/-- Null, false, zero and everything empty; such a value counts as left out. -/
def isVoid : Value → Bool
  | .null => true
  | .bool b => !b
  | .int n => n == 0
  | .float x => x.isZero
  | .string t => t.isEmpty
  | .moment _ => false
  | .array items => items.isEmpty
  | .table fields => fields.isEmpty

mutual
/-- The value with its strings between quotes. -/
def quoted : Value → String
  | .null => "None"
  | .bool b => if b then "True" else "False"
  | .int n => toString n
  | .float x => x.text
  | .string t => String.ofList t.quoted
  | .moment m => m.detailed
  | .array items => "[" ++ ", ".intercalate (quotedItems items) ++ "]"
  | .table fields => "\x7b" ++ ", ".intercalate (quotedFields fields) ++ "\x7d"

/-- The quoted values of an array. -/
def quotedItems : List Value → List String
  | [] => []
  | v :: vs => quoted v :: quotedItems vs

/-- The quoted keys and values of a table. -/
def quotedFields : List (LooseText × Value) → List String
  | [] => []
  | (k, v) :: fs => (String.ofList k.quoted ++ ": " ++ quoted v) :: quotedFields fs
end

/-- The value as plain text. -/
def text : Value → LooseText
  | .string t => t
  | .moment m => .ofText m.text.toList
  | v => .ofText v.quoted.toList

/-- The most digits that a number is read or shown with. -/
def digitLimit : Nat := 4300

mutual
/-- No number in the value is too long to be shown. -/
def isShowable : Value → Bool
  | .int n => decide (n.natAbs < Nat.pow 10 digitLimit)
  | .array items => areShowable items
  | .table fields => fieldsShowable fields
  | _ => true

/-- All values of an array can be shown. -/
def areShowable : List Value → Bool
  | [] => true
  | v :: vs => isShowable v && areShowable vs

/-- All values of a table can be shown. -/
def fieldsShowable : List (LooseText × Value) → Bool
  | [] => true
  | (_, v) :: fs => isShowable v && fieldsShowable fs
end

/-- The items that a list of tokens in this place holds: those of an array, the characters of a string, the keys of
a table. -/
def tokens : Value → List Value
  | .array items => items
  | .string t => t.map fun c => .string [c]
  | .table fields => fields.map fun f => .string f.1
  | _ => []

end Value
end ScriptCase
