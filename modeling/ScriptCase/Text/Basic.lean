/-!
# Texts

A text is the list of its code points; positions and lengths count code points unless a definition says otherwise.
Character classes are given as lists of ranges.
-/

namespace ScriptCase

/-- The list of code points of a text. -/
abbrev Text := List Char

namespace Text

/-- The character lies in one of the ranges, both ends included. -/
def inRanges (ranges : List (Nat × Nat)) (c : Char) : Bool :=
  ranges.any fun r => decide (r.1 ≤ c.toNat) && decide (c.toNat ≤ r.2)

/-- The texts one after another with a separator between them. -/
def join (separator : Text) (ts : List Text) : Text := List.intercalate separator ts

/-- `part` occurs in the text. -/
def hasPart (part : Text) : Text → Bool
  | [] => part.isEmpty
  | c :: cs => part.isPrefixOf (c :: cs) || hasPart part cs

end Text
end ScriptCase
