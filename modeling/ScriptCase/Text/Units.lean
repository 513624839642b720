import ScriptCase.Text.Basic

/-!
# UTF-16 code units

Editors count columns in UTF-16 code units: one for a character of the basic plane, two for any other.
-/

namespace ScriptCase
namespace Text

/-- The number of UTF-16 code units of a character. -/
def unitsOf (c : Char) : Nat := if c.toNat < 0x10000 then 1 else 2

/-- The number of UTF-16 code units of a text. -/
def units : Text → Nat
  | [] => 0
  | c :: t => unitsOf c + units t

@[simp] theorem units_nil : units [] = 0 := rfl

@[simp] theorem units_cons (c : Char) (t : Text) : units (c :: t) = unitsOf c + units t := rfl

@[simp] theorem units_append (s t : Text) : units (s ++ t) = units s + units t := by
  induction s with
  | nil => simp
  | cons c s ih => simp [ih, Nat.add_assoc]

/-- A character has one or two units. -/
theorem unitsOf_pos (c : Char) : 0 < unitsOf c := by
  unfold unitsOf
  split <;> decide

end Text
end ScriptCase
