import ScriptCase.Text.Lowercase
import ScriptCase.Text.Quoted

/-!
# Loose texts

A text holds characters only. Strings in settings may also hold halves of surrogate pairs on their own, which are no
characters and which no encoding can write. `LooseText` holds both; it is shown with the halves escaped.
-/

namespace ScriptCase

/-- Half of a surrogate pair, counted from the first one. -/
abbrev Half := Fin 0x800

namespace Half

/-- The number of a half among the code points. -/
def number (h : Half) : Nat := 0xd800 + h

/-- The half with a number, if there is one. -/
def ofNumber? (n : Nat) : Option Half :=
  if h : 0xd800 ≤ n ∧ n - 0xd800 < 0x800 then some ⟨n - 0xd800, h.2⟩ else none

/-- The half as it is shown. -/
def escape (h : Half) : Text := '\\' :: 'u' :: Text.hex 4 h.number

end Half

/-- A character or half of a surrogate pair. -/
inductive CodePoint where
  | char (c : Char)
  | half (h : Half)
  deriving DecidableEq, Repr

namespace CodePoint

/-- The code point with a number, which is that of a half or of a character. -/
def ofNumber (n : Nat) : CodePoint :=
  match Half.ofNumber? n with
  | some h => .half h
  | none => .char (Char.ofNat n)

/-- The code point in the shortest form of a numbered escape. -/
def numberedEscape : CodePoint → Text
  | .char c => Text.numberedEscape c
  | .half h => h.escape

end CodePoint

/-- A text that may hold halves of surrogate pairs. -/
abbrev LooseText := List CodePoint

namespace LooseText

/-- A text as a loose one. -/
def ofText (t : Text) : LooseText := t.map .char

instance : Coe Text LooseText := ⟨ofText⟩

/-- The text, if there are no halves in it. -/
def text? : LooseText → Option Text
  | [] => some []
  | .char c :: cs => (text? cs).map (c :: ·)
  | .half _ :: _ => none

/-- The text with its halves escaped. -/
def shown (t : LooseText) : Text :=
  t.flatMap fun
    | .char c => [c]
    | .half h => h.escape

/-- The characters of the text. -/
def chars (t : LooseText) : Text :=
  t.filterMap fun
    | .char c => some c
    | .half _ => none

/-- The text between quotes. -/
def quoted (t : LooseText) : Text :=
  let quote := Text.quoteFor t.chars
  quote :: (t.flatMap fun
    | .char c => Text.quotedChar quote c
    | .half h => h.escape) ++ [quote]

/-- Lower-cases the text, which follows a run of characters; `run` is that run reversed. A half belongs to no word, so
that words end before it. -/
def lowerAfter : (run : Text) → LooseText → LooseText
  | run, [] => ofText (Text.lowerText run.reverse)
  | run, .char c :: cs => lowerAfter (c :: run) cs
  | run, .half h :: cs => ofText (Text.lowerText run.reverse) ++ .half h :: lowerAfter [] cs

/-- The lower-case form of the text. -/
def lower (t : LooseText) : LooseText := lowerAfter [] t

/-! ## Texts without halves -/

@[simp] theorem ofText_inj {t u : Text} : ofText t = ofText u ↔ t = u :=
  List.map_inj_right fun _ _ => CodePoint.char.inj

@[simp] theorem ofText_nil : ofText [] = [] := rfl

@[simp] theorem ofText_cons (c : Char) (t : Text) : ofText (c :: t) = .char c :: ofText t := rfl

theorem text?_eq_some_iff {t : LooseText} {u : Text} : t.text? = some u ↔ t = ofText u := by
  induction t generalizing u with
  | nil => cases u <;> simp [text?]
  | cons c t ih =>
    cases c with
    | half h => cases u <;> simp [text?]
    | char c =>
      rw [text?, Option.map_eq_some_iff]
      cases u with
      | nil => simp
      | cons d u =>
        simp only [ih, ofText_cons, List.cons.injEq, CodePoint.char.injEq]
        constructor
        · rintro ⟨u', rfl, rfl, rfl⟩
          exact ⟨rfl, rfl⟩
        · rintro ⟨rfl, rfl⟩
          exact ⟨u, rfl, rfl, rfl⟩

@[simp] theorem text?_ofText (t : Text) : (ofText t).text? = some t := text?_eq_some_iff.mpr rfl

@[simp] theorem shown_ofText (t : Text) : (ofText t).shown = t := by
  simp [shown, ofText, List.flatMap_map]

theorem lowerAfter_ofText (run t : Text) : lowerAfter run (ofText t) = ofText (Text.lowerText (run.reverse ++ t)) := by
  induction t generalizing run with
  | nil => rw [List.append_nil]; rfl
  | cons c t ih => rw [ofText_cons, lowerAfter, ih, List.reverse_cons, List.append_assoc, List.singleton_append]

/-- Lower-casing leaves something of every text. -/
theorem eq_nil_of_lower {t : LooseText} (h : t.lower = []) : t = [] := by
  have hchars : ∀ u : Text, ofText (Text.lowerText u) = [] → u = [] := by
    intro u hu
    cases u with
    | nil => rfl
    | cons c cs =>
      rw [Text.lowerText, Text.lowerAfter, Text.lowerWithin] at hu
      split at hu
      · cases hu
      · split at hu <;> cases hu
  have hafter : ∀ (t : LooseText) (run : Text), lowerAfter run t = [] → run = [] ∧ t = [] := by
    intro t
    induction t with
    | nil => exact fun run hrun => ⟨List.reverse_eq_nil_iff.mp (hchars _ hrun), rfl⟩
    | cons c cs ih =>
      intro run hrun
      cases c with
      | char c => cases (ih _ hrun).1
      | half h => cases (List.append_eq_nil_iff.mp hrun).2
  exact (hafter t [] h).2

@[simp] theorem lower_ofText (t : Text) : (ofText t).lower = ofText (Text.lowerText t) := lowerAfter_ofText [] t

end LooseText
end ScriptCase
