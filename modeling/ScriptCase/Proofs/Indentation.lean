import ScriptCase.Proofs.Values

/-!
# Indentation

The blanks before a line have no part in how it is formatted. A rule that is applied to a line with more blanks in front
does the same to the line and leaves these blanks alone (`Rule.Indents`). For the rules that look at the start of a line
this is so because they skip its blanks; for those that look for regions anywhere, because no region begins at a blank,
and behind a blank the same regions begin as at the start of a line (`Rule.SkipsBlanks`). Rules one after another indent
as each of them does (`Rule.Indents.foldl`), and so does formatting (`Formatter.formatLine_indented`).
-/

namespace ScriptCase

open Text

namespace Rule

/-- The blanks that are put before a line stand before the result as well. -/
def Indents (f : Text → Text) : Prop := ∀ w t : Text, (∀ c ∈ w, isBlank c = true) → f (w ++ t) = w ++ f t

/-- Functions one after another, one for each element of a list. -/
theorem Indents.foldl {α : Type} {step : Text → α → Text} (l : List α) (h : ∀ a ∈ l, Indents fun t => step t a) :
    Indents fun t => l.foldl step t := by
  induction l with
  | nil => exact fun w t _ => rfl
  | cons a l ih =>
    intro w t hw
    have hstep : step (w ++ t) a = w ++ step t a := h a List.mem_cons_self w t hw
    simp only [List.foldl_cons, hstep]
    exact ih (fun b hb => h b (List.mem_cons_of_mem a hb)) w (step t a) hw

/-! ## The start of a line -/

section Start

variable (t : Text)

theorem indent_append {w : Text} (hw : ∀ c ∈ w, isBlank c = true) : indent (w ++ t) = w.length + indent t := by
  rw [indent, List.takeWhile_append_of_pos hw, List.length_append]
  rfl

theorem upperAt_append (w : Text) (start length : Nat) :
    upperAt (w.length + start) length (w ++ t) = w ++ upperAt start length t := by
  simp only [upperAt, List.take_length_add_append, List.drop_length_add_append, Nat.add_assoc, List.append_assoc]

theorem indents_sectionHeader : Indents sectionHeader := by
  intro w t hw
  have hindent : ((w ++ t).takeWhile isBlank).length = w.length + (t.takeWhile isBlank).length := indent_append t hw
  simp only [sectionHeader, hindent, List.drop_length_add_append, Nat.add_assoc, upperAt_append]
  split
  · split <;> rfl
  · rfl

/-- What follows a token is seen with the token, and the token is no blank. -/
theorem leadsAt_append {follow : Follow} {token : Text} (hp : Plain token) (w : Text) (i : Nat) :
    leadsAt follow token (w ++ t) (w.length + i) = leadsAt follow token t i := by
  simp only [leadsAt, Nat.add_assoc, List.drop_length_add_append, List.take_length_add_append]
  cases hs : startsWithToken token (t.drop i) with
  | false => rfl
  | true =>
    have hpos := List.length_pos_iff.mpr hp.1
    have hword := (spells_iff.mpr hs).word hp (i := i) (Nat.le_refl i) (by omega)
    have hne : t.take (i + token.length) ≠ [] := by
      intro hnil
      have hi : (t.take (i + token.length))[i]? = t[i]? := by rw [List.getElem?_take, if_pos (by omega)]
      rw [← hi, hnil] at hword
      cases hword
    rw [List.getLast?_append_of_ne_nil _ hne]

theorem indents_upperLeading (follow : Follow) {token : Text} (hp : Plain token) :
    Indents fun t => upperLeading follow t token := by
  intro w t hw
  simp only [upperLeading, leadingStart?_eq hp, indent_append t hw, leadsAt_append t hp]
  cases leadsAt follow token t (indent t) with
  | true => exact upperAt_append t w (indent t) token.length
  | false => rfl

end Start

/-! ## Regions anywhere on a line -/

/-- No region begins at a blank, and behind a blank a region begins where it would begin a line. -/
structure SkipsBlanks (span : Option Char → Text → Nat) : Prop where
  at_blank : ∀ {c}, isBlank c = true → ∀ before cs, span before (c :: cs) = 0
  behind_blank : ∀ {c}, isBlank c = true → ∀ rest, span (some c) rest = span none rest

namespace SkipsBlanks

variable {span : Option Char → Text → Nat} (h : SkipsBlanks span)
include h

theorem upperSpans_behind {c : Char} (hc : isBlank c = true) (t : Text) :
    upperSpans span 0 (some c) t = upperSpans span 0 none t := by
  cases t with
  | nil => rfl
  | cons d ds => rw [upperSpans, upperSpans, h.behind_blank hc]

theorem indents : Indents (upperSpans span 0 none) := by
  intro w t hw
  induction w with
  | nil => rfl
  | cons c w ih =>
    have hc := hw c List.mem_cons_self
    rw [List.cons_append, upperSpans, h.at_blank hc, h.upperSpans_behind hc,
      ih fun d hd => hw d (List.mem_cons_of_mem c hd)]
    rfl

end SkipsBlanks

theorem isBoundary_blank {c : Char} (hc : isBlank c = true) (after : Option Char) :
    isBoundary (some c) after = isBoundary none after := by
  have hword : isWordAt (some c) = false := isWord_of_isBlank hc
  rw [isBoundary, isBoundary, hword]
  rfl

/-- A blank does not begin a plain token. -/
theorem startsWithToken_blank {p c : Char} (hp : Entries.isPlain p = true) (hc : isBlank c = true) (ps cs : Text) :
    startsWithToken (p :: ps) (c :: cs) = false := by
  have hne : letter p ≠ letter c := by
    intro h
    have hword := isWord_of_letter hp h.symm
    rw [isWord_of_isBlank hc] at hword
    cases hword
  simp [startsWithToken, sameLetter, hne]

theorem skipsBlanks_triggerSpan : SkipsBlanks triggerSpan where
  at_blank hc before cs := by
    rw [triggerSpan, triggerMark, startsWithToken_blank (by decide) hc, Bool.and_false]
    rfl
  behind_blank hc rest := by rw [triggerSpan, triggerSpan, isBoundary_blank hc]

theorem skipsBlanks_commandSpan {token : Text} (hp : Plain token) : SkipsBlanks (commandSpan token) where
  at_blank hc before cs := by
    obtain ⟨p, ps, rfl⟩ := List.exists_cons_of_ne_nil hp.1
    have hstart := startsWithToken_blank (hp.2 p List.mem_cons_self) hc ps cs
    simp [commandSpan, hstart]
  behind_blank hc rest := by simp only [commandSpan, isBoundary_blank hc]

end Rule

open Rule

/-! ## All rules -/

/-- A rule leaves the blanks before a line alone, and does the same to the line. -/
theorem Builtin.indents_apply (b : Builtin) {tokens : List Text} (hp : ∀ token ∈ tokens, Plain token) :
    Indents (b.apply tokens) := by
  cases b with
  | sectionHeader => exact indents_sectionHeader
  | trigger => exact skipsBlanks_triggerSpan.indents
  | scopedAssignment => exact .foldl tokens fun token h => indents_upperLeading .dotOrEquals (hp token h)
  | assignment => exact .foldl tokens fun token h => indents_upperLeading .equals (hp token h)
  | control => exact .foldl tokens fun token h => indents_upperLeading .wordEnd (hp token h)
  | command => exact .foldl tokens fun token h => (skipsBlanks_commandSpan (hp token h)).indents

theorem Builtin.indents_applyAll (table : Table) : Indents (applyAll table) :=
  .foldl order fun b _ => b.indents_apply (b.plain_tokensIn table)

theorem isComment_append {w : Text} (hw : ∀ c ∈ w, isBlank c = true) (t : Text) : isComment (w ++ t) = isComment t := by
  rw [isComment, isComment, trimStart, trimStart, List.dropWhile_append_of_pos hw]

/-- A line with blanks before it is trimmed at its own end, as long as there is anything else in it. -/
theorem Text.trimEnd_append_of_mem {t : Text} {c : Char} (hc : c ∈ t) (hb : isBlank c = false) (w : Text) :
    trimEnd (w ++ t) = w ++ trimEnd t := by
  obtain ⟨s, r, rfl⟩ := List.append_of_mem hc
  rw [trimEnd_append_cons hb s r, ← List.append_assoc, trimEnd_append_cons hb (w ++ s) r, List.append_assoc]

namespace Formatter

/-- Formatting does not depend on the indentation. A line that is not blank is formatted without a failure, and blanks
before it come back before what it is formatted to. -/
theorem formatLine_indented (table : Table) {w line : Text} (hw : ∀ c ∈ w, isBlank c = true)
    (hline : ∃ c ∈ line, isBlank c = false) :
    ∃ u, (ofTable table).formatLine line = .ok u ∧ (ofTable table).formatLine (w ++ line) = .ok (w ++ u) := by
  obtain ⟨c, hc, hb⟩ := hline
  refine ⟨lineText table line, formatLine_ofTable table line, ?_⟩
  rw [formatLine_ofTable, lineText, lineText, trimEnd_append_of_mem hc hb, isComment_append hw]
  split
  · rfl
  · rw [Builtin.indents_applyAll table w _ hw]

/-- An ideographic space, a separator and a line break before a line that begins with a trigger declaration and has a
command in it. -/
theorem formatLine_indented_separators :
    (∀ c ∈ "\u3000\x1f\n".toList, isBlank c = true) ∧ (∃ c ∈ "\ton=@create say(x) ".toList, isBlank c = false) ∧
    ∃ u, (ofTable .bundled).formatLine "\ton=@create say(x) ".toList = .ok u ∧
      (ofTable .bundled).formatLine ("\u3000\x1f\n".toList ++ "\ton=@create say(x) ".toList) =
        .ok ("\u3000\x1f\n".toList ++ u) := by
  have hw : ∀ c ∈ "\u3000\x1f\n".toList, isBlank c = true := by simp [isBlank, inRanges, blankRanges]
  have hline : ∃ c ∈ "\ton=@create say(x) ".toList, isBlank c = false := ⟨'o', by simp, by decide⟩
  exact ⟨hw, hline, formatLine_indented .bundled hw hline⟩

end Formatter
end ScriptCase
