import ScriptCase.Proofs.Values
import ScriptCase.Text.Lowercase

/-!
# Larger keyword tables

Of the tokens of a table, a rule sees the letters only. Tokens are plain words, so two of them that agree in lower case
are the same letters (`Plain.map_letter_eq`), and a rule finds with the tokens of one table whatever it finds with those
of a table that is contained in it (`Builtin.places_mono`). Neither the order of tokens nor their case plays a part in
this, nor whether a token is the beginning of another.

So a character that is changed by the rules of a table is changed in the same way by those of every larger table, and
tables with the same tokens up to order and case format all lines alike (`Formatter.formatLine_mono`).
-/

namespace ScriptCase

open Text Rule

/-! ## Plain words in lower case -/

theorem Text.lowerWithin_ascii {c : Char} (hc : c.toNat < 0x80) (before after : Text) :
    lowerWithin before c after = [c.toLower] := by
  have hne : ∀ d : Char, 0x80 ≤ d.toNat → c ≠ d := by
    rintro d hd rfl
    omega
  rw [lowerWithin, if_neg (hne _ (by decide)), if_neg (hne _ (by decide)), lower, if_pos hc]

theorem Text.lowerAfter_ascii {t : Text} (h : ∀ c ∈ t, c.toNat < 0x80) (before : Text) :
    lowerAfter before t = t.map Char.toLower := by
  induction t generalizing before with
  | nil => rfl
  | cons c cs ih =>
    rw [lowerAfter, lowerWithin_ascii (h c List.mem_cons_self), ih fun d hd => h d (List.mem_cons_of_mem c hd)]
    rfl

theorem Plain.lowerText_eq {word : Text} (h : Plain word) : lowerText word = word.map Char.toLower :=
  lowerAfter_ascii (fun c hc => toNat_lt_of_isPlain (h.2 c hc)) []

/-- Plain words that agree in lower case are the same letters. -/
theorem Plain.map_letter_eq {word token : Text} (hw : Plain word) (ht : Plain token)
    (h : lowerText word = lowerText token) : word.map letter = token.map letter := by
  rw [hw.lowerText_eq, ht.lowerText_eq] at h
  exact (ht.of_toLower h).2

/-! ## What a rule finds with more tokens -/

namespace Rule

section Tokens

variable {token token' t : Text} (h : token'.map letter = token.map letter)
include h

theorem length_of_map_letter : token'.length = token.length := by simpa using congrArg List.length h

/-- The letters of a token decide where it is spelled. -/
theorem spells_token_congr {i : Nat} : Spells token' t i ↔ Spells token t i := by
  rw [Spells, Spells, length_of_map_letter h, h]

theorem leadsLine_token_congr {follow : Follow} {a b : Nat} :
    LeadsLine follow token' t a b ↔ LeadsLine follow token t a b := by
  rw [LeadsLine, LeadsLine, length_of_map_letter h, spells_token_congr h]

theorem callsCommand_token_congr {a b : Nat} : CallsCommand token' t a b ↔ CallsCommand token t a b := by
  rw [CallsCommand, CallsCommand, length_of_map_letter h, spells_token_congr h]

end Tokens

/-- More words are picked if more tokens are looked for. -/
theorem picked_tokens_mono {Picks : Text → Nat → Nat → Prop} {tokens tokens' : List Text} {line : Text}
    (hp : ∀ {token token' : Text}, token'.map letter = token.map letter → ∀ {a b}, Picks token' a b ↔ Picks token a b)
    (h : ∀ token ∈ tokens, ∃ token' ∈ tokens', token'.map letter = token.map letter) :
    {i | ∃ token ∈ tokens, i ∈ picked (Picks token) line} ⊆ {i | ∃ token ∈ tokens', i ∈ picked (Picks token) line} := by
  rintro i ⟨token, hm, a, b, hw, hpick, h₁, h₂⟩
  obtain ⟨token', hm', hletter⟩ := h token hm
  exact ⟨token', hm', a, b, hw, (hp hletter).mpr hpick, h₁, h₂⟩

/-- What one change does, a change at more places does as well. -/
theorem Uppered.getElem?_of_subset {V W : Set Nat} {t u w : Text} (hu : Uppered V t u) (hw : Uppered W t w) (h : V ⊆ W)
    {i : Nat} (hi : u[i]? ≠ t[i]?) : w[i]? = u[i]? := by
  have hV : i ∈ V := by
    by_contra hn
    exact hi ((hu i).2 hn)
  rw [(hu i).1 hV, (hw i).1 (h hV)]

end Rule

/-- A rule finds with more tokens what it finds with fewer. -/
theorem Builtin.places_mono (b : Builtin) {tokens tokens' : List Text}
    (h : ∀ token ∈ tokens, ∃ token' ∈ tokens', token'.map letter = token.map letter) (t : Text) :
    b.places tokens t ⊆ b.places tokens' t := by
  cases b with
  | sectionHeader | trigger => exact Set.Subset.rfl
  | scopedAssignment | assignment | control => exact picked_tokens_mono (fun he => leadsLine_token_congr he) h
  | command => exact picked_tokens_mono (fun he => callsCommand_token_congr he) h

/-! ## Tables within one another -/

/-- Every token of the first table is a token of the second one in the same category, whatever the case of either. -/
def Table.Within (table table' : Table) : Prop :=
  ∀ c, (table.tokens c).map lowerText ⊆ (table'.tokens c).map lowerText

instance (table table' : Table) : Decidable (table.Within table') :=
  decidable_of_iff (∀ c ∈ Category.all, (table.tokens c).map lowerText ⊆ (table'.tokens c).map lowerText)
    ⟨fun h c => h c c.mem_all, fun h c _ => h c⟩

theorem Table.Within.tokensIn {table table' : Table} (h : table.Within table') (b : Builtin) :
    ∀ token ∈ b.tokensIn table, ∃ token' ∈ b.tokensIn table', token'.map letter = token.map letter := by
  intro token hm
  rw [Builtin.tokensIn] at hm ⊢
  cases hc : b.category? with
  | none =>
    rw [hc] at hm
    cases hm
  | some c =>
    rw [hc] at hm
    obtain ⟨token', hm', he⟩ := List.mem_map.mp (h c (List.mem_map_of_mem hm))
    exact ⟨token', hm', (table'.plain hm').map_letter_eq (table.plain hm) he⟩

namespace Formatter

/-- A character that is changed under a table is changed in the same way under a larger one. -/
theorem getElem?_lineText_of_within {table table' : Table} (h : table.Within table') {line : Text} {i : Nat}
    (hi : (lineText table line)[i]? ≠ (trimEnd line)[i]?) : (lineText table' line)[i]? = (lineText table line)[i]? := by
  rw [lineText] at hi
  rw [lineText, lineText]
  split at hi
  · exact absurd rfl hi
  · next hc =>
    rw [if_neg hc, if_neg hc]
    refine ((Builtin.isPass_applyAll table).uppered _).getElem?_of_subset
      ((Builtin.isPass_applyAll table').uppered _) ?_ hi
    rintro j ⟨b, hb, hj⟩
    exact ⟨b, hb, b.places_mono (h.tokensIn b) _ hj⟩

/-- Tables within each other format a line alike. -/
theorem lineText_of_within {table table' : Table} (h : table.Within table') (h' : table'.Within table) (line : Text) :
    lineText table' line = lineText table line := by
  apply List.ext_getElem?
  intro i
  by_cases hi : (lineText table line)[i]? = (trimEnd line)[i]?
  · by_cases hi' : (lineText table' line)[i]? = (trimEnd line)[i]?
    · rw [hi, hi']
    · exact (getElem?_lineText_of_within h' hi').symm
  · exact getElem?_lineText_of_within h hi

/--
Formatting is monotone in the keyword table, and the order and the case of tokens do not show. A character of a line,
without its trailing blanks, that is changed under a table is changed to the same character under every table that
holds its tokens; two tables that hold the same tokens give the same line.
-/
theorem formatLine_mono (table table' : Table) (h : table.Within table') (line : Text) :
    ∃ u u', (ofTable table).formatLine line = .ok u ∧ (ofTable table').formatLine line = .ok u' ∧
      u.length = (trimEnd line).length ∧ u'.length = (trimEnd line).length ∧
      (∀ i : Nat, u[i]? ≠ (trimEnd line)[i]? → u'[i]? = u[i]?) ∧
      (table'.Within table → u' = u) := by
  have hlen : ∀ table : Table, (lineText table line).length = (trimEnd line).length := fun table => by
    obtain ⟨V, hV⟩ := exists_uppered_lineText table line
    exact hV.length_eq
  exact ⟨_, _, formatLine_ofTable table line, formatLine_ofTable table' line, hlen table, hlen table',
    fun i hi => getElem?_lineText_of_within h hi, fun h' => lineText_of_within h h' line⟩

/-- A table whose control word is the beginning of another one in the larger table, where it stands behind it and in
another case. -/
theorem formatLine_mono_longer_word :
    let small : Table := ⟨fun | .control => ["end".toList] | _ => [], none, by decide⟩
    let large : Table := ⟨fun | .control => ["EndIf".toList, "END".toList] | .command => ["end".toList] | _ => [], none,
      by decide⟩
    small.Within large ∧ ∃ u u', (ofTable small).formatLine " end endif (end)".toList = .ok u ∧
      (ofTable large).formatLine " end endif (end)".toList = .ok u' ∧
      ∀ i : Nat, u[i]? ≠ (trimEnd " end endif (end)".toList)[i]? → u'[i]? = u[i]? := by
  intro small large
  have hwithin : small.Within large := by decide
  obtain ⟨u, u', hu, hu', -, -, hmono, -⟩ := formatLine_mono small large hwithin " end endif (end)".toList
  exact ⟨hwithin, u, u', hu, hu', hmono⟩

end Formatter
end ScriptCase
