import ScriptCase.Proofs.Rules

/-!
# What formatting does to a line

The rules of a keyword table, run one after another, make up one pass (`isPass_applyAll`): the line is put in upper case
at the places that the rules find in it as it was, whatever their order. This gives two results. Formatting a line is
idempotent (`Formatter.lineText_idem`), and its effect can be said in one step, without rules
(`Formatter.formatLine_effect`): the places `casePlaces` of the line without its trailing blanks are put in upper case,
unless the line is a comment.
-/

namespace ScriptCase

open Text Rule

/-! ## The rules of a table as one pass -/

namespace Builtin

/-- The places of a line that a rule finds. -/
def places (b : Builtin) (tokens : List Text) (t : Text) : Set Nat :=
  match b with
  | .sectionHeader => picked (HeadsLine t) t
  | .trigger => triggered t
  | .scopedAssignment => {i | ∃ token ∈ tokens, i ∈ picked (LeadsLine .dotOrEquals token t) t}
  | .assignment => {i | ∃ token ∈ tokens, i ∈ picked (LeadsLine .equals token t) t}
  | .control => {i | ∃ token ∈ tokens, i ∈ picked (LeadsLine .wordEnd token t) t}
  | .command => {i | ∃ token ∈ tokens, i ∈ picked (CallsCommand token t) t}

theorem isPass_apply (b : Builtin) {tokens : List Text} (hp : ∀ token ∈ tokens, Plain token) :
    IsPass (b.apply tokens) (b.places tokens) := by
  cases b with
  | sectionHeader => exact isPass_sectionHeader
  | trigger => exact isPass_trigger
  | scopedAssignment => exact .foldl tokens fun token h => isPass_upperLeading (hp token h) .dotOrEquals
  | assignment => exact .foldl tokens fun token h => isPass_upperLeading (hp token h) .equals
  | control => exact .foldl tokens fun token h => isPass_upperLeading (hp token h) .wordEnd
  | command => exact .foldl tokens fun token h => isPass_upperCommand (hp token h)

theorem plain_tokensIn (b : Builtin) (table : Table) : ∀ token ∈ b.tokensIn table, Plain token := by
  intro token h
  rw [tokensIn] at h
  split at h
  · exact table.plain h
  · cases h

/-- All built-in rules, one after another. -/
def applyAll (table : Table) (t : Text) : Text := order.foldl (fun t b => b.apply (b.tokensIn table) t) t

theorem isPass_applyAll (table : Table) :
    IsPass (applyAll table) (fun t => {i | ∃ b ∈ order, i ∈ b.places (b.tokensIn table) t}) :=
  .foldl order fun b _ => b.isPass_apply (b.plain_tokensIn table)

end Builtin

/-! ## Blanks at the ends of a line, and comments -/

theorem Text.trimEnd_eq_rdropWhile (t : Text) : trimEnd t = t.rdropWhile isBlank := rfl

@[simp] theorem Text.trimEnd_trimEnd (t : Text) : trimEnd (trimEnd t) = trimEnd t :=
  List.rdropWhile_idempotent isBlank t

/-- Whether a line ends with blanks can be read off its letters. -/
theorem Text.trimEnd_eq_self_congr {t u : Text} (h : u.map letter = t.map letter) (ht : trimEnd t = t) :
    trimEnd u = u := by
  refine (List.rdropWhile_prefix isBlank u).eq_of_length ?_
  rw [← trimEnd_eq_rdropWhile]
  have : (trimEnd u).map letter = u.map letter := by rw [← trimEnd_map_letter, h, trimEnd_map_letter, ht]
  simpa using congrArg List.length this

theorem isComment_iff {t : Text} : isComment t = true ↔ ['/', '/'] <+: trimStart t := by
  rw [isComment]
  split
  · next h => simp [h]
  · next h =>
    refine iff_of_false (by simp) ?_
    rintro ⟨rest, hr⟩
    exact h rest hr.symm

theorem isComment_map_letter (t : Text) : isComment (t.map letter) = isComment t := by
  have hslash : ∀ c : Char, letter c = '/' ↔ c = '/' := fun c => letter_eq_sign (by decide) (by decide)
  rw [Bool.eq_iff_iff, isComment_iff, isComment_iff, trimStart_map_letter]
  rcases trimStart t with _ | ⟨c, _ | ⟨d, rest⟩⟩ <;>
    simp [List.cons_prefix_cons, @eq_comm _ '/', hslash]

theorem isComment_congr {t u : Text} (h : u.map letter = t.map letter) : isComment u = isComment t := by
  rw [← isComment_map_letter, h, isComment_map_letter]

/-! ## Formatting a line -/

namespace Formatter

/-- The formatted text of a line. -/
def lineText (table : Table) (line : Text) : Text :=
  if isComment (trimEnd line) then trimEnd line else Builtin.applyAll table (trimEnd line)

/-- A line is formatted by the built-in rules without a failure. -/
theorem formatLine_ofTable (table : Table) (line : Text) :
    (ofTable table).formatLine line = .ok (lineText table line) := by
  rw [formatLine, lineText]
  split <;> rfl

/-- A formatted line is the line without its trailing blanks, in upper case at some places. -/
theorem exists_uppered_lineText (table : Table) (line : Text) :
    ∃ V, Uppered V (trimEnd line) (lineText table line) := by
  rw [lineText]
  split
  · exact ⟨∅, uppered_empty _⟩
  · exact ⟨_, (Builtin.isPass_applyAll table).uppered (trimEnd line)⟩

/-- Formatting does not change letters, apart from the blanks at the end. -/
theorem lineText_map_letter (table : Table) (line : Text) :
    (lineText table line).map letter = (trimEnd line).map letter := by
  obtain ⟨V, hV⟩ := exists_uppered_lineText table line
  exact hV.map_letter

/-- A formatted line stays as it is. -/
theorem lineText_idem (table : Table) (line : Text) :
    lineText table (lineText table line) = lineText table line := by
  have hl := lineText_map_letter table line
  have ht : trimEnd (lineText table line) = lineText table line := trimEnd_eq_self_congr hl (trimEnd_trimEnd line)
  rw [lineText, ht, isComment_congr hl]
  split
  · rfl
  · next hc => rw [lineText, if_neg hc, (Builtin.isPass_applyAll table).idempotent]

end Formatter

/-! ## The places, without rules -/

/-- The word from `a` up to before `b` is the token, whatever the case of either. -/
def IsToken (t token : Text) (a b : Nat) : Prop := b = a + token.length ∧ Spells token t a

/-- The type word of a header: blanks, an opening bracket, the word, and then a closing bracket that ends the line, with
nothing before it or something that begins with a blank. -/
def IsTypeWord (t : Text) (a b : Nat) : Prop :=
  a = indent t + 1 ∧ t[indent t]? = some '[' ∧
    (t.drop b = [']'] ∨ (∃ c, t[b]? = some c ∧ isBlank c = true) ∧ t.getLast? = some ']')

/-- The places from `a` up to before `q` hold no blanks, and cannot be made more on either side. -/
structure InkRun (t : Text) (a q : Nat) : Prop where
  lt : a < q
  ink : ∀ i, a ≤ i → i < q → ∃ c, t[i]? = some c ∧ isBlank c = false
  start : ∀ c, before t a = some c → isBlank c = true
  stop : ∀ c, t[q]? = some c → isBlank c = true

/-- A word boundary with the mark and a word character behind it, and no slash up to place `q`. -/
structure Opens (t : Text) (p q : Nat) : Prop where
  boundary : isBoundary (before t p) t[p]? = true
  mark : Spells triggerMark t p
  name : isWordAt t[p + triggerMark.length]? = true
  slash : ∀ i, p ≤ i → i < q → t[i]? ≠ some '/'

/-- In every run without blanks, the places from the first that opens a declaration to the end of the run. -/
def triggerPlaces (t : Text) : Set Nat :=
  {i | ∃ a p q, InkRun t a q ∧ a ≤ p ∧ Opens t p q ∧ (∀ p', a ≤ p' → p' < p → ¬Opens t p' q) ∧ p ≤ i ∧ i < q}

/-- The word stands first on its line and is a scope before a full stop or an equals sign, a property before an equals
sign, or a control word. -/
def IsLeadingWord (table : Table) (t : Text) (a b : Nat) : Prop :=
  a = indent t ∧
    ((∃ token ∈ table.tokens .scope, IsToken t token a b ∧ (t[b]? = some '.' ∨ t[b]? = some '=')) ∨
      (∃ token ∈ table.tokens .assignment, IsToken t token a b ∧ t[b]? = some '=') ∨
      ∃ token ∈ table.tokens .control, IsToken t token a b)

/-- The word is a command before a blank, an opening parenthesis or the end of the line. -/
def IsCommandWord (table : Table) (t : Text) (a b : Nat) : Prop :=
  (∃ token ∈ table.tokens .command, IsToken t token a b) ∧ ∀ c, t[b]? = some c → isBlank c = true ∨ c = '('

/-- The places of a line that formatting puts in upper case. -/
def casePlaces (table : Table) (t : Text) : Set Nat :=
  picked (IsTypeWord t) t ∪ triggerPlaces t ∪ picked (IsLeadingWord table t) t ∪ picked (IsCommandWord table t) t

/-- In a line without line feeds and trailing blanks, the bracket that closes a header is the last character. -/
theorem closesHeader_iff_of_trimmed {t : Text} (ht : trimEnd t = t) (hn : '\n' ∉ t) (b : Nat) :
    closesHeader (t.drop b) = true ↔
      t.drop b = [']'] ∨ (∃ c, t[b]? = some c ∧ isBlank c = true) ∧ t.getLast? = some ']' := by
  have hlast : (t.drop b).getLast? = if t.length ≤ b then none else t.getLast? := List.getLast?_drop
  have hend : trimEnd (t.drop b) = t.drop b := by
    rw [trimEnd_eq_rdropWhile, List.rdropWhile_eq_self_iff] at ht ⊢
    intro hne
    have hb : ¬t.length ≤ b := fun h => hne (List.drop_eq_nil_of_le h)
    have hne' : t ≠ [] := fun h => hne (by rw [h, List.drop_nil])
    rw [if_neg hb, List.getLast?_eq_some_getLast hne, List.getLast?_eq_some_getLast hne', Option.some.injEq] at hlast
    rw [hlast]
    exact ht hne'
  rw [closesHeader_iff, hend, List.head?_drop]
  constructor
  · rintro ⟨inner, h, rfl | ⟨hb, -⟩⟩
    · exact Or.inl h
    · refine Or.inr ⟨by simpa [Option.any_eq_true] using hb, ?_⟩
      rw [h, List.getLast?_concat] at hlast
      split at hlast
      · cases hlast
      · exact hlast.symm
  · rintro (h | ⟨⟨c, hc, hb⟩, h⟩)
    · exact ⟨[], h, Or.inl rfl⟩
    · have hlt : b < t.length := (List.getElem?_eq_some_iff.mp hc).1
      rw [if_neg (by omega), h] at hlast
      obtain ⟨inner, hinner⟩ := List.getLast?_eq_some_iff.mp hlast
      refine ⟨inner, hinner, Or.inr ⟨by rw [hc]; exact hb, fun hmem => hn ?_⟩⟩
      have : '\n' ∈ t.drop b := by
        rw [hinner]
        exact List.mem_append_left _ ((List.dropWhile_sublist isBlank).mem hmem)
      exact List.mem_of_mem_drop this

/-- A declaration runs to the end of a run without blanks. -/
theorem InkRun.declares {t : Text} {a p q : Nat} (hr : InkRun t a q) (ha : a ≤ p) (hq : p < q) (ho : Opens t p q) :
    Declares t p q where
  lt := hq
  boundary := ho.boundary
  mark := ho.mark
  name := ho.name
  body i h₁ h₂ := by
    obtain ⟨c, hc, hb⟩ := hr.ink i (by omega) h₂
    exact ⟨c, hc, hb, fun hs => ho.slash i h₁ h₂ (hs ▸ hc)⟩
  stop := hr.stop

/-- What holds no blanks up to an end can be made longer to the left until a blank comes. -/
theorem exists_inkRun {t : Text} {p q : Nat} (hlt : p < q)
    (hink : ∀ i, p ≤ i → i < q → ∃ c, t[i]? = some c ∧ isBlank c = false)
    (hstop : ∀ c, t[q]? = some c → isBlank c = true) : ∃ a ≤ p, InkRun t a q := by
  induction p with
  | zero => exact ⟨0, Nat.le_refl 0, hlt, hink, fun _ hc => (nomatch hc), hstop⟩
  | succ p ih =>
    by_cases hb : ∃ c, t[p]? = some c ∧ isBlank c = false
    · obtain ⟨a, ha, hr⟩ := ih (by omega) fun i h₁ h₂ => by
        rcases Nat.eq_or_lt_of_le h₁ with rfl | h
        · exact hb
        · exact hink i h h₂
      exact ⟨a, by omega, hr⟩
    · refine ⟨p + 1, Nat.le_refl _, hlt, hink, fun c hc => ?_, hstop⟩
      by_contra h
      exact hb ⟨c, hc, by simpa using h⟩

/-- The first place of a run that opens a declaration stands for all of them. -/
theorem triggerPlaces_eq (t : Text) : triggerPlaces t = triggered t := by
  classical
  ext i
  constructor
  · rintro ⟨a, p, q, hr, ha, ho, -, hp, hq⟩
    exact ⟨p, q, hr.declares ha (by omega) ho, hp, hq⟩
  · rintro ⟨p, q, hd, hp, hq⟩
    obtain ⟨a, ha, hr⟩ := exists_inkRun hd.lt
      (fun i h₁ h₂ => (hd.body i h₁ h₂).imp fun c hc => ⟨hc.1, hc.2.1⟩) hd.stop
    have ho : Opens t p q := ⟨hd.boundary, hd.mark, hd.name, fun i h₁ h₂ hs => by
      obtain ⟨c, hc, -, hne⟩ := hd.body i h₁ h₂
      exact hne (Option.some.inj (hc.symm.trans hs))⟩
    have hex : ∃ p, a ≤ p ∧ Opens t p q := ⟨p, ha, ho⟩
    have hle : Nat.find hex ≤ p := Nat.find_min' hex ⟨ha, ho⟩
    obtain ⟨ha', ho'⟩ := Nat.find_spec hex
    exact ⟨a, Nat.find hex, q, hr, ha', ho', fun p' h₁ h₂ ho => Nat.find_min hex h₂ ⟨h₁, ho⟩, by omega, hq⟩

theorem mem_picked_isLeadingWord {table : Table} {t : Text} {i : Nat} : i ∈ picked (IsLeadingWord table t) t ↔
    (∃ token ∈ table.tokens .scope, i ∈ picked (LeadsLine .dotOrEquals token t) t) ∨
    (∃ token ∈ table.tokens .assignment, i ∈ picked (LeadsLine .equals token t) t) ∨
    ∃ token ∈ table.tokens .control, i ∈ picked (LeadsLine .wordEnd token t) t := by
  constructor
  · rintro ⟨a, b, hw, ⟨ha, ⟨token, hm, ⟨hb, hs⟩, hf⟩ | ⟨token, hm, ⟨hb, hs⟩, hf⟩ | ⟨token, hm, hb, hs⟩⟩, h₁, h₂⟩
    · exact Or.inl ⟨token, hm, a, b, hw, ⟨ha, hb, hs, hf⟩, h₁, h₂⟩
    · exact Or.inr (Or.inl ⟨token, hm, a, b, hw, ⟨ha, hb, hs, hf⟩, h₁, h₂⟩)
    · exact Or.inr (Or.inr ⟨token, hm, a, b, hw, ⟨ha, hb, hs, trivial⟩, h₁, h₂⟩)
  · rintro (⟨token, hm, a, b, hw, ⟨ha, hb, hs, hf⟩, h₁, h₂⟩ | ⟨token, hm, a, b, hw, ⟨ha, hb, hs, hf⟩, h₁, h₂⟩ |
      ⟨token, hm, a, b, hw, ⟨ha, hb, hs, -⟩, h₁, h₂⟩)
    · exact ⟨a, b, hw, ⟨ha, Or.inl ⟨token, hm, ⟨hb, hs⟩, hf⟩⟩, h₁, h₂⟩
    · exact ⟨a, b, hw, ⟨ha, Or.inr (Or.inl ⟨token, hm, ⟨hb, hs⟩, hf⟩)⟩, h₁, h₂⟩
    · exact ⟨a, b, hw, ⟨ha, Or.inr (Or.inr ⟨token, hm, hb, hs⟩)⟩, h₁, h₂⟩

theorem mem_picked_isCommandWord {table : Table} {t : Text} {i : Nat} : i ∈ picked (IsCommandWord table t) t ↔
    ∃ token ∈ table.tokens .command, i ∈ picked (CallsCommand token t) t := by
  constructor
  · rintro ⟨a, b, hw, ⟨⟨token, hm, hb, hs⟩, he⟩, h₁, h₂⟩
    exact ⟨token, hm, a, b, hw, ⟨hb, hs, he⟩, h₁, h₂⟩
  · rintro ⟨token, hm, a, b, hw, ⟨hb, hs, he⟩, h₁, h₂⟩
    exact ⟨a, b, hw, ⟨⟨token, hm, hb, hs⟩, he⟩, h₁, h₂⟩

/-- In a line without line feeds and trailing blanks, the rules find the places that are put in upper case. -/
theorem exists_places_iff {table : Table} {t : Text} (ht : trimEnd t = t) (hn : '\n' ∉ t) (i : Nat) :
    (∃ b ∈ Builtin.order, i ∈ b.places (b.tokensIn table) t) ↔ i ∈ casePlaces table t := by
  have hhead : HeadsLine t = IsTypeWord t := by
    funext a b
    rw [HeadsLine, IsTypeWord, closesHeader_iff_of_trimmed ht hn]
  simp only [casePlaces, Set.mem_union, mem_picked_isLeadingWord, mem_picked_isCommandWord, ← hhead, triggerPlaces_eq]
  simp [Builtin.order, Builtin.places, Builtin.tokensIn, Builtin.category?, or_assoc]

/--
The effect of formatting a line, in one step: trailing blanks are dropped, and unless the line is a comment, the places
found in what is left are put in upper case and nothing else is changed.
-/
theorem Formatter.formatLine_effect (table : Table) (line : Text) (hn : '\n' ∉ line) :
    ∃ u, (ofTable table).formatLine line = .ok u ∧
      (['/', '/'] <+: trimStart (trimEnd line) → u = trimEnd line) ∧
      (¬['/', '/'] <+: trimStart (trimEnd line) → Uppered (casePlaces table (trimEnd line)) (trimEnd line) u) := by
  have hn' : '\n' ∉ trimEnd line := fun h => hn ((List.rdropWhile_prefix isBlank line).mem h)
  refine ⟨_, formatLine_ofTable table line, fun hc => ?_, fun hc => ?_⟩
  · rw [lineText, if_pos (isComment_iff.mpr hc)]
  · rw [lineText, if_neg (fun h => hc (isComment_iff.mp h))]
    exact ((Builtin.isPass_applyAll table).uppered (trimEnd line)).congr fun i _ =>
      exists_places_iff (trimEnd_trimEnd line) hn' i

/-- A combining mark that becomes a letter in upper case, in the name of a trigger before a command. -/
theorem Formatter.formatLine_effect_joining_mark : '\n' ∉ "on=@a\u0345b say(x) ".toList ∧
    ∃ u, (ofTable Table.bundled).formatLine "on=@a\u0345b say(x) ".toList = .ok u ∧
      (['/', '/'] <+: trimStart (trimEnd "on=@a\u0345b say(x) ".toList) → u = trimEnd "on=@a\u0345b say(x) ".toList) ∧
      (¬['/', '/'] <+: trimStart (trimEnd "on=@a\u0345b say(x) ".toList) →
        Uppered (casePlaces Table.bundled (trimEnd "on=@a\u0345b say(x) ".toList))
          (trimEnd "on=@a\u0345b say(x) ".toList) u) :=
  ⟨by decide, formatLine_effect Table.bundled _ (by decide)⟩

end ScriptCase
