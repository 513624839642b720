import ScriptCase.Proofs.FormatLine

/-!
# Values of assignments

In a line such as `name=long sword`, the rules for assignments and scopes put the name in upper case and leave the value
alone. Triggers and commands, however, are looked for anywhere on a line, in a value as well. So the value of an
assignment keeps all its characters except those of trigger declarations and commands
(`Formatter.formatLine_assignment`), and it need not stay as it is (`Formatter.formatLine_touches_value`).
-/

namespace ScriptCase

open Text

namespace Rule

/-! ## Parts of a line in upper case -/

section Parts

variable {V : Set Nat} {s t u : Text}

/-- A change of a line is a change of each of its parts. -/
theorem Uppered.split (h : Uppered V (s ++ t) u) :
    ∃ u₁ u₂, u = u₁ ++ u₂ ∧ Uppered V s u₁ ∧ Uppered {i | s.length + i ∈ V} t u₂ := by
  have hlen := h.length_eq
  rw [List.length_append] at hlen
  refine ⟨u.take s.length, u.drop s.length, (List.take_append_drop _ _).symm, fun i => ?_, fun i => ?_⟩
  · rw [List.getElem?_take]
    rcases Nat.lt_or_ge i s.length with hi | hi
    · have hleft : (s ++ t)[i]? = s[i]? := List.getElem?_append_left hi
      rw [if_pos hi, ← hleft]
      exact h i
    · rw [if_neg (by omega), List.getElem?_eq_none hi]
      exact ⟨fun _ => rfl, fun _ => rfl⟩
  · have hi := h (s.length + i)
    rwa [List.getElem?_append_right (by omega), Nat.add_sub_cancel_left, ← List.getElem?_drop] at hi

theorem Uppered.eq_self (h : Uppered V t u) (hV : ∀ i < t.length, i ∉ V) : u = t :=
  (h.congr fun i hi => iff_of_false (hV i hi) (Set.notMem_empty i)).unique (uppered_empty t)

theorem Uppered.eq_upperText (h : Uppered V t u) (hV : ∀ i < t.length, i ∈ V) : u = upperText t := by
  apply List.ext_getElem?
  intro i
  rw [upperText, List.getElem?_map]
  rcases Nat.lt_or_ge i t.length with hi | hi
  · exact (h i).1 (hV i hi)
  · rw [List.getElem?_eq_none hi, List.getElem?_eq_none (by rwa [h.length_eq])]
    rfl

/-- A line stays as it is just when the places of the change are in upper case already. -/
theorem Uppered.eq_self_iff (h : Uppered V t u) : u = t ↔ ∀ i ∈ V, ∀ c, t[i]? = some c → upper c = c := by
  constructor
  · rintro rfl i hi c hc
    have := (h i).1 hi
    rw [hc, Option.map_some, Option.some.injEq] at this
    exact this.symm
  · intro hV
    apply List.ext_getElem?
    intro i
    by_cases hi : i ∈ V
    · rw [(h i).1 hi]
      cases hc : t[i]? with
      | none => rfl
      | some c => rw [Option.map_some, hV i hi c hc]
    · exact (h i).2 hi

end Parts

end Rule

open Rule

/-! ## The name of an assignment -/

theorem Text.isPlain_toLower (c : Char) : Entries.isPlain c.toLower = Entries.isPlain c := by
  by_cases hc : c.toNat < 0x80
  · exact ascii_forall (P := fun c => Entries.isPlain c.toLower = Entries.isPlain c) (by decide) hc
  · have hself : c.toLower = c := by
      rw [Char.toLower, dif_neg]
      rintro ⟨-, hle⟩
      have : c.toNat ≤ 90 := hle
      omega
    rw [hself]

theorem Text.letter_of_isPlain {c : Char} (h : Entries.isPlain c = true) : letter c = standIn c.toLower := by
  rw [letter_eq_standIn, lower, if_pos (toNat_lt_of_isPlain h)]

/-- Words that differ in the case of plain letters only are the same letters. -/
theorem Plain.of_toLower {word token : Text} (hp : Plain token) (h : word.map Char.toLower = token.map Char.toLower) :
    Plain word ∧ word.map letter = token.map letter := by
  have hword : ∀ c ∈ word, Entries.isPlain c = true := by
    intro c hc
    have hmem : c.toLower ∈ token.map Char.toLower := h ▸ List.mem_map_of_mem hc
    obtain ⟨d, hd, he⟩ := List.mem_map.mp hmem
    rw [← isPlain_toLower, ← he, isPlain_toLower]
    exact hp.2 d hd
  have hletter : ∀ t : Text, (∀ c ∈ t, Entries.isPlain c = true) → t.map letter = (t.map Char.toLower).map standIn := by
    intro t ht
    rw [List.map_map]
    exact List.map_congr_left fun c hc => letter_of_isPlain (ht c hc)
  refine ⟨⟨?_, hword⟩, by rw [hletter word hword, hletter token hp.2, h]⟩
  rintro rfl
  exact hp.1 (List.map_eq_nil_iff.mp h.symm)

theorem Plain.upperText_eq {word : Text} (h : Plain word) : upperText word = word.map Char.toUpper :=
  List.map_congr_left fun c hc => by rw [upper, if_pos (toNat_lt_of_isPlain (h.2 c hc))]

/-! ## Lines with an assignment -/

theorem Text.trimEnd_append_cons {c : Char} (hc : isBlank c = false) (s t : Text) :
    trimEnd (s ++ c :: t) = s ++ c :: trimEnd t := by
  simp only [trimEnd, List.reverse_append, List.reverse_cons, List.append_assoc, List.dropWhile_append]
  cases h : t.reverse.dropWhile isBlank with
  | nil => simp [hc]
  | cons d ds => simp

section Assignment

variable {t blanks word token value : Text}

/-- The line `t` has blanks, a token in any case, an equals sign and a value. -/
structure Assigns (t blanks word token value : Text) : Prop where
  line : t = blanks ++ (word ++ '=' :: value)
  blanks : ∀ c ∈ blanks, isBlank c = true
  plain : Plain token
  case : word.map Char.toLower = token.map Char.toLower

namespace Assigns

variable (h : Assigns t blanks word token value)
include h

theorem plain_word : Plain word := (h.plain.of_toLower h.case).1

theorem length_word : word.length = token.length := by simpa using congrArg List.length h.case

theorem exists_word_cons : ∃ c cs, word = c :: cs ∧ Entries.isPlain c = true ∧ isBlank c = false := by
  obtain ⟨c, cs, rfl⟩ := List.exists_cons_of_ne_nil h.plain_word.1
  have hp := h.plain_word.2 c List.mem_cons_self
  exact ⟨c, cs, rfl, hp, ((asciiFacts_of_lt (toNat_lt_of_isPlain hp)).2.1 hp).2.2⟩

theorem indent_eq : indent t = blanks.length := by
  obtain ⟨c, cs, rfl, -, hc⟩ := h.exists_word_cons
  rw [h.line, indent, List.takeWhile_append_of_pos h.blanks, List.cons_append, List.takeWhile_cons, hc]
  simp

theorem not_isComment : isComment t = false := by
  obtain ⟨c, cs, rfl, hp, hc⟩ := h.exists_word_cons
  rw [Bool.eq_false_iff, Ne, isComment_iff, trimStart, h.line, List.dropWhile_append_of_pos h.blanks, List.cons_append,
    List.dropWhile_cons_of_neg (by simp [hc]), List.cons_prefix_cons]
  rintro ⟨rfl, -⟩
  exact absurd hp (by decide)

theorem spells : Spells token t blanks.length := by
  rw [Spells, h.line, List.drop_left, ← h.length_word, List.take_left]
  exact (h.plain.of_toLower h.case).2

theorem getElem?_equals : t[blanks.length + word.length]? = some '=' := by
  rw [h.line, ← List.append_assoc, ← List.length_append, List.getElem?_append_right (Nat.le_refl _), Nat.sub_self]
  rfl

theorem wordRun : WordRun t blanks.length (blanks.length + word.length) := by
  have hstart := isWordAt_before_indent t
  rw [h.indent_eq] at hstart
  have hstop := h.getElem?_equals
  rw [h.length_word] at hstop ⊢
  refine (h.spells.wordRun_iff h.plain).mpr ⟨hstart, ?_⟩
  rw [hstop]
  exact isWordAt_sign (by decide) (by decide)

/-- The word that leads the line is the name of the assignment, whatever the token and whatever must follow it. -/
theorem bounds_of_mem_leads {follow : Follow} {other : Text} {i : Nat} (hi : i ∈ picked (LeadsLine follow other t) t) :
    blanks.length ≤ i ∧ i < blanks.length + word.length := by
  obtain ⟨a, b, hw, ⟨ha, -⟩, h₁, h₂⟩ := hi
  rw [h.indent_eq] at ha
  obtain rfl := ha
  obtain rfl := hw.unique h.wordRun
  exact ⟨h₁, h₂⟩

theorem mem_leads (follow : Follow) (hf : follow.Admits (some '=')) {i : Nat} (h₁ : blanks.length ≤ i)
    (h₂ : i < blanks.length + word.length) : i ∈ picked (LeadsLine follow token t) t :=
  ⟨_, _, h.wordRun, ⟨h.indent_eq.symm, by rw [h.length_word], h.spells, by rwa [h.getElem?_equals]⟩, h₁, h₂⟩

/-- The places of a line with an assignment: the name, trigger declarations and commands. -/
theorem exists_places_iff {table : Table} (hm : token ∈ table.tokens .assignment ∨ token ∈ table.tokens .scope)
    (i : Nat) : (∃ b ∈ Builtin.order, i ∈ b.places (b.tokensIn table) t) ↔
      (blanks.length ≤ i ∧ i < blanks.length + word.length) ∨ i ∈ triggerPlaces t ∨
        i ∈ picked (IsCommandWord table t) t := by
  rw [mem_picked_isCommandWord, triggerPlaces_eq]
  constructor
  · rintro ⟨b, -, hi⟩
    cases b with
    | sectionHeader =>
      -- the line begins with a word character and not with a bracket
      obtain ⟨a, b, -, ⟨-, hbracket, -⟩, -⟩ := hi
      rw [h.indent_eq] at hbracket
      have hword := h.wordRun.word _ (Nat.le_refl _) h.wordRun.lt
      rw [hbracket, isWordAt_sign (by decide) (by decide)] at hword
      cases hword
    | trigger => exact Or.inr (Or.inl hi)
    | command => exact Or.inr (Or.inr hi)
    | scopedAssignment | assignment | control =>
      obtain ⟨other, -, hi⟩ := hi
      exact Or.inl (h.bounds_of_mem_leads hi)
  · rintro (⟨h₁, h₂⟩ | hi | hi)
    · rcases hm with hm | hm
      · exact ⟨.assignment, by decide, token, hm, h.mem_leads .equals rfl h₁ h₂⟩
      · exact ⟨.scopedAssignment, by decide, token, hm, h.mem_leads .dotOrEquals (Or.inr rfl) h₁ h₂⟩
    · exact ⟨.trigger, by decide, hi⟩
    · exact ⟨.command, by decide, hi⟩

end Assigns

/-- The places of trigger declarations and commands that are found in a line from place `n` on, counted from there. -/
def foundFrom (table : Table) (t : Text) (n : Nat) : Set Nat :=
  {i | n + i ∈ triggerPlaces t ∨ n + i ∈ picked (IsCommandWord table t) t}

/-- Only words and trigger declarations are found, so no blanks are. -/
theorem not_mem_places_of_isBlank {b : Builtin} {tokens : List Text} (hp : ∀ token ∈ tokens, Plain token) {t : Text}
    {i : Nat} {c : Char} (hc : t[i]? = some c) (hb : isBlank c = true) : i ∉ b.places tokens t := by
  intro hi
  have hink : ∃ d, t[i]? = some d ∧ isBlank d = false := by
    rcases (b.isPass_apply hp).harmless t i hi with hw | ⟨⟨p, q, hd, h₁, h₂⟩, -⟩
    · exact isBlank_of_isWordAt hw
    · exact (hd.body i h₁ h₂).imp fun d hd => ⟨hd.1, hd.2.1⟩
  obtain ⟨d, hd, hdb⟩ := hink
  rw [hc] at hd
  rw [Option.some.inj hd, hdb] at hb
  cases hb

/--
A line with an assignment: the name is put in upper case, and in the value, which loses its trailing blanks, the trigger
declarations and the commands that are found in the line are. So the value stays as it is just when these are in upper
case already.
-/
theorem Formatter.formatLine_assignment (table : Table) (value : Text) (hb : ∀ c ∈ blanks, isBlank c = true)
    (hm : token ∈ table.tokens .assignment ∨ token ∈ table.tokens .scope)
    (hw : word.map Char.toLower = token.map Char.toLower) :
    ∃ v, (ofTable table).formatLine (blanks ++ (word ++ '=' :: value)) =
        .ok (blanks ++ (word.map Char.toUpper ++ '=' :: v)) ∧
      Uppered (foundFrom table (blanks ++ (word ++ '=' :: trimEnd value)) (blanks.length + word.length + 1))
        (trimEnd value) v ∧
      (v = trimEnd value ↔
        ∀ i ∈ foundFrom table (blanks ++ (word ++ '=' :: trimEnd value)) (blanks.length + word.length + 1),
          ∀ c, (trimEnd value)[i]? = some c → upper c = c) := by
  have h : Assigns (blanks ++ (word ++ '=' :: trimEnd value)) blanks word token (trimEnd value) :=
    ⟨rfl, hb, hm.elim table.plain table.plain, hw⟩
  have htrim : trimEnd (blanks ++ (word ++ '=' :: value)) = blanks ++ (word ++ '=' :: trimEnd value) := by
    rw [← List.append_assoc, trimEnd_append_cons (by decide), List.append_assoc]
  obtain ⟨u₁, u, hu, h₁, hu₂⟩ :=
    ((Builtin.isPass_applyAll table).uppered (blanks ++ (word ++ '=' :: trimEnd value))).split
  obtain ⟨u₂, u, rfl, h₂, hu₃⟩ := hu₂.split
  obtain ⟨u₃, v, rfl, h₃, h₄⟩ := Uppered.split (s := ['=']) hu₃
  have hblanks : u₁ = blanks := by
    refine h₁.eq_self fun i hi => ?_
    rintro ⟨b, -, hmem⟩
    have hc : (blanks ++ (word ++ '=' :: trimEnd value))[i]? = some blanks[i] := by
      rw [List.getElem?_append_left hi, List.getElem?_eq_getElem hi]
    exact not_mem_places_of_isBlank (b.plain_tokensIn table) hc (hb _ (List.getElem_mem hi)) hmem
  have hname : u₂ = word.map Char.toUpper := by
    rw [← h.plain_word.upperText_eq]
    refine h₂.eq_upperText fun i hi => ?_
    exact (h.exists_places_iff hm _).mpr (Or.inl ⟨by omega, by omega⟩)
  have hequals : u₃ = ['='] := h₃.eq_self_iff.mpr fun i _ c hc => by
    obtain rfl : c = '=' := by simpa using List.mem_of_getElem? hc
    decide
  have hv : Uppered (foundFrom table (blanks ++ (word ++ '=' :: trimEnd value)) (blanks.length + word.length + 1))
      (trimEnd value) v := by
    refine h₄.congr fun i _ => ?_
    have hplace : blanks.length + (word.length + (['='].length + i)) = blanks.length + word.length + 1 + i := by
      simp only [List.length_singleton]
      omega
    simp only [Set.mem_ofPred_eq, hplace, foundFrom]
    refine (h.exists_places_iff hm _).trans (or_iff_right fun hlt => ?_)
    omega
  refine ⟨v, ?_, hv, hv.eq_self_iff⟩
  rw [formatLine_ofTable, lineText, htrim, h.not_isComment, if_neg (by decide), hu, hblanks, hname, hequals]
  rfl

/-- A scope in mixed case, with a trigger declaration and a command in its value. -/
theorem Formatter.formatLine_assignment_scope : (∀ c ∈ ['\t'], isBlank c = true) ∧
    "var".toList ∈ Table.bundled.tokens .scope ∧ "Var".toList.map Char.toLower = "var".toList.map Char.toLower ∧
    ∃ v, (ofTable .bundled).formatLine (['\t'] ++ ("Var".toList ++ '=' :: "<x> on=@a say (y) ".toList)) =
        .ok (['\t'] ++ ("Var".toList.map Char.toUpper ++ '=' :: v)) ∧
      Uppered (foundFrom .bundled (['\t'] ++ ("Var".toList ++ '=' :: trimEnd "<x> on=@a say (y) ".toList)) 5)
        (trimEnd "<x> on=@a say (y) ".toList) v := by
  have hblank : ∀ c ∈ ['\t'], isBlank c = true := List.forall_mem_singleton.mpr (by decide)
  have hscope : "var".toList ∈ Table.bundled.tokens .scope := List.mem_map_of_mem (by decide)
  have hcase : "Var".toList.map Char.toLower = "var".toList.map Char.toLower := by decide
  obtain ⟨v, hline, hv, -⟩ := formatLine_assignment .bundled "<x> on=@a say (y) ".toList hblank
    (.inr hscope) hcase
  exact ⟨hblank, hscope, hcase, v, hline, hv⟩

/-- A command is put in upper case although it is the value of an assignment. -/
theorem Formatter.formatLine_touches_value : "name".toList ∈ Table.bundled.tokens .assignment ∧
    (ofTable .bundled).formatLine "name=go".toList = .ok "NAME=GO".toList ∧ trimEnd "go".toList ≠ "GO".toList := by
  decide +kernel

end Assignment

end ScriptCase
