import ScriptCase.Proofs.LargerTables
import ScriptCase.Proofs.SoundTables

/-!
# Scopes and properties do not compete

A scope and a property are both looked for at the start of a line, one keyword after another. A table keeps them apart
by their lower-case form; a line is compared with them by letters, among which a dotless i is an i and a long s is an s.
On plain words the two come to the same (`Plain.lowerText_eq_of_map_letter`). Since a keyword is a whole word wherever
it leads a line, at most one keyword of a table leads any line (`LeadingKeyword.lowerText_eq_of_leads`). Putting it in
upper case does not change which one that is (`LeadingKeyword.leads_congr`), so the line is changed at most once while
all keywords are tried (`Table.leadingKeywords_apart`).
-/

namespace ScriptCase

open Text

/-! ## Plain words by their letters -/

/-- The letter of a plain character is its lower-case form. -/
theorem Text.letter_eq_toLower {c : Char} (h : Entries.isPlain c = true) : letter c = c.toLower :=
  ascii_forall (P := fun c => Entries.isPlain c = true → letter c = c.toLower) (by decide) (toNat_lt_of_isPlain h) h

/-- Plain words of the same letters agree in lower case. -/
theorem Plain.lowerText_eq_of_map_letter {word token : Text} (hw : Plain word) (ht : Plain token)
    (h : word.map letter = token.map letter) : lowerText word = lowerText token := by
  have hlower : ∀ {t : Text}, Plain t → t.map letter = t.map Char.toLower := fun hp =>
    List.map_congr_left fun c hc => letter_eq_toLower (hp.2 c hc)
  rw [hlower hw, hlower ht] at h
  rw [hw.lowerText_eq, ht.lowerText_eq, h]

namespace Rule

/-! ## One keyword -/

/-- A token that is looked for at the start of a line, and what must follow it. -/
structure LeadingKeyword where
  follow : Follow
  token : Text

namespace LeadingKeyword

/-- The keyword is found at the start of the line. -/
def leads (k : LeadingKeyword) (line : Text) : Bool := (leadingStart? k.follow k.token line).isSome

/-- The line after the keyword was tried. -/
def step (line : Text) (k : LeadingKeyword) : Text := upperLeading k.follow line k.token

/-- The number of keywords that change the line, if they are tried one after another, each on the line that the ones
before it left. -/
def changes : List LeadingKeyword → Text → Nat
  | [], _ => 0
  | k :: ks, line => (if step line k = line then 0 else 1) + changes ks (step line k)

/-- The keyword is a plain word before a sign, as scopes and properties are. -/
structure BeforeSign (k : LeadingKeyword) : Prop where
  plain : Plain k.token
  sign : k.follow = .dotOrEquals ∨ k.follow = .equals

variable {k k' : LeadingKeyword} {line t u : Text}

theorem BeforeSign.isWordAt_of_admits (h : k.BeforeSign) {next : Option Char} (hn : k.follow.Admits next) :
    isWordAt next = false := by
  have hdot : isWordAt (some '.') = false := isWordAt_sign (by decide) (by decide)
  have hequals : isWordAt (some '=') = false := isWordAt_sign (by decide) (by decide)
  rcases h.sign with hs | hs
  · rw [hs] at hn
    rcases hn with rfl | rfl
    · exact hdot
    · exact hequals
  · rw [hs] at hn
    obtain rfl := hn
    exact hequals

theorem leads_eq (hp : Plain k.token) (line : Text) : k.leads line = leadsAt k.follow k.token line (indent line) := by
  rw [leads, leadingStart?_eq hp]
  cases leadsAt k.follow k.token line (indent line) <;> rfl

/-- A keyword leads a line by its letters and the sign after it. -/
theorem BeforeSign.leads_iff (h : k.BeforeSign) : k.leads t = true ↔
    Spells k.token t (indent t) ∧ k.follow.Admits t[indent t + k.token.length]? := by
  rw [leads_eq h.plain, leadsAt_indent_iff h.plain]
  constructor
  · rintro ⟨-, -, -, hs, hf⟩
    exact ⟨hs, hf⟩
  · rintro ⟨hs, hf⟩
    have hstop := h.isWordAt_of_admits hf
    exact ⟨(hs.wordRun_iff h.plain).mpr ⟨isWordAt_before_indent t, hstop⟩, rfl, rfl, hs, hf⟩

/-- Which keywords lead a line can be read off its letters. -/
theorem leads_congr (h : k.BeforeSign) (hl : u.map letter = t.map letter) : k.leads u = k.leads t := by
  rw [Bool.eq_iff_iff, h.leads_iff, h.leads_iff, indent_congr hl, spells_congr hl, k.follow.admits_congr hl]

/-- Keywords that lead the same line are the same word, whatever the case. -/
theorem lowerText_eq_of_leads (h : k.BeforeSign) (h' : k'.BeforeSign) (hk : k.leads line = true)
    (hk' : k'.leads line = true) : lowerText k.token = lowerText k'.token := by
  obtain ⟨hw, -, -, hs, -⟩ := (leadsAt_indent_iff h.plain).mp (leads_eq h.plain line ▸ hk)
  obtain ⟨hw', -, -, hs', -⟩ := (leadsAt_indent_iff h'.plain).mp (leads_eq h'.plain line ▸ hk')
  -- both are the first word of the line, so neither is longer than the other
  have hlen : k.token.length = k'.token.length := Nat.add_left_cancel (hw.unique hw')
  apply h.plain.lowerText_eq_of_map_letter h'.plain
  rw [← hs, ← hs', hlen]

theorem step_of_not_leads (h : k.leads line = false) : step line k = line := by
  rw [leads, Option.isSome_eq_false_iff, Option.isNone_iff_eq_none] at h
  rw [step, upperLeading, h]

theorem step_of_leads (hp : Plain k.token) (h : k.leads line = true) :
    step line k = upperAt (indent line) k.token.length line := by
  rw [leads_eq hp] at h
  rw [step, upperLeading, leadingStart?_eq hp, if_pos h]

theorem map_letter_step (hp : Plain k.token) (line : Text) : (step line k).map letter = line.map letter :=
  ((isPass_upperLeading hp k.follow).uppered line).map_letter

/-! ## Keywords one after another -/

theorem changes_append (ks ks' : List LeadingKeyword) (line : Text) :
    changes (ks ++ ks') line = changes ks line + changes ks' (ks.foldl step line) := by
  induction ks generalizing line with
  | nil => simp [changes]
  | cons k ks ih => simp [changes, ih, Nat.add_assoc]

/-- Keywords that do not lead the line leave it as it is. -/
theorem foldl_step_of_not_leads {ks : List LeadingKeyword} (h : ∀ k ∈ ks, k.leads line = false) :
    ks.foldl step line = line ∧ changes ks line = 0 := by
  induction ks with
  | nil => exact ⟨rfl, rfl⟩
  | cons k ks ih =>
    obtain ⟨hk, hks⟩ := List.forall_mem_cons.mp h
    simpa [changes, step_of_not_leads hk] using ih hks

/-- No two of the keywords are the same word, whatever the case. -/
def Apart (ks : List LeadingKeyword) : Prop := ks.Pairwise fun k k' => lowerText k.token ≠ lowerText k'.token

section Apart

variable {ks : List LeadingKeyword} (hsign : ∀ k ∈ ks, k.BeforeSign) (hapart : Apart ks)
include hsign hapart

theorem Apart.pairwise_leads (line : Text) : ks.Pairwise fun k k' => k.leads line = true → k'.leads line = false := by
  refine List.Pairwise.imp_of_mem (fun hk hk' hne hl => ?_) hapart
  rw [Bool.eq_false_iff]
  intro hl'
  exact hne (lowerText_eq_of_leads (hsign _ hk) (hsign _ hk') hl hl')

/-- A keyword that leads the line is the only one, and the others leave the line as this one made it. -/
theorem Apart.foldl_step_of_leads {k : LeadingKeyword} (hk : k ∈ ks) (hl : k.leads line = true) :
    ks.foldl step line = step line k ∧ changes ks line ≤ 1 ∧ ks.countP (·.leads line) = 1 := by
  have hpairwise := hapart.pairwise_leads hsign line
  have hplain := (hsign k hk).plain
  obtain ⟨front, back, rfl⟩ := List.append_of_mem hk
  obtain ⟨-, hcons, hfront⟩ := List.pairwise_append.mp hpairwise
  have hno : ∀ k' ∈ front, k'.leads line = false := by
    intro k' hm
    by_contra hc
    have := hfront k' hm k List.mem_cons_self (by simpa using hc)
    rw [hl] at this
    cases this
  have hno' : ∀ k' ∈ back, k'.leads line = false := fun k' hm => (List.pairwise_cons.mp hcons).1 k' hm hl
  have hnext : ∀ k' ∈ back, k'.leads (step line k) = false := by
    intro k' hm
    have hs : k'.BeforeSign := hsign k' (List.mem_append_right _ (List.mem_cons_of_mem k hm))
    rw [leads_congr hs (map_letter_step hplain line)]
    exact hno' k' hm
  obtain ⟨hf, hcf⟩ := foldl_step_of_not_leads hno
  obtain ⟨hb, hcb⟩ := foldl_step_of_not_leads hnext
  refine ⟨?_, ?_, ?_⟩
  · rw [List.foldl_append, hf, List.foldl_cons, hb]
  · rw [changes_append, hcf, hf, changes, hcb]
    split <;> omega
  · have hzero : front.countP (·.leads line) = 0 := List.countP_eq_zero.mpr fun k' hm => by simp [hno k' hm]
    have hzero' : back.countP (·.leads line) = 0 := List.countP_eq_zero.mpr fun k' hm => by simp [hno' k' hm]
    rw [List.countP_append, hzero, List.countP_cons, hzero', hl]
    rfl

end Apart

end LeadingKeyword
end Rule

/-! ## The keywords of a table -/

open Rule LeadingKeyword

namespace Table

/-- The scopes and then the properties of a table, in the order in which they are tried. -/
def leadingKeywords (table : Table) : List LeadingKeyword :=
  (table.tokens .scope).map (⟨.dotOrEquals, ·⟩) ++ (table.tokens .assignment).map (⟨.equals, ·⟩)

variable (table : Table)

theorem beforeSign_of_mem_leadingKeywords : ∀ k ∈ table.leadingKeywords, k.BeforeSign := by
  intro k hk
  rcases List.mem_append.mp hk with hk | hk
  · obtain ⟨token, hm, rfl⟩ := List.mem_map.mp hk
    exact ⟨table.plain hm, .inl rfl⟩
  · obtain ⟨token, hm, rfl⟩ := List.mem_map.mp hk
    exact ⟨table.plain hm, .inr rfl⟩

/-- The tokens of a category differ in lower case. -/
theorem pairwise_tokens (c : Category) : (table.tokens c).Pairwise fun s t => lowerText s ≠ lowerText t := by
  have hlist := (table.sound_ofTokens.list c).apart
  rw [Entries.ofTokens, List.pairwise_map] at hlist
  exact hlist.imp fun h he => h ⟨_, _, rfl, rfl, he⟩

theorem apart_leadingKeywords : Apart table.leadingKeywords := by
  refine List.pairwise_append.mpr ⟨?_, ?_, ?_⟩
  · exact List.pairwise_map.mpr (table.pairwise_tokens .scope)
  · exact List.pairwise_map.mpr (table.pairwise_tokens .assignment)
  · intro k hk k' hk' he
    obtain ⟨s, hs, rfl⟩ := List.mem_map.mp hk
    obtain ⟨t, ht, rfl⟩ := List.mem_map.mp hk'
    exact table.sound_ofTokens.apart _ (List.mem_map_of_mem hs) _ (List.mem_map_of_mem ht) ⟨s, t, rfl, rfl, he⟩

/-- The rules for scopes and properties try the keywords one after another. -/
theorem foldl_leadingKeywords (line : Text) : table.leadingKeywords.foldl step line =
    Builtin.assignment.apply (Builtin.assignment.tokensIn table)
      (Builtin.scopedAssignment.apply (Builtin.scopedAssignment.tokensIn table) line) := by
  rw [leadingKeywords, List.foldl_append, List.foldl_map, List.foldl_map]
  rfl

/-- Of all scopes and properties of a table, at most one leads a line, and the line is changed at most once while the
rules try them. If one leads the line, the rules put it in upper case and nothing else; if none does, they leave the
line as it is. -/
theorem leadingKeywords_apart (line : Text) :
    table.leadingKeywords.countP (·.leads line) ≤ 1 ∧ changes table.leadingKeywords line ≤ 1 ∧
      (∀ k ∈ table.leadingKeywords, k.leads line = true →
        Builtin.assignment.apply (Builtin.assignment.tokensIn table)
          (Builtin.scopedAssignment.apply (Builtin.scopedAssignment.tokensIn table) line) =
            upperAt (indent line) k.token.length line) ∧
      ((∀ k ∈ table.leadingKeywords, k.leads line = false) →
        Builtin.assignment.apply (Builtin.assignment.tokensIn table)
          (Builtin.scopedAssignment.apply (Builtin.scopedAssignment.tokensIn table) line) = line) := by
  have hsign := table.beforeSign_of_mem_leadingKeywords
  have hone : ∀ k ∈ table.leadingKeywords, k.leads line = true →
      table.leadingKeywords.foldl step line = step line k ∧ changes table.leadingKeywords line ≤ 1 ∧
        table.leadingKeywords.countP (·.leads line) = 1 :=
    fun k hk hl => table.apart_leadingKeywords.foldl_step_of_leads hsign hk hl
  rw [← foldl_leadingKeywords]
  by_cases h : ∃ k ∈ table.leadingKeywords, k.leads line = true
  · obtain ⟨k, hk, hl⟩ := h
    obtain ⟨-, hchanges, hcount⟩ := hone k hk hl
    refine ⟨Nat.le_of_eq hcount, hchanges, fun k' hk' hl' => ?_, fun hnone => ?_⟩
    · rw [(hone k' hk' hl').1, step_of_leads (hsign k' hk').plain hl']
    · rw [hnone k hk] at hl
      cases hl
  · have hnone : ∀ k ∈ table.leadingKeywords, k.leads line = false := by simpa using h
    obtain ⟨hfoldl, hchanges⟩ := foldl_step_of_not_leads hnone
    have hcount : table.leadingKeywords.countP (·.leads line) = 0 := List.countP_eq_zero.mpr (by simpa using hnone)
    refine ⟨by omega, by omega, fun k hk hl => absurd ⟨k, hk, hl⟩ h, fun _ => hfoldl⟩

/-- A dotless i and a long s spell the second keyword, of which the first one is the beginning. -/
example :
    let keywords : List LeadingKeyword := [⟨.dotOrEquals, ['i']⟩, ⟨.equals, ['i', 's']⟩]
    keywords.countP (·.leads ['\u0131', '\u017f', '=', '1']) = 1 ∧
      changes keywords ['\u0131', '\u017f', '=', '1'] = 1 := by
  decide +kernel

end Table
end ScriptCase
