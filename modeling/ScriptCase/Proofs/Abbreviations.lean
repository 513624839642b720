import ScriptCase.Proofs.CommandLine

/-!
# Abbreviations and the workspace

A word of a command line may be a switch to one grammar and something else to another. A word of two hyphens and more is
read as an abbreviation by every grammar, also if it is a whole name (`Word.classify_long`). So a word of the whole
command line is the same switch for the workspace when only the workspace is looked for, or none to both readings
(`Word.exists_narrows`).

Behind a command this is not so: there are words that the command takes for its own and that are switches for the
workspace as well (`Word.Stray`). All other switches for the workspace are refused by the command
(`Word.stray_or_refused`).
-/

namespace ScriptCase

/-- The switch tells where the settings are. -/
def Switch.isPlace : Switch → Bool
  | .config | .workspace => true
  | _ => false

/-- A text with two hyphens in front. -/
def Word.IsLong (t : Text) : Prop := ['-', '-'] <+: t

instance (t : Text) : Decidable (Word.IsLong t) := inferInstanceAs (Decidable (_ <+: _))

namespace Grammar

/-- Each long name is meant by itself alone, and holds no equals sign. -/
def HasPlainNames (g : Grammar) : Prop :=
  ∀ x ∈ g.names, Word.IsLong x.1.toList → 2 < x.1.toList.length ∧ Word.splitValue x.1.toList = (x.1.toList, none) ∧
    Word.expansions g x.1.toList = [x]

theorem hasPlainNames_commandLine : commandLine.HasPlainNames := by
  unfold HasPlainNames
  decide

theorem hasPlainNames_workspace : workspace.HasPlainNames := by
  unfold HasPlainNames
  decide

theorem hasPlainNames_format : format.HasPlainNames := by
  unfold HasPlainNames
  decide

theorem names_workspace : workspace.names = commandLine.names.filter fun x => x.2.isPlace := rfl

theorem mem_names_of_switch? {g : Grammar} {name : String} {s : Switch} (h : g.switch? name = some s) :
    (name, s) ∈ g.names := by
  obtain ⟨x, hx, rfl⟩ := Option.map_eq_some_iff.mp h
  have hname : x.1 = name := by simpa using List.find?_some hx
  rw [← hname]
  exact List.mem_of_find?_eq_some hx

end Grammar

namespace Word

variable {g : Grammar} {word : String} {s : Switch} {value : Option String} {w : Word}

theorem fst_splitValue (t : Text) : (splitValue t).1 = t.takeWhile (· != '=') := by
  rw [splitValue]
  split <;> rfl

/-- A long word is read as an abbreviation, also if it is a whole name. -/
theorem classify_long (hg : g.HasPlainNames) (h : IsLong word.toList) : classify g word = ofLong g word := by
  obtain ⟨t, ht⟩ := h
  have hname : IsLong (splitValue word.toList).1 := by
    rw [fst_splitValue, ← ht]
    exact ⟨t.takeWhile (· != '='), rfl⟩
  rw [classify, ← ht]
  dsimp only [List.cons_append, List.nil_append]
  cases hn : named? g word with
  | none => exact if_pos rfl
  | some w =>
    rw [named?] at hn
    split at hn
    · next s hs =>
      obtain rfl := Option.some.inj hn
      obtain ⟨-, hsplit, hexp⟩ := hg _ (Grammar.mem_names_of_switch? hs) ⟨t, ht⟩
      simp only [ofLong, hsplit, hexp]
      rfl
    · split at hn
      · next name v hsplit =>
        obtain ⟨s, hs, rfl⟩ := Option.map_eq_some_iff.mp hn
        rw [hsplit] at hname
        obtain ⟨hlen, -, hexp⟩ := hg _ (Grammar.mem_names_of_switch? hs) (by simpa using hname)
        simp only [String.toList_ofList] at hlen hexp
        simp only [ofLong, hsplit, hexp]
        rw [joined, if_neg fun h => by omega]
        rfl
      · cases hn

theorem other_cases (t : Text) : other t = .operand ∨ other t = .unknown := by
  rw [other]
  split
  · exact Or.inl rfl
  · exact Or.inr rfl

/-- What a word can be that names a switch in full. -/
theorem named?_cases (h : named? g word = some w) : ∃ x ∈ g.names, x.1.toList <+: word.toList ∧
    ((∃ value, w = .switch x.2 value) ∨ ∃ rest, w = .cluster x.2 rest) := by
  rw [named?] at h
  split at h
  · next s hs =>
    obtain rfl := Option.some.inj h
    exact ⟨_, Grammar.mem_names_of_switch? hs, List.prefix_refl _, Or.inl ⟨none, rfl⟩⟩
  · split at h
    · next name v hsplit =>
      obtain ⟨s, hs, rfl⟩ := Option.map_eq_some_iff.mp h
      refine ⟨_, Grammar.mem_names_of_switch? hs, ?_, ?_⟩
      · rw [String.toList_ofList, show name = (splitValue word.toList).1 by rw [hsplit], fst_splitValue]
        exact List.takeWhile_prefix _
      · rw [joined]
        split
        · exact Or.inr ⟨_, rfl⟩
        · exact Or.inl ⟨_, rfl⟩
    · cases h

theorem ofShort_cases (g : Grammar) (t : Text) :
    ofShort g t = other t ∨ ∃ x ∈ g.names, x.1.toList <+: t ∧ ∃ rest, ofShort g t = .cluster x.2 rest := by
  rw [ofShort]
  split
  · next s hs =>
    refine Or.inr ⟨_, Grammar.mem_names_of_switch? hs, ?_, _, rfl⟩
    rw [String.toList_ofList]
    exact List.take_prefix 2 t
  · exact Or.inl rfl

/-! ## Words before a command -/

/-- What a word of the whole command line is to the reading that looks for the workspace. -/
def Narrows : Word → Word → Prop
  | .operand, w => w = .operand
  | .switch s value, w => if s.isPlace then w = .switch s value else w = .operand ∨ w = .unknown
  | .cluster s _, _ => s = .help
  | _, _ => True

theorem narrows_other (t : Text) : Narrows (other t) (other t) := by
  rcases other_cases t with h | h
  · rw [h]
    exact rfl
  · rw [h]
    exact trivial

theorem expansions_workspace (name : Text) :
    expansions .workspace name = (expansions .commandLine name).filter fun x => x.2.isPlace := by
  rw [expansions, expansions, Grammar.names_workspace, List.filter_filter, List.filter_filter]
  simp only [Bool.and_comm]

/-- A long word is a switch for the workspace to both readings or to none. -/
theorem exists_narrows_long (hw : IsLong word.toList) (h : classify .commandLine word = .ok w) :
    ∃ w', classify .workspace word = .ok w' ∧ Narrows w w' := by
  rw [classify_long Grammar.hasPlainNames_commandLine hw] at h
  rw [classify_long Grammar.hasPlainNames_workspace hw]
  simp only [ofLong] at h ⊢
  rw [expansions_workspace]
  split at h
  · next he =>
    rw [he]
    obtain rfl := Except.ok.inj h
    exact ⟨_, rfl, narrows_other _⟩
  · next n s he =>
    rw [he]
    obtain rfl := Except.ok.inj h
    cases hs : s.isPlace with
    | true =>
      simp only [List.filter_cons, hs, if_true, List.filter_nil]
      exact ⟨_, rfl, by rw [Narrows, if_pos hs]⟩
    | false =>
      simp only [List.filter_cons, hs, Bool.false_eq_true, if_false, List.filter_nil]
      refine ⟨_, rfl, ?_⟩
      rw [Narrows, if_neg (by simp [hs])]
      exact other_cases _
  · cases h

/-- Short names stand for nothing but help, and no switch for the workspace has one. -/
theorem names_short : (∀ x ∈ Grammar.commandLine.names, ¬IsLong x.1.toList → x.2 = .help) ∧
    ∀ x ∈ Grammar.workspace.names, IsLong x.1.toList := by decide

section Short

variable (hw : ¬IsLong word.toList)
include hw

theorem named?_workspace_short : named? .workspace word = none := by
  cases h : named? .workspace word with
  | none => rfl
  | some w =>
    obtain ⟨x, hx, hfront, -⟩ := named?_cases h
    exact absurd ((names_short.2 x hx).trans hfront) hw

theorem ofShort_workspace : ofShort .workspace word.toList = other word.toList := by
  rcases ofShort_cases .workspace word.toList with h | ⟨x, hx, hfront, -⟩
  · exact h
  · exact absurd ((names_short.2 x hx).trans hfront) hw

/-- A short word is no switch for the workspace. -/
theorem exists_narrows_short (h : classify .commandLine word = .ok w) :
    ∃ w', classify .workspace word = .ok w' ∧ Narrows w w' := by
  unfold classify at h ⊢
  split at h
  · next second rest ht =>
    have hsecond : second ≠ '-' := by
      rintro rfl
      exact hw ⟨rest, ht.symm⟩
    have hhelp : ∀ x ∈ Grammar.commandLine.names, x.1.toList <+: word.toList → x.2 = .help := fun x hx hfront =>
      names_short.1 x hx fun hlong => hw (hlong.trans hfront)
    rw [named?_workspace_short hw]
    simp only [if_neg hsecond] at h ⊢
    rw [ofShort_workspace hw]
    refine ⟨_, rfl, ?_⟩
    split at h
    · next w' hn =>
      obtain rfl := Except.ok.inj h
      obtain ⟨x, hx, hfront, ⟨value, rfl⟩ | ⟨chars, rfl⟩⟩ := named?_cases hn
      · rw [hhelp x hx hfront]
        exact other_cases _
      · exact hhelp x hx hfront
    · obtain rfl := Except.ok.inj h
      rcases ofShort_cases .commandLine word.toList with hs | ⟨x, hx, hfront, chars, hs⟩
      · rw [hs]
        exact narrows_other _
      · rw [hs]
        exact hhelp x hx hfront
  · obtain rfl := Except.ok.inj h
    exact ⟨.operand, rfl, rfl⟩

end Short

theorem exists_narrows (h : classify .commandLine word = .ok w) :
    ∃ w', classify .workspace word = .ok w' ∧ Narrows w w' := by
  by_cases hw : IsLong word.toList
  · exact exists_narrows_long hw h
  · exact exists_narrows_short hw h

/-- If the words can be told apart in the whole command line, they can be when the workspace is looked for. -/
theorem exists_classifyAll_workspace {words : List String} {xs : List (String × Word)}
    (h : classifyAll .commandLine words = .ok xs) : ∃ ys, classifyAll .workspace words = .ok ys ∧
      List.Forall₂ (fun x y => x.1 = y.1 ∧ Narrows x.2 y.2) xs ys := by
  induction words generalizing xs with
  | nil =>
    obtain rfl := Except.ok.inj h
    exact ⟨[], rfl, .nil⟩
  | cons word words ih =>
    by_cases hx : word = "--"
    · rw [classifyAll, if_pos hx] at h ⊢
      obtain rfl := Except.ok.inj h
      refine ⟨_, rfl, .cons ⟨rfl, trivial⟩ ?_⟩
      exact List.forall₂_same.mpr fun x hx => ⟨rfl, by
        obtain ⟨v, -, rfl⟩ := List.mem_map.mp hx
        exact rfl⟩
    · obtain ⟨w, rest, rfl, hrest, hw⟩ := exists_of_classifyAll_cons hx h
      obtain ⟨w', hw', hnarrows⟩ := exists_narrows hw
      obtain ⟨ys, hys, hall⟩ := ih hrest
      exact ⟨(word, w') :: ys, by rw [classifyAll_cons hx hw', hys]; rfl, .cons ⟨rfl, hnarrows⟩ hall⟩

/-- What a word is to the reading that looks for the workspace. -/
theorem classify_workspace_cases (h : classify .workspace word = .ok w) :
    (w = .operand ∨ w = .unknown) ∨ (IsLong word.toList ∧ ∃ x, expansions .workspace (splitValue word.toList).1 = [x] ∧
      w = .switch x.2 ((splitValue word.toList).2.map String.ofList)) := by
  by_cases hw : IsLong word.toList
  · rw [classify_long Grammar.hasPlainNames_workspace hw, ofLong] at h
    dsimp only at h
    split at h
    · obtain rfl := Except.ok.inj h
      exact Or.inl (other_cases _)
    · next n s he =>
      obtain rfl := Except.ok.inj h
      exact Or.inr ⟨hw, (n, s), he, rfl⟩
    · cases h
  · refine Or.inl ?_
    rw [classify, named?_workspace_short hw] at h
    split at h
    · next second rest ht =>
      have hsecond : second ≠ '-' := by
        rintro rfl
        exact hw ⟨rest, ht.symm⟩
      rw [if_neg hsecond, ofShort_workspace hw] at h
      obtain rfl := Except.ok.inj h
      exact other_cases _
    · exact Or.inl (Except.ok.inj h).symm

theorem mem_classifyAll_iff {words : List String} {xs : List (String × Word)} (h : classifyAll g words = .ok xs)
    (ho : w ≠ .operand) (ht : w ≠ .terminator) :
    (word, w) ∈ xs ↔ word ∈ words.takeWhile (· != "--") ∧ classify g word = .ok w := by
  induction words generalizing xs with
  | nil =>
    obtain rfl := Except.ok.inj h
    simp
  | cons x words ih =>
    by_cases hx : x = "--"
    · rw [classifyAll, if_pos hx] at h
      obtain rfl := Except.ok.inj h
      simp [hx, ht, Ne.symm ho]
    · obtain ⟨w', rest, rfl, hrest, hw'⟩ := exists_of_classifyAll_cons hx h
      rw [List.mem_cons, ih hrest, List.takeWhile_cons_of_pos (by simpa using hx), List.mem_cons, Prod.mk.injEq]
      constructor
      · rintro (⟨rfl, rfl⟩ | ⟨hmem, hw⟩)
        · exact ⟨Or.inl rfl, hw'⟩
        · exact ⟨Or.inr hmem, hw⟩
      · rintro ⟨rfl | hmem, hw⟩
        · exact Or.inl ⟨rfl, Except.ok.inj (hw.symm.trans hw')⟩
        · exact Or.inr ⟨hmem, hw⟩

end Word

/-! ## Stray words -/

/-- A word that a command takes for its own and that is a switch for the workspace as well: an abbreviation that both
understand, or a switch with its value that holds a space and is therefore a path or a value to the command. -/
def Word.Stray (word : String) : Prop :=
  word = "--c" ∨ (' ' ∈ word.toList ∧ ∃ s value, Word.classify .workspace word = .ok (.switch s (some value)))

namespace Word

variable {word : String} {s : Switch} {value : Option String}

theorem Stray.exists_switch (h : Stray word) : ∃ s value, classify .workspace word = .ok (.switch s value) := by
  rcases h with rfl | ⟨-, s, value, h⟩
  · exact ⟨.config, none, rfl⟩
  · exact ⟨s, some value, h⟩

/-- The abbreviations of switches for the workspace hold no space, and only one of them is known to the command. -/
theorem abbreviations_facts : ∀ x ∈ Grammar.workspace.names, ' ' ∉ x.1.toList ∧ ∀ k ≤ x.1.toList.length,
    expansions .workspace (x.1.toList.take k) = [x] → expansions .format (x.1.toList.take k) = [] ∨
      x.1.toList.take k = ['-', '-', 'c'] := by decide

theorem isNegative_long {t : Text} (h : IsLong t) : isNegative t = false := by
  obtain ⟨t, rfl⟩ := h
  have hfeed : ∃ t', withoutLastFeed ('-' :: t) = '-' :: t' := by
    rw [withoutLastFeed]
    split
    · next hlast =>
      cases t with
      | nil => cases hlast
      | cons c t => exact ⟨(c :: t).dropLast, rfl⟩
    · exact ⟨t, rfl⟩
  obtain ⟨t', ht'⟩ := hfeed
  show isNumeral (withoutLastFeed ('-' :: t)) = false
  rw [ht']
  rfl

theorem fst_splitValue_of_none {t : Text} (h : (splitValue t).2 = none) : (splitValue t).1 = t := by
  rw [fst_splitValue]
  rw [splitValue] at h
  split at h
  · next hd =>
    have hfront := List.takeWhile_prefix (l := t) (· != '=')
    exact hfront.eq_of_length_le (List.drop_eq_nil_iff.mp hd)
  · cases h

/-- What the command makes of a switch for the workspace. -/
theorem stray_or_refused (h : classify .workspace word = .ok (.switch s value)) : Stray word ∨
    classify .format word = .ok .unknown ∨ ∃ v, classify .format word = .ok (.switch .check (some v)) := by
  rcases classify_workspace_cases h with (hw | hw) | ⟨hlong, x, hx, hw⟩
  · cases hw
  · cases hw
  have hmem : x ∈ Grammar.workspace.names ∧ (splitValue word.toList).1 <+: x.1.toList := by
    have hmem : x ∈ expansions .workspace (splitValue word.toList).1 := by rw [hx]; exact List.mem_singleton_self x
    simpa [expansions] using hmem
  obtain ⟨hname, hfront⟩ := hmem
  obtain ⟨hspace, habbreviations⟩ := abbreviations_facts x hname
  have htake := List.prefix_iff_eq_take.mp hfront
  have hformat : classify .format word = ofLong .format word := classify_long Grammar.hasPlainNames_format hlong
  have hkinds := habbreviations _ hfront.length_le (htake ▸ hx)
  rw [← htake] at hkinds
  rcases hkinds with hnil | hc
  · -- The command does not know the switch.
    have hother : classify .format word = .ok (other word.toList) := by
      rw [hformat, ofLong]
      simp only [hnil]
    by_cases hsp : ' ' ∈ word.toList
    · cases hv : (splitValue word.toList).2 with
      | none =>
        rw [fst_splitValue_of_none hv] at hfront
        exact absurd (hfront.subset hsp) hspace
      | some v =>
        rw [hv] at hw
        exact Or.inl (Or.inr ⟨hsp, _, _, hw ▸ h⟩)
    · refine Or.inr (Or.inl ?_)
      rw [hother, other, isNegative_long hlong]
      simp [hsp]
  · -- The command takes the abbreviation for the switch for checks.
    cases hv : (splitValue word.toList).2 with
    | none =>
      refine Or.inl (Or.inl ?_)
      rw [fst_splitValue_of_none hv] at hc
      exact String.toList_injective hc
    | some v =>
      refine Or.inr (Or.inr ⟨String.ofList v, ?_⟩)
      rw [hformat, ofLong]
      simp only [hc, hv]
      rfl

/-- A switch is one of the grammar's. -/
theorem classify_cases {g : Grammar} {w : Word} (h : classify g word = .ok w) : (w = .operand ∨ w = .unknown) ∨
    ∃ x ∈ g.names, (∃ value, w = .switch x.2 value) ∨ ∃ rest, w = .cluster x.2 rest := by
  rw [classify] at h
  split at h
  · split at h
    · next w' hn =>
      obtain rfl := Except.ok.inj h
      obtain ⟨x, hx, -, hcases⟩ := named?_cases hn
      exact Or.inr ⟨x, hx, hcases⟩
    · split at h
      · rw [ofLong] at h
        dsimp only at h
        split at h
        · obtain rfl := Except.ok.inj h
          exact Or.inl (other_cases _)
        · next n s he =>
          obtain rfl := Except.ok.inj h
          have hmem : (n, s) ∈ expansions g (splitValue word.toList).1 := by rw [he]; exact List.mem_singleton_self _
          exact Or.inr ⟨(n, s), (List.mem_filter.mp hmem).1, Or.inl ⟨_, rfl⟩⟩
        · cases h
      · obtain rfl := Except.ok.inj h
        rcases ofShort_cases g word.toList with hs | ⟨x, hx, -, hs⟩
        · rw [hs]
          exact Or.inl (other_cases _)
        · exact Or.inr ⟨x, hx, Or.inr hs⟩
  · exact Or.inl (Or.inl (Except.ok.inj h).symm)

end Word

end ScriptCase
