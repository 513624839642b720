import ScriptCase.Proofs.Places
import ScriptCase.Rule.Trigger

/-!
# Passes over a line

The rules run one after another, each on the line that the ones before it left. This module says why the order of such
passes does not show. A pass puts places in upper case that it finds by words, letters and signs (`IsPass`). Letters and
signs are not changed by other passes, and words are not either, with one exception: a mark in a trigger declaration may
become a letter and join two words (`Text.isWord_upper` has no converse). Then, however, the whole declaration is in
upper case already. So what a pass may still find afterwards lies among the places that are in upper case anyway
(`Harmless`, `wordRun_congr`, `declares_congr`).

Passes compose (`IsPass.comp`, `IsPass.foldl`): together they put in upper case what each of them finds in the original
line.
-/

namespace ScriptCase
namespace Rule

open Text

/-! ## Words -/

/-- The places from `a` up to before `b` hold a word, which cannot be made longer on either side. -/
structure WordRun (t : Text) (a b : Nat) : Prop where
  lt : a < b
  word : ∀ i, a ≤ i → i < b → isWordAt t[i]? = true
  start : isWordAt (before t a) = false
  stop : isWordAt t[b]? = false

/-- The places of the words that are picked. -/
def picked (Picks : Nat → Nat → Prop) (t : Text) : Set Nat := {i | ∃ a b, WordRun t a b ∧ Picks a b ∧ a ≤ i ∧ i < b}

theorem isBlank_of_isWordAt {o : Option Char} (h : isWordAt o = true) : ∃ c, o = some c ∧ isBlank c = false := by
  cases o with
  | none => cases h
  | some c =>
    refine ⟨c, rfl, Bool.eq_false_iff.mpr fun hb => ?_⟩
    rw [isWordAt, isWord_of_isBlank hb] at h
    cases h

/-! ## Trigger declarations -/

/--
A trigger declaration begins at place `p` and ends before place `q`: at the start of a word stand the opening mark, a
word character, and then neither blanks nor slashes up to the end of the line or the next blank.
-/
structure Declares (t : Text) (p q : Nat) : Prop where
  lt : p < q
  boundary : isBoundary (before t p) t[p]? = true
  mark : Spells triggerMark t p
  name : isWordAt t[p + triggerMark.length]? = true
  body : ∀ i, p ≤ i → i < q → ∃ c, t[i]? = some c ∧ isBlank c = false ∧ c ≠ '/'
  stop : ∀ c, t[q]? = some c → isBlank c = true

/-- The places of all trigger declarations. -/
def triggered (t : Text) : Set Nat := {i | ∃ p q, Declares t p q ∧ p ≤ i ∧ i < q}

section Triggered

variable {t : Text} {i p q : Nat}

/-- The first character of a declaration is a word character. -/
theorem Spells.isWordAt_start (h : Spells triggerMark t p) : isWordAt t[p]? = true := by
  have := h.getElem? (j := 0) (by decide)
  rw [Nat.add_zero] at this
  obtain ⟨c, hc, hl⟩ := Option.map_eq_some_iff.mp this
  rw [hc]
  exact isWord_of_letter (p := 'o') (by decide) hl

/-- No word character stands right before a declaration. -/
theorem Declares.isWordAt_before (h : Declares t p q) : isWordAt (before t p) = false := by
  have := h.boundary
  rw [isBoundary, h.mark.isWordAt_start] at this
  simpa using this

/-- A declaration goes on up to the next blank. -/
theorem triggered_succ (h : i ∈ triggered t) {c : Char} (hc : t[i + 1]? = some c) (hb : isBlank c = false) :
    i + 1 ∈ triggered t := by
  obtain ⟨p, q, hd, hp, hq⟩ := h
  refine ⟨p, q, hd, by omega, ?_⟩
  rcases Nat.eq_or_lt_of_le (show i + 1 ≤ q by omega) with he | hl
  · rw [hd.stop c (by rw [← he, hc])] at hb
    cases hb
  · exact hl

/-- Where the places of declarations begin, a declaration begins. -/
theorem declares_of_not_triggered (h : i ∉ triggered t) (h' : i + 1 ∈ triggered t) : ∃ q, Declares t (i + 1) q := by
  obtain ⟨p, q, hd, hp, hq⟩ := h'
  rcases Nat.eq_or_lt_of_le hp with rfl | hl
  · exact ⟨q, hd⟩
  · exact absurd ⟨p, q, hd, by omega, by omega⟩ h

/-- No declaration begins right behind a word character. -/
theorem not_triggered_succ (h : i ∉ triggered t) (hw : isWordAt t[i]? = true) : i + 1 ∉ triggered t := by
  intro h'
  obtain ⟨q, hd⟩ := declares_of_not_triggered h h'
  have hbefore := hd.isWordAt_before
  rw [before, hw] at hbefore
  cases hbefore

theorem triggered_of_le {j : Nat} (h : i ∈ triggered t) (hij : i ≤ j)
    (hb : ∀ k, i < k → k ≤ j → ∃ c, t[k]? = some c ∧ isBlank c = false) : j ∈ triggered t := by
  induction j, hij using Nat.le_induction with
  | base => exact h
  | succ j hj ih =>
    obtain ⟨c, hc, hcb⟩ := hb (j + 1) (by omega) (Nat.le_refl _)
    exact triggered_succ (ih fun k h₁ h₂ => hb k h₁ (by omega)) hc hcb

end Triggered

/-! ## Harmless changes -/

/-- The places hold word characters only, or all trigger declarations are among them and hold the others. -/
def Harmless (t : Text) (V : Set Nat) : Prop :=
  ∀ i ∈ V, isWordAt t[i]? = true ∨ (i ∈ triggered t ∧ triggered t ⊆ V)

section Harmless

variable {V W : Set Nat} {t u : Text}

theorem Harmless.union (hV : Harmless t V) (hW : Harmless t W) : Harmless t (V ∪ W) := by
  rintro i (hi | hi)
  · rcases hV i hi with h | ⟨h, hs⟩
    · exact Or.inl h
    · exact Or.inr ⟨h, hs.trans Set.subset_union_left⟩
  · rcases hW i hi with h | ⟨h, hs⟩
    · exact Or.inl h
    · exact Or.inr ⟨h, hs.trans Set.subset_union_right⟩

theorem harmless_triggered (t : Text) : Harmless t (triggered t) := fun _ hi => Or.inr ⟨hi, Set.Subset.rfl⟩

/-- Outside of declarations, a harmless change leaves word characters and others what they are. -/
theorem Harmless.isWordAt_eq (hV : Harmless t V) (hu : Uppered V t u) {i : Nat}
    (hi : i ∈ triggered t → ¬triggered t ⊆ V) :
    isWordAt u[i]? = isWordAt t[i]? := by
  by_cases hiV : i ∈ V
  · rcases hV i hiV with h | ⟨h, hs⟩
    · rw [h, hu.isWordAt_mono h]
    · exact absurd hs (hi h)
  · rw [(hu i).2 hiV]

/-- A stretch without blanks, with word characters outside of declarations, does not run into a declaration if one of
its places is in none. -/
theorem not_triggered_of_stretch {a b i : Nat} (hi : i ∉ triggered t) (ha : a ≤ i) (hb : i < b)
    (hw : ∀ j, a ≤ j → j < b → j ∉ triggered t → isWordAt t[j]? = true)
    (hc : ∀ j, a ≤ j → j < b → ∃ c, t[j]? = some c ∧ isBlank c = false) :
    ∀ j, a ≤ j → j < b → j ∉ triggered t := by
  intro j haj hjb
  rcases Nat.le_total i j with hij | hji
  · -- to the right, a declaration would begin behind a word character
    induction j, hij using Nat.le_induction with
    | base => exact hi
    | succ j hj ih =>
      have hj' := ih (by omega) (by omega)
      exact not_triggered_succ hj' (hw j (by omega) (by omega) hj')
  · -- to the left, a declaration would go on up to `i`
    exact fun h => hi (triggered_of_le h hji fun k h₁ h₂ => hc k (by omega) (by omega))

/-- Where a harmless change turns a mark into a letter, words that are not in a declaration already stay what they are:
no declaration runs into such a word, begins right behind it or ends right before it. -/
theorem wordRun_congr_of_subset (hV : Harmless t V) (hu : Uppered V t u) (hs : triggered t ⊆ V) {a b i : Nat}
    (hi : i ∉ V) (ha : a ≤ i) (hb : i < b) : WordRun u a b ↔ WordRun t a b := by
  have hiT : i ∉ triggered t := fun h => hi (hs h)
  have heq : ∀ {j}, j ∉ triggered t → isWordAt u[j]? = isWordAt t[j]? := fun hj =>
    hV.isWordAt_eq hu fun h => absurd h hj
  constructor
  · intro h
    have hblank : ∀ j, a ≤ j → j < b → ∃ c, t[j]? = some c ∧ isBlank c = false := fun j h₁ h₂ =>
      (exists_char_congr hu.map_letter (P := fun c => isBlank c = false) (by simp) j).mp
        (isBlank_of_isWordAt (h.word j h₁ h₂))
    have hT := not_triggered_of_stretch hiT ha hb
      (fun j h₁ h₂ hj => by rw [← heq hj]; exact h.word j h₁ h₂) hblank
    refine ⟨h.lt, fun j h₁ h₂ => by rw [← heq (hT j h₁ h₂)]; exact h.word j h₁ h₂, ?_, hu.isWordAt_eq_false h.stop⟩
    cases a with
    | zero => rfl
    | succ a => exact hu.isWordAt_eq_false h.start
  · intro h
    have hblank := fun j h₁ h₂ => isBlank_of_isWordAt (h.word j h₁ h₂)
    have hT := not_triggered_of_stretch hiT ha hb (fun j h₁ h₂ _ => h.word j h₁ h₂) hblank
    refine ⟨h.lt, fun j h₁ h₂ => hu.isWordAt_mono (h.word j h₁ h₂), ?_, ?_⟩
    · cases a with
      | zero => rfl
      | succ a =>
        obtain ⟨c, hc, hcb⟩ := hblank (a + 1) (Nat.le_refl _) h.lt
        have ha' : a ∉ triggered t := fun h' => hT (a + 1) (Nat.le_refl _) h.lt (triggered_succ h' hc hcb)
        rw [before, heq ha']
        exact h.start
    · obtain ⟨b, rfl⟩ : ∃ b', b = b' + 1 := ⟨b - 1, by omega⟩
      have hb' := not_triggered_succ (hT b (by omega) (by omega)) (h.word b (by omega) (by omega))
      rw [heq hb']
      exact h.stop

theorem before_congr (h : ∀ j : Nat, isWordAt u[j]? = isWordAt t[j]?) (a : Nat) :
    isWordAt (before u a) = isWordAt (before t a) := by
  cases a with
  | zero => rfl
  | succ a => exact h a

/-- Words are found by their word characters. -/
theorem WordRun.congr {a b : Nat} (h : WordRun t a b) (heq : ∀ j : Nat, isWordAt u[j]? = isWordAt t[j]?) :
    WordRun u a b := by
  refine ⟨h.lt, fun j h₁ h₂ => ?_, ?_, ?_⟩
  · rw [heq]
    exact h.word j h₁ h₂
  · rw [before_congr heq]
    exact h.start
  · rw [heq]
    exact h.stop

/-- A harmless change cuts off or joins words only among the places that it changes. -/
theorem wordRun_congr (hV : Harmless t V) (hu : Uppered V t u) {a b i : Nat} (hi : i ∉ V) (ha : a ≤ i) (hb : i < b) :
    WordRun u a b ↔ WordRun t a b := by
  by_cases hs : triggered t ⊆ V
  · exact wordRun_congr_of_subset hV hu hs hi ha hb
  · have heq : ∀ j, isWordAt u[j]? = isWordAt t[j]? := fun j => hV.isWordAt_eq hu fun _ => hs
    exact ⟨fun h => h.congr fun j => (heq j).symm, fun h => h.congr heq⟩

/-- Declarations are found by letters, and by word characters at their start and at the start of the name. -/
theorem Declares.of_letters {p q : Nat} (hd : Declares u p q) (hl : u.map letter = t.map letter)
    (hbefore : isWordAt (before t p) = false) (hname : isWordAt t[p + triggerMark.length]? = true) :
    Declares t p q where
  lt := hd.lt
  boundary := by
    have hm := (spells_congr hl).mp hd.mark
    rw [isBoundary, hbefore, hm.isWordAt_start]
    rfl
  mark := (spells_congr hl).mp hd.mark
  name := hname
  body := fun i h₁ h₂ =>
    (exists_char_congr hl (P := fun c => isBlank c = false ∧ c ≠ '/')
      (fun c => by rw [isBlank_letter, Ne, letter_eq_sign (by decide) (by decide)]) i).mp (hd.body i h₁ h₂)
  stop := (forall_char_congr hl (P := fun c => isBlank c = true) (by simp) q).mp hd.stop

/-- Between a place in no declaration and a later one in a declaration, a declaration begins. -/
theorem exists_declares_between {i j : Nat} (hi : i ∉ triggered t) (hj : j ∈ triggered t) (hij : i ≤ j) :
    ∃ p q, Declares t p q ∧ i < p ∧ p ≤ j := by
  obtain ⟨p, q, hd, hp, hq⟩ := hj
  exact ⟨p, q, hd, Nat.lt_of_not_le fun h => hi ⟨p, q, hd, h, by omega⟩, hp⟩

/-- The name of a declaration that is found after a harmless change begins with a word character already before it, if
the declaration has a place that is not changed. Otherwise that character stands in a declaration of its own, which
begins neither in the mark nor before it. -/
theorem Declares.name_of_not_mem (hV : Harmless t V) (hu : Uppered V t u) (hs : triggered t ⊆ V) {p q i : Nat}
    (hd : Declares u p q) (hi : i ∉ V) (hp : p ≤ i) (hq : i < q) : isWordAt t[p + 4]? = true := by
  have hm : Spells triggerMark t p := (spells_congr hu.map_letter).mp hd.mark
  have hiT : i ∉ triggered t := fun h => hi (hs h)
  by_contra hn
  have hT : p + 4 ∈ triggered t := by
    by_cases hpV : p + 4 ∈ V
    · exact ((hV _ hpV).resolve_left hn).1
    · have hname : isWordAt u[p + 4]? = true := hd.name
      rw [(hu _).2 hpV] at hname
      exact absurd hname hn
  rcases Nat.lt_or_ge i (p + 4) with hlt | hge
  · obtain ⟨p', q', hd', h₁, h₂⟩ := exists_declares_between hiT hT (Nat.le_of_lt hlt)
    have hstart := hd'.mark.isWordAt_start
    have hbefore := hd'.isWordAt_before
    obtain rfl | rfl | rfl | rfl : p' = p + 1 ∨ p' = p + 2 ∨ p' = p + 3 ∨ p' = p + 4 := by omega
    · rw [before, hm.isWordAt_start] at hbefore
      cases hbefore
    · rw [hm.sign (j := 2) (by decide) (by decide) (by decide), isWordAt, isWord_ascii (by decide)] at hstart
      exact absurd hstart (by decide)
    · rw [hm.sign (j := 3) (by decide) (by decide) (by decide), isWordAt, isWord_ascii (by decide)] at hstart
      exact absurd hstart (by decide)
    · exact hn hstart
  · refine hiT (triggered_of_le hT hge fun k h₁ h₂ => ?_)
    obtain ⟨c, hc, hb, -⟩ := hd.body k (by omega) (by omega)
    exact (exists_char_congr hu.map_letter (P := fun c => isBlank c = false) (by simp) k).mp ⟨c, hc, hb⟩

/-- A harmless change makes and spoils declarations only among the places that it changes. -/
theorem triggered_congr (hV : Harmless t V) (hu : Uppered V t u) {i : Nat} (hi : i ∉ V) :
    i ∈ triggered u ↔ i ∈ triggered t := by
  by_cases hs : triggered t ⊆ V
  · refine ⟨?_, fun h => absurd (hs h) hi⟩
    rintro ⟨p, q, hd, hp, hq⟩
    refine ⟨p, q, hd.of_letters hu.map_letter ?_ (hd.name_of_not_mem hV hu hs hi hp hq), hp, hq⟩
    cases p with
    | zero => rfl
    | succ p => exact hu.isWordAt_eq_false hd.isWordAt_before
  · have heq : ∀ j : Nat, isWordAt u[j]? = isWordAt t[j]? := fun j => hV.isWordAt_eq hu fun _ => hs
    constructor
    · rintro ⟨p, q, hd, hp, hq⟩
      exact ⟨p, q, hd.of_letters hu.map_letter (by rw [← before_congr heq]; exact hd.isWordAt_before)
        (by rw [← heq]; exact hd.name), hp, hq⟩
    · rintro ⟨p, q, hd, hp, hq⟩
      exact ⟨p, q, hd.of_letters hu.map_letter.symm (by rw [before_congr heq]; exact hd.isWordAt_before)
        (by rw [heq]; exact hd.name), hp, hq⟩

end Harmless

/-! ## Passes -/

/--
The function puts the places `places t` of a line `t` in upper case. The change is harmless, and after another harmless
change the same places are found, up to those that the other change put in upper case already.
-/
structure IsPass (f : Text → Text) (places : Text → Set Nat) : Prop where
  uppered : ∀ t, Uppered (places t) t (f t)
  harmless : ∀ t, Harmless t (places t)
  stable : ∀ {t u V}, Harmless t V → Uppered V t u → ∀ i ∉ V, i ∈ places u ↔ i ∈ places t

namespace IsPass

variable {f g : Text → Text} {S T : Text → Set Nat}

/-- Two passes find together what each of them finds in the original line. -/
theorem comp (hf : IsPass f S) (hg : IsPass g T) : IsPass (fun t => g (f t)) (fun t => S t ∪ T t) where
  uppered t := by
    refine ((hf.uppered t).trans (hg.uppered (f t))).congr fun i _ => ?_
    by_cases hi : i ∈ S t
    · exact iff_of_true (Or.inl hi) (Or.inl hi)
    · exact or_congr Iff.rfl (hg.stable (hf.harmless t) (hf.uppered t) i hi)
  harmless t := (hf.harmless t).union (hg.harmless t)
  stable hV hu i hi := or_congr (hf.stable hV hu i hi) (hg.stable hV hu i hi)

/-- Passes one after another, one for each element of a list. -/
theorem foldl {α : Type} {step : Text → α → Text} {S : α → Text → Set Nat} (l : List α)
    (h : ∀ a ∈ l, IsPass (fun t => step t a) (S a)) :
    IsPass (fun t => l.foldl step t) (fun t => {i | ∃ a ∈ l, i ∈ S a t}) := by
  induction l with
  | nil =>
    refine ⟨fun t => ?_, fun t i hi => ?_, fun _ _ i _ => ?_⟩
    · exact (uppered_empty t).congr fun i _ => by simp
    · simp at hi
    · simp
  | cons a l ih =>
    have hl := ih fun b hb => h b (List.mem_cons_of_mem a hb)
    have := (h a List.mem_cons_self).comp hl
    refine ⟨fun t => (this.uppered t).congr fun i _ => by simp, fun t i hi => ?_, fun hV hu i hi => ?_⟩
    · refine (this.harmless t i (by simpa using hi)).imp_right fun h => ⟨h.1, fun j hj => ?_⟩
      simpa using h.2 hj
    · simpa using this.stable hV hu i hi

/-- A second pass finds nothing new. -/
theorem idempotent (hf : IsPass f S) (t : Text) : f (f t) = f t := by
  have h := (hf.uppered t).trans (hf.uppered (f t))
  refine Uppered.unique (h.congr fun i _ => ?_) (hf.uppered t)
  by_cases hi : i ∈ S t
  · exact iff_of_true (Or.inl hi) hi
  · rw [Set.mem_union, hf.stable (hf.harmless t) (hf.uppered t) i hi, or_self]

/-- Words that are picked by looking at letters and signs make up the places of a pass. -/
theorem of_words {Picks : Text → Nat → Nat → Prop} (hf : ∀ t, Uppered (picked (Picks t) t) t (f t))
    (hp : ∀ {t u : Text}, u.map letter = t.map letter → ∀ a b, Picks u a b ↔ Picks t a b) :
    IsPass f (fun t => picked (Picks t) t) where
  uppered := hf
  harmless t := by
    rintro i ⟨a, b, hw, -, ha, hb⟩
    exact Or.inl (hw.word i ha hb)
  stable hV hu i hi := by
    refine exists_congr fun a => exists_congr fun b => ?_
    rw [hp hu.map_letter]
    refine and_congr_left fun ⟨_, ha, hb⟩ => wordRun_congr hV hu hi ha hb

end IsPass

end Rule
end ScriptCase
