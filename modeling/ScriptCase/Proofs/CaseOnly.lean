import ScriptCase.Proofs.FormatLine
import ScriptCase.Text.Lowercase

/-!
# Lines in lower case

Formatting a line changes nothing but the case of characters, so one would like to say that a line and its formatted
form are the same text in lower case. For most characters this is so (`lower_upper`). There are exceptions: the letters
of `strayLetters` share their upper-case form with another letter, to which lower case leads, and the two small sigmas
share theirs as well, where the place in the word decides to which one it leads.

These are the only exceptions. A line and the same line in upper case at some places agree in lower case just when no
character that was changed is one of them (`Uppered.lowerText_eq_iff`). So it is for a line and its formatted form
(`Formatter.formatLine_lowerText`), which need not agree (`Formatter.formatLine_dotless`).
-/

namespace ScriptCase
namespace Text

/-! ## The tables -/

/-- The letters that share their upper-case form with another letter, to which lower case leads. -/
def strayLetters : List Nat :=
  [0xb5, 0x131, 0x17f, 0x345, 0x3d0, 0x3d1, 0x3d5, 0x3d6, 0x3f0, 0x3f1, 0x3f5, 0x1c80, 0x1c81, 0x1c82, 0x1c83, 0x1c84,
    0x1c85, 0x1c86, 0x1c87, 0x1c88, 0x1e9b, 0x1fbe]

theorem strayLetters_facts : ∀ n ∈ strayLetters,
    lower (upper (Char.ofNat n)) ≠ lower (Char.ofNat n) ∧ n ≠ 0x3c2 ∧ n ≠ 0x3c3 := by decide +kernel

/-- A run that is not undone by the other table is looked at point by point. -/
theorem upperRuns_lower : ∀ r ∈ upperRuns,
    (0x80 ≤ r.image ∧ r.undone = true ∧ bits r.points &&& bits (lowerRuns.flatMap CaseRun.points) = 0) ∨
      ∀ n ∈ r.points, n ∈ strayLetters ∨ n = 0x3c2 ∨ lower (Char.ofNat (r.target n)) = lower (Char.ofNat n) := by
  decide +kernel

/-- No upper-case form is a capital i with a dot, and the capital sigma is that of the two small ones. -/
theorem upperRuns_specials : ∀ r ∈ upperRuns, ∀ n ∈ r.points,
    r.target n ≠ 0x130 ∧ (r.target n = 0x3a3 → n = 0x3c2 ∨ n = 0x3c3) := by decide +kernel

/-- The characters that upper case changes, but for the iota subscript, and those that it leads to. -/
def shifting : List Nat :=
  (List.range 0x80).filter (fun n => (Char.ofNat n).isAlpha) ++
    ((upperRuns.flatMap CaseRun.points).filter (· != 0x345) ++ upperRuns.flatMap CaseRun.images)

theorem shifting_facts : bits shifting &&& rangeBits casedRanges = bits shifting ∧
    bits shifting &&& rangeBits caseIgnorableRanges = 0 := by decide +kernel

/-! ## Upper case and back -/

theorem ne_of_mem_strayLetters {c : Char} (h : c.toNat ∈ strayLetters) :
    lower (upper c) ≠ lower c ∧ c ≠ 'ς' ∧ c ≠ 'σ' := by
  obtain ⟨hne, h₁, h₂⟩ := strayLetters_facts _ h
  rw [Char.ofNat_toNat] at hne
  refine ⟨hne, ?_, ?_⟩
  · rintro rfl
    exact h₁ rfl
  · rintro rfl
    exact h₂ rfl

/-- Lower case leads from an upper-case form back to where it came from, but for stray letters and the final sigma. -/
theorem lower_upper {c : Char} (hs : c.toNat ∉ strayLetters) (hf : c ≠ 'ς') : lower (upper c) = lower c := by
  by_cases hc : c.toNat < 0x80
  · exact ascii_forall (P := fun c => lower (upper c) = lower c) (by decide) hc
  rcases upper_cases (Nat.le_of_not_lt hc) with h | ⟨r, hr, hn, h⟩
  · rw [h]
  rw [h]
  rcases upperRuns_lower r hr with ⟨hi, hu, hb⟩ | hp
  · exact lower_target_of_undone hr hu hb (Nat.le_of_not_lt hc) hn hi
  · rcases hp _ hn.mem_points with hm | hm | hm
    · exact absurd hm hs
    · exact absurd (Char.toNat_inj.mp hm) hf
    · rwa [Char.ofNat_toNat] at hm

/-- The characters that become a capital sigma or a capital i with a dot. -/
theorem upper_specials (c : Char) :
    (upper c = 'Σ' → c = 'Σ' ∨ c = 'ς' ∨ c = 'σ') ∧ (upper c = 'İ' → c = 'İ') := by
  by_cases hc : c.toNat < 0x80
  · have hlt := toNat_upper_lt hc
    refine ⟨fun h => ?_, fun h => ?_⟩ <;> rw [h] at hlt <;> exact absurd hlt (by decide)
  rcases upper_cases (Nat.le_of_not_lt hc) with h | ⟨r, hr, hn, h⟩
  · rw [h]
    exact ⟨Or.inl, id⟩
  · obtain ⟨hdot, hsigma⟩ := upperRuns_specials r hr _ hn.mem_points
    rw [← toNat_upperTarget hr hn, ← h] at hdot hsigma
    refine ⟨fun h => Or.inr ?_, fun h => absurd (congrArg Char.toNat h) hdot⟩
    exact (hsigma (congrArg Char.toNat h)).imp (fun h => Char.toNat_inj.mp h) fun h => Char.toNat_inj.mp h

/-! ## One character of a text -/

/-- A character between these texts, the first of them reversed, ends a word. -/
def endsWord (before after : Text) : Bool := startsCased before && !startsCased after

/-- The lower-case form of a character that ends a word or does not. -/
def lowerBy (final : Bool) (c : Char) : Text :=
  if c = 'Σ' then [if final then 'ς' else 'σ'] else if c = 'İ' then ['i', '\u0307'] else [lower c]

theorem lowerWithin_eq (before : Text) (c : Char) (after : Text) :
    lowerWithin before c after = lowerBy (endsWord before after) c := rfl

theorem length_lowerBy (final : Bool) (c : Char) : (lowerBy final c).length = if c = 'İ' then 2 else 1 := by
  unfold lowerBy
  by_cases hs : c = 'Σ'
  · subst hs
    simp
  · rw [if_neg hs]
    split <;> rfl

theorem length_lowerBy_upper (final final' : Bool) (c : Char) :
    (lowerBy final (upper c)).length = (lowerBy final' c).length := by
  have hdot : upper c = 'İ' ↔ c = 'İ' := by
    refine ⟨(upper_specials c).2, ?_⟩
    rintro rfl
    decide
  simp only [length_lowerBy, hdot]

/-- A character that was put in upper case has the same lower case as before just when it is no stray letter, and a
small sigma only where it belongs. What the place of the character was before does not matter. -/
theorem lowerBy_upper_iff {c : Char} (h : upper c ≠ c) (final final' : Bool) :
    lowerBy final (upper c) = lowerBy final' c ↔
      c.toNat ∉ strayLetters ∧ (c = 'σ' → final = false) ∧ (c = 'ς' → final = true) := by
  have hsigma : c ≠ 'Σ' := by
    rintro rfl
    exact h (by decide)
  have hdot : c ≠ 'İ' := by
    rintro rfl
    exact h (by decide)
  -- the two characters whose upper-case form is put in lower case by its place
  by_cases hσ : c = 'σ'
  · subst hσ
    cases final <;> cases final' <;> decide
  by_cases hς : c = 'ς'
  · subst hς
    cases final <;> cases final' <;> decide
  have hsigma' : upper c ≠ 'Σ' := fun h => by simpa [hsigma, hς, hσ] using (upper_specials c).1 h
  have hdot' : upper c ≠ 'İ' := fun h => hdot ((upper_specials c).2 h)
  simp only [lowerBy, if_neg hsigma, if_neg hsigma', if_neg hdot, if_neg hdot', List.cons.injEq, and_true, hσ, hς,
    false_implies]
  constructor
  · intro he hm
    exact (ne_of_mem_strayLetters hm).1 he
  · intro hm
    exact lower_upper hm hς

/-! ## Ends of words -/

/-- How a character counts where the end of a word is looked for. -/
def caseKind (c : Char) : Bool × Bool := (inRanges caseIgnorableRanges c, inRanges casedRanges c)

theorem caseKind_of_shifting {c : Char} (h : c.toNat ∈ shifting) : caseKind c = (false, true) := by
  rw [caseKind, not_inRanges_of_bits shifting_facts.2 h, inRanges_of_bits shifting_facts.1 h]

theorem mem_shifting {c : Char} (h : upper c ≠ c) (hs : c.toNat ≠ 0x345) :
    c.toNat ∈ shifting ∧ (upper c).toNat ∈ shifting := by
  by_cases hc : c.toNat < 0x80
  · have := ascii_forall (P := fun c => upper c ≠ c → c.isAlpha = true ∧ (upper c).isAlpha = true) (by decide) hc h
    refine ⟨?_, ?_⟩ <;> refine List.mem_append_left _ (List.mem_filter.mpr ⟨List.mem_range.mpr ?_, ?_⟩)
    · exact hc
    · rw [Char.ofNat_toNat]
      exact this.1
    · exact toNat_upper_lt hc
    · rw [Char.ofNat_toNat]
      exact this.2
  · rcases upper_cases (Nat.le_of_not_lt hc) with hu | ⟨r, hr, hn, hu⟩
    · exact absurd hu h
    · refine ⟨List.mem_append_right _ (List.mem_append_left _ ?_), List.mem_append_right _ (List.mem_append_right _ ?_)⟩
      · exact List.mem_filter.mpr ⟨List.mem_flatMap.mpr ⟨r, hr, hn.mem_points⟩, by simpa using hs⟩
      · rw [hu, toNat_upperTarget hr hn]
        exact List.mem_flatMap.mpr ⟨r, hr, hn.target_mem⟩

/-- Upper case changes how a character counts for the iota subscript only. -/
theorem caseKind_upper {c : Char} (hs : c.toNat ≠ 0x345) : caseKind (upper c) = caseKind c := by
  by_cases h : upper c = c
  · rw [h]
  · obtain ⟨h₁, h₂⟩ := mem_shifting h hs
    rw [caseKind_of_shifting h₁, caseKind_of_shifting h₂]

theorem startsCased_cons (c : Char) (t : Text) :
    startsCased (c :: t) = if (caseKind c).1 then startsCased t else (caseKind c).2 := by
  cases h : inRanges caseIgnorableRanges c <;> simp [startsCased, caseKind, h]

theorem startsCased_congr {s t : Text} (h : s.map caseKind = t.map caseKind) : startsCased s = startsCased t := by
  induction s generalizing t with
  | nil => rw [List.map_eq_nil_iff.mp h.symm]
  | cons c s ih =>
    cases t with
    | nil => cases h
    | cons d t =>
      obtain ⟨hc, ht⟩ := List.cons.inj h
      rw [startsCased_cons, startsCased_cons, hc, ih ht]

/-- The character at a place of a text ends a word. -/
def endsWordAt (t : Text) (i : Nat) : Bool := endsWord (t.take i).reverse (t.drop (i + 1))

theorem endsWordAt_congr {s t : Text} (h : s.map caseKind = t.map caseKind) (i : Nat) :
    endsWordAt s i = endsWordAt t i := by
  have hbefore : startsCased (s.take i).reverse = startsCased (t.take i).reverse :=
    startsCased_congr (by simp only [List.map_reverse, List.map_take, h])
  have hafter : startsCased (s.drop (i + 1)) = startsCased (t.drop (i + 1)) :=
    startsCased_congr (by simp only [List.map_drop, h])
  rw [endsWordAt, endsWord, hbefore, hafter, ← endsWord, ← endsWordAt]

/-! ## Texts -/

/-- Texts whose characters are equally long in lower case agree in lower case just when their characters do. The
induction is on both texts at once; what was read of them is collected in front. -/
theorem lowerAfter_eq_iff {t u : Text}
    (h : List.Forall₂ (fun c d => ∀ f g, (lowerBy f d).length = (lowerBy g c).length) t u) (bt bu : Text) :
    lowerAfter bu u = lowerAfter bt t ↔ ∀ i c d, t[i]? = some c → u[i]? = some d →
      lowerBy (endsWord ((u.take i).reverse ++ bu) (u.drop (i + 1))) d =
        lowerBy (endsWord ((t.take i).reverse ++ bt) (t.drop (i + 1))) c := by
  induction h generalizing bt bu with
  | nil => simp [lowerAfter]
  | @cons c d t u hcd htu ih =>
    simp only [lowerAfter, lowerWithin_eq]
    constructor
    · intro heq
      obtain ⟨hhead, htail⟩ := List.append_inj heq (hcd _ _)
      rintro (_ | i) c' d' hc' hd'
      · cases hc'
        cases hd'
        exact hhead
      · simpa using (ih _ _).mp htail i c' d' hc' hd'
    · intro hall
      congr 1
      · exact hall 0 c d rfl rfl
      · refine (ih _ _).mpr fun i c' d' hc' hd' => ?_
        simpa using hall (i + 1) c' d' hc' hd'

/-- A character at a place comes back when it is put in upper case and then the text in lower case. -/
def ComesBack (t : Text) (i : Nat) (c : Char) : Prop :=
  c.toNat ∉ strayLetters ∧ (c = 'σ' → endsWordAt t i = false) ∧ (c = 'ς' → endsWordAt t i = true)

theorem comesBack_of_lt {c : Char} (hc : c.toNat < 0x80) (t : Text) (i : Nat) : ComesBack t i c := by
  refine ⟨fun hm => ?_, ?_, ?_⟩
  · have hbeyond : ∀ n ∈ strayLetters, 0x80 ≤ n := by decide
    exact absurd hc (Nat.not_lt.mpr (hbeyond _ hm))
  · rintro rfl
    exact absurd hc (by decide)
  · rintro rfl
    exact absurd hc (by decide)

end Text

open Text

namespace Rule

section Lowercase

variable {V : Set Nat} {t u : Text}

theorem Uppered.getElem?_some (h : Uppered V t u) {i : Nat} {c : Char} (hc : t[i]? = some c) :
    u[i]? = some c ∨ u[i]? = some (upper c) := by
  rcases h.getElem? i with h' | h' <;> rw [h', hc]
  · exact Or.inr rfl
  · exact Or.inl rfl

/-- What was changed was put in upper case. -/
theorem Uppered.getElem?_changed (h : Uppered V t u) {i : Nat} {c : Char} (hc : t[i]? = some c)
    (hu : u[i]? ≠ some c) : u[i]? = some (upper c) ∧ upper c ≠ c := by
  have hup : u[i]? = some (upper c) := (h.getElem?_some hc).resolve_left hu
  refine ⟨hup, fun he => hu ?_⟩
  rw [hup, he]

theorem Uppered.lowerText_pieces (h : Uppered V t u) : lowerText u = lowerText t ↔
    ∀ i c d, t[i]? = some c → u[i]? = some d → lowerBy (endsWordAt u i) d = lowerBy (endsWordAt t i) c := by
  have hlen : List.Forall₂ (fun c d => ∀ f g, (lowerBy f d).length = (lowerBy g c).length) t u := by
    refine List.forall₂_iff_get.mpr ⟨h.length_eq.symm, fun i h₁ h₂ f g => ?_⟩
    have hi := h.getElem?_some (List.getElem?_eq_getElem h₁)
    rw [List.getElem?_eq_getElem h₂, Option.some.injEq, Option.some.injEq] at hi
    simp only [List.get_eq_getElem]
    rcases hi with hi | hi <;> rw [hi]
    · rw [length_lowerBy, length_lowerBy]
    · exact length_lowerBy_upper f g _
  simpa only [lowerText, endsWordAt, List.append_nil] using lowerAfter_eq_iff hlen [] []

/-- Words end where they did, unless a stray letter was changed. -/
theorem Uppered.endsWordAt_eq (h : Uppered V t u)
    (hs : ∀ (i : Nat) (c : Char), t[i]? = some c → u[i]? ≠ some c → c.toNat ∉ strayLetters) (i : Nat) :
    endsWordAt u i = endsWordAt t i := by
  apply endsWordAt_congr
  apply List.ext_getElem?
  intro j
  rw [List.getElem?_map, List.getElem?_map]
  cases hc : t[j]? with
  | none => rw [List.getElem?_eq_none (by rw [h.length_eq]; exact List.getElem?_eq_none_iff.mp hc)]
  | some c =>
    by_cases hu : u[j]? = some c
    · rw [hu]
    · -- the iota subscript, which counts differently in upper case, is a stray letter
      have hne : c.toNat ≠ 0x345 := fun he => hs j c hc hu (by rw [he]; decide)
      rw [(h.getElem?_changed hc hu).1, Option.map_some, Option.map_some, caseKind_upper hne]

/-- A text and the same text in upper case at some places agree in lower case just when all characters that were changed
come back. -/
theorem Uppered.lowerText_eq_iff (h : Uppered V t u) :
    lowerText u = lowerText t ↔ ∀ i c, t[i]? = some c → u[i]? ≠ some c → ComesBack t i c := by
  rw [h.lowerText_pieces]
  constructor
  · intro hpieces
    have hback : ∀ i c, t[i]? = some c → u[i]? ≠ some c →
        c.toNat ∉ strayLetters ∧ (c = 'σ' → endsWordAt u i = false) ∧ (c = 'ς' → endsWordAt u i = true) := by
      intro i c hc hu
      obtain ⟨hup, hne⟩ := h.getElem?_changed hc hu
      exact (lowerBy_upper_iff hne _ _).mp (hpieces i c _ hc hup)
    -- no stray letter was changed, so words end at the same places in both texts
    have hends := h.endsWordAt_eq fun i c hc hu => (hback i c hc hu).1
    intro i c hc hu
    rw [ComesBack, ← hends]
    exact hback i c hc hu
  · intro hback i c d hc hd
    have hends := h.endsWordAt_eq fun i c hc hu => (hback i c hc hu).1
    rw [hends]
    by_cases hu : u[i]? = some c
    · rw [hd] at hu
      rw [Option.some.inj hu]
    · obtain ⟨hup, hne⟩ := h.getElem?_changed hc hu
      rw [hd] at hup
      rw [Option.some.inj hup]
      exact (lowerBy_upper_iff hne _ _).mpr (hback i c hc hu)

end Lowercase

end Rule

open Rule

/--
A formatted line is as long as the line without its trailing blanks and differs from it in the case of characters only.
The two agree in lower case just when all characters that were changed come back.
-/
theorem Formatter.formatLine_lowerText (table : Table) (line : Text) :
    ∃ u, (ofTable table).formatLine line = .ok u ∧ u.length = (trimEnd line).length ∧
      (∀ (i : Nat) (c : Char), (trimEnd line)[i]? = some c → u[i]? = some c ∨ u[i]? = some (upper c)) ∧
      (lowerText u = lowerText (trimEnd line) ↔
        ∀ (i : Nat) (c : Char), (trimEnd line)[i]? = some c → u[i]? ≠ some c → ComesBack (trimEnd line) i c) := by
  obtain ⟨V, hV⟩ := exists_uppered_lineText table line
  exact ⟨_, formatLine_ofTable table line, hV.length_eq, fun i c hc => hV.getElem?_some hc, hV.lowerText_eq_iff⟩

/-- A dotless i in the name of a section becomes a capital i, from which lower case leads to the i with a dot. -/
theorem Formatter.formatLine_dotless : (ofTable .bundled).formatLine "[ı]".toList = .ok "[I]".toList ∧
    lowerText "[I]".toList ≠ lowerText (trimEnd "[ı]".toList) := by
  decide +kernel

/-- A line of ASCII and its formatted form agree in lower case. -/
theorem Formatter.lowerText_lineText_ascii (table : Table) {line : Text} (h : ∀ c ∈ line, c.toNat < 0x80) :
    lowerText (lineText table line) = lowerText (trimEnd line) := by
  obtain ⟨V, hV⟩ := exists_uppered_lineText table line
  refine hV.lowerText_eq_iff.mpr fun i c hc _ => comesBack_of_lt (h c ?_) _ i
  exact (List.rdropWhile_prefix isBlank line).mem (List.mem_of_getElem? hc)

end ScriptCase
