import ScriptCase.Proofs.CaseTables

/-!
# Letters and their cases

The rules look at a character in three ways: as a letter, as a blank or sign, and as a part of a word. This module says
what becomes of each when the character is put in upper case.

* The letter stays (`letter_upper`), and a second time changes nothing (`upper_upper`).
* Blanks and signs can be read off the letter (`isBlank_letter`, `letter_eq_sign`), so they stay as well.
* A word character stays one (`isWord_upper`). The converse fails: the iota subscript becomes a letter.
* Whatever is the letter of a plain character is a word character (`isWord_of_letter`).
-/

namespace ScriptCase
namespace Text

/-! ## Upper case -/

theorem asciiFacts_of_lt {c : Char} (hc : c.toNat < 0x80) : AsciiFacts c := ascii_forall asciiFacts hc

theorem toNat_lt_of_isPlain {c : Char} (h : Entries.isPlain c = true) : c.toNat < 0x80 := by
  simp only [Entries.isPlain, Bool.or_eq_true, beq_iff_eq] at h
  rcases h with h | rfl
  · simp only [Char.isAlphanum, Char.isAlpha, Char.isUpper, Char.isLower, Char.isDigit, Bool.or_eq_true,
      Bool.and_eq_true, decide_eq_true_eq, UInt32.le_iff_toNat_le, ge_iff_le] at h
    have h₀ : c.toNat = c.val.toNat := rfl
    have h₁ : 'Z'.val.toNat = 90 := rfl
    have h₂ : 'z'.val.toNat = 122 := rfl
    have h₃ : '9'.val.toNat = 57 := rfl
    omega
  · decide

/-- Beyond ASCII, a character is its own upper-case form or has it from a run of the table. -/
theorem upper_cases {c : Char} (hc : 0x80 ≤ c.toNat) :
    upper c = c ∨ ∃ r ∈ upperRuns, r.Has c.toNat ∧ upper c = Char.ofNat (r.target c.toNat) := by
  rw [upper, if_neg (by omega)]
  rcases mapCase_cases upperRuns c with ⟨h, _⟩ | h
  · exact Or.inl h
  · exact Or.inr h

theorem toNat_upperTarget {r : CaseRun} (hr : r ∈ upperRuns) {n : Nat} (hn : r.Has n) :
    (Char.ofNat (r.target n)).toNat = r.target n := hn.toNat_target (upperRuns_facts r hr).1

/-- The plain characters that are upper-case forms of characters beyond ASCII. -/
theorem upperTarget_plain {r : CaseRun} (hr : r ∈ upperRuns) {n : Nat} (hn : r.Has n) (hi : r.image < 0x80) :
    r.target n = 0x49 ∨ r.target n = 0x53 := by
  have h₁ := hn.1
  have h₂ := hn.2.1
  rcases (upperRuns_facts r hr).2.1 with h | ⟨_, h | h, _⟩
  · omega
  · exact Or.inl (by unfold CaseRun.target; omega)
  · exact Or.inr (by unfold CaseRun.target; omega)

theorem toNat_upper_lt {c : Char} (hc : c.toNat < 0x80) : (upper c).toNat < 0x80 :=
  ascii_forall (P := fun c => (upper c).toNat < 0x80) (by decide) hc

/-- Two of the first 256 characters have an upper-case form that is none of them. -/
theorem upper_latin {c : Char} (hc : c.toNat < 0x100) :
    (upper c).toNat < 0x100 ∨ upper c = '\u039c' ∨ upper c = '\u0178' := by
  by_cases ha : c.toNat < 0x80
  · exact Or.inl (Nat.lt_trans (toNat_upper_lt ha) (by decide))
  · rcases upper_cases (Nat.le_of_not_lt ha) with h | ⟨r, hr, hn, h⟩
    · exact Or.inl (by rwa [h])
    · have hle := hn.target_le
      have hfirst := hn.1
      have hlast := hn.2.1
      rcases upperRuns_latin r hr with hf | hi | ⟨he, hi⟩
      · omega
      · exact Or.inl (by rw [h, toNat_upperTarget hr hn]; omega)
      · have ht : r.target c.toNat = r.image := by unfold CaseRun.target; omega
        rw [h, ht]
        exact Or.inr (hi.imp (fun hi => by rw [hi]) fun hi => by rw [hi])

/-- Putting a character in upper case twice is putting it in upper case. -/
@[simp] theorem upper_upper (c : Char) : upper (upper c) = upper c := by
  by_cases hc : c.toNat < 0x80
  · exact (asciiFacts_of_lt hc).1.1
  rcases upper_cases (Nat.le_of_not_lt hc) with h | ⟨r, hr, hn, h⟩
  · rw [h, h]
  rw [h]
  have hm := toNat_upperTarget hr hn
  have hle := hn.image_le
  by_cases hp : r.image < 0x80
  · rcases upperTarget_plain hr hn hp with he | he <;> rw [he] <;> decide
  · rw [upper, if_neg (by omega)]
    apply mapCase_of_not_has
    rw [hm]
    intro s hs hsm
    exact not_mem_of_bits_and upperRuns_bits (List.mem_flatMap.mpr ⟨r, hr, hn.target_mem⟩)
      (List.mem_flatMap.mpr ⟨s, hs, hsm.mem_points⟩)

/-! ## Word characters -/

/-- The word characters of ASCII are the plain characters. -/
theorem isWord_ascii {c : Char} (hc : c.toNat < 0x80) : isWord c = Entries.isPlain c := by
  have h : inRanges wordRanges c = false := by
    rw [inRanges, List.any_eq_false]
    intro r hr h
    simp only [Bool.and_eq_true, decide_eq_true_eq] at h
    have := wordRanges_facts.1 r hr
    omega
  simp [isWord, Entries.isPlain, h]

/-- Beyond ASCII, the word characters are those of the table. -/
theorem isWord_beyond {c : Char} (hc : 0x80 ≤ c.toNat) : isWord c = inRanges wordRanges c := by
  have h : Entries.isPlain c = false := by
    rw [Bool.eq_false_iff]
    intro h
    have := toNat_lt_of_isPlain h
    omega
  rw [isWord, ← Entries.isPlain, h, Bool.false_or]

theorem isWord_of_isPlain {c : Char} (h : Entries.isPlain c = true) : isWord c = true := by
  rw [isWord_ascii (toNat_lt_of_isPlain h), h]

/-- A word character stays one in upper case. -/
theorem isWord_upper {c : Char} (h : isWord c = true) : isWord (upper c) = true := by
  by_cases hc : c.toNat < 0x80
  · rw [isWord_ascii hc] at h
    exact isWord_of_isPlain ((asciiFacts_of_lt hc).2.1 h).1
  have hc' := Nat.le_of_not_lt hc
  rcases upper_cases hc' with hu | ⟨r, hr, hn, hu⟩
  · rw [hu]
    exact h
  rcases (upperRuns_facts r hr).2.2.1 with hi | hb | hb
  · rcases upperTarget_plain hr hn hi with he | he <;> rw [hu, he] <;> decide
  · have hw := inRanges_of_bits hb (c := upper c) (by rw [hu, toNat_upperTarget hr hn]; exact hn.target_mem)
    simp [isWord, hw]
  · rw [isWord_beyond hc', not_inRanges_of_bits hb hn.mem_points] at h
    cases h

/-! ## Letters -/

/-- The variant that stands for a letter in lower case. -/
def standIn (l : Char) : Char :=
  match letterVariants.find? (·.1 == l.toNat) with
  | some v => Char.ofNat v.2
  | none => l

theorem letter_eq_standIn (c : Char) : letter c = standIn (lower c) := rfl

theorem standIn_cases (l : Char) :
    standIn l = l ∨ ∃ v ∈ letterVariants, v.1 = l.toNat ∧ standIn l = Char.ofNat v.2 := by
  unfold standIn
  cases h : letterVariants.find? (·.1 == l.toNat) with
  | none => exact Or.inl rfl
  | some v => exact Or.inr ⟨v, List.mem_of_find?_eq_some h, by simpa using List.find?_some h, rfl⟩

theorem lower_beyond {c : Char} (hc : 0x80 ≤ c.toNat) : lower c = mapCase lowerRuns c := by
  rw [lower, if_neg (by omega)]

/-- Where a run is undone by lower case, its images have the lower case of their origins. -/
theorem lower_target_of_undone {r : CaseRun} (hr : r ∈ upperRuns) (hu : r.undone = true)
    (hb : bits r.points &&& bits (lowerRuns.flatMap CaseRun.points) = 0) {c : Char} (hc : 0x80 ≤ c.toNat)
    (hn : r.Has c.toNat) (hi : 0x80 ≤ r.image) : lower (Char.ofNat (r.target c.toNat)) = lower c := by
  have hm := toNat_upperTarget hr hn
  have hle := hn.image_le
  obtain ⟨s, hs, hsr⟩ := (Option.any_eq_true _ _).mp hu
  obtain ⟨hsn, hst⟩ := hn.undo hsr
  have h₁ : lower (Char.ofNat (r.target c.toNat)) = c := by
    rw [lower_beyond (by omega), mapCase_of_has lowerRuns_apart (List.mem_of_find?_eq_some hs) (by rwa [hm]), hm, hst,
      Char.ofNat_toNat]
  have h₂ : lower c = c := by
    rw [lower_beyond hc]
    apply mapCase_of_not_has
    intro q hq hqc
    exact not_mem_of_bits_and hb hn.mem_points (List.mem_flatMap.mpr ⟨q, hq, hqc.mem_points⟩)
  rw [h₁, h₂]

theorem letter_target_of_sameLetters {r : CaseRun} (hs : r.sameLetters = true) {c : Char} (hn : r.Has c.toNat) :
    letter (Char.ofNat (r.target c.toNat)) = letter c := by
  simp only [CaseRun.sameLetters, Bool.and_eq_true, Bool.or_eq_true, beq_iff_eq, Nat.beq_eq] at hs
  obtain ⟨h₁, h₂⟩ := hs
  have hf := hn.1
  have hl := hn.2.1
  rcases Nat.lt_or_ge r.first c.toNat with h | h
  · rcases h₂ with h₂ | ⟨h₂, h₃⟩
    · omega
    · have he : c.toNat = r.last := by omega
      rw [show r.target c.toNat = r.imageLast by rw [he]; rfl, h₃, ← he, Char.ofNat_toNat]
  · have he : c.toNat = r.first := by omega
    rw [show r.target c.toNat = r.image by unfold CaseRun.target; omega, h₁, ← he, Char.ofNat_toNat]

/-- A character and its upper-case form are one letter. -/
@[simp] theorem letter_upper (c : Char) : letter (upper c) = letter c := by
  by_cases hc : c.toNat < 0x80
  · exact (asciiFacts_of_lt hc).1.2.1
  rcases upper_cases (Nat.le_of_not_lt hc) with h | ⟨r, hr, hn, h⟩
  · rw [h]
  rw [h]
  obtain ⟨_, hi | ⟨_, _, hs⟩, _, ⟨hu, hb⟩ | hs⟩ := upperRuns_facts r hr
  · rw [letter_eq_standIn, letter_eq_standIn, lower_target_of_undone hr hu hb (Nat.le_of_not_lt hc) hn hi]
  all_goals exact letter_target_of_sameLetters hs hn

/-- Beyond ASCII, a character is its own letter, or its lower-case form comes from a run, or it is a variant. -/
theorem letter_cases {c : Char} (hc : 0x80 ≤ c.toNat) : letter c = c ∨
    (∃ r ∈ lowerRuns, r.Has c.toNat ∧ letter c = standIn (Char.ofNat (r.target c.toNat))) ∨
    ∃ v ∈ letterVariants, v.1 = c.toNat ∧ letter c = Char.ofNat v.2 := by
  rw [letter_eq_standIn, lower_beyond hc]
  rcases mapCase_cases lowerRuns c with ⟨h, _⟩ | ⟨r, hr, hn, h⟩
  · rw [h]
    rcases standIn_cases c with h | h
    · exact Or.inl h
    · exact Or.inr (Or.inr h)
  · exact Or.inr (Or.inl ⟨r, hr, hn, by rw [h]⟩)

/-- The characters beyond ASCII whose letter is plain are the four that are listed. -/
theorem mem_foreignPlain {c : Char} (hc : 0x80 ≤ c.toNat) (h : (letter c).toNat < 0x80) : c.toNat ∈ foreignPlain := by
  rcases letter_cases hc with he | ⟨r, hr, hn, he⟩ | ⟨v, hv, hvc, he⟩
  · rw [he] at h
    omega
  · obtain ⟨hv, hi | ⟨hl, hi⟩, h131, h17f, _⟩ := lowerRuns_facts r hr
    · have hm := hn.toNat_target hv
      have h₁ := hn.image_le
      have h₂ := hn.target_le
      rcases standIn_cases (Char.ofNat (r.target c.toNat)) with hs | ⟨v, hv, hvc, hs⟩
      · rw [he, hs, hm] at h
        omega
      · rw [he, hs] at h
        rcases (letterVariants_facts v hv).1 h with hv' | hv' <;> omega
    · have h₁ := hn.1
      have h₂ := hn.2.1
      rwa [show c.toNat = r.first by omega]
  · rw [he] at h
    rw [← hvc]
    rcases (letterVariants_facts v hv).1 h with hv' | hv' <;> rw [hv'] <;> decide

theorem foreignPlain_isWord {c : Char} (hc : 0x80 ≤ c.toNat) (h : (letter c).toNat < 0x80) :
    (letter c).isAlpha = true ∧ isWord c = true := by
  have := foreignPlain_facts _ (mem_foreignPlain hc h)
  rwa [Char.ofNat_toNat] at this

/-- A sign is the letter of itself only. -/
theorem letter_eq_sign {c d : Char} (hd : d.toNat < 0x80) (ha : d.isAlpha = false) : letter c = d ↔ c = d := by
  constructor
  · intro h
    by_cases hc : c.toNat < 0x80
    · rw [← h]
      exact ((asciiFacts_of_lt hc).2.2.2 (Or.inl (by rw [h, ha]))).symm
    · have := (foreignPlain_isWord (Nat.le_of_not_lt hc) (by rwa [h])).1
      rw [h, ha] at this
      cases this
  · rintro rfl
    exact (asciiFacts_of_lt hd).2.2.2 (Or.inr ha)

/-- What is the same letter as a plain character is a word character. -/
theorem isWord_of_letter {c p : Char} (hp : Entries.isPlain p = true) (h : letter c = letter p) : isWord c = true := by
  have hl : Entries.isPlain (letter c) = true := by
    rw [h]
    exact ((asciiFacts_of_lt (toNat_lt_of_isPlain hp)).2.1 hp).2.1
  by_cases hc : c.toNat < 0x80
  · exact isWord_of_isPlain ((asciiFacts_of_lt hc).2.2.1 hl)
  · exact (foreignPlain_isWord (Nat.le_of_not_lt hc) (toNat_lt_of_isPlain hl)).2

/-! ## Blanks -/

theorem isBlank_eq_false {c : Char} (h : ∀ b ∈ blankRanges, c.toNat < b.1 ∨ b.2 < c.toNat) : isBlank c = false := by
  rw [isBlank, inRanges, List.any_eq_false]
  intro b hb hc
  simp only [Bool.and_eq_true, decide_eq_true_eq] at hc
  have := h b hb
  omega

/-- A character with a lower-case form of its own is no blank, nor is that form. -/
theorem isBlank_of_has {r : CaseRun} (hr : r ∈ lowerRuns) {c : Char} (hn : r.Has c.toNat) :
    isBlank c = false ∧ isBlank (Char.ofNat (r.target c.toNat)) = false := by
  obtain ⟨hv, _, _, _, hb⟩ := lowerRuns_facts r hr
  refine ⟨isBlank_eq_false fun b h => ?_, isBlank_eq_false fun b h => ?_⟩
  · have h₁ := (hb b h).1
    have h₂ := hn.1
    have h₃ := hn.2.1
    omega
  · rw [hn.toNat_target hv]
    have h₁ := (hb b h).2
    have h₂ := hn.image_le
    have h₃ := hn.target_le
    omega

/-- Blanks can be read off letters. -/
@[simp] theorem isBlank_letter (c : Char) : isBlank (letter c) = isBlank c := by
  by_cases hc : c.toNat < 0x80
  · exact (asciiFacts_of_lt hc).1.2.2
  rcases letter_cases (Nat.le_of_not_lt hc) with he | ⟨r, hr, hn, he⟩ | ⟨v, hv, hvc, he⟩
  · rw [he]
  · obtain ⟨h₁, h₂⟩ := isBlank_of_has hr hn
    rw [he, h₁]
    rcases standIn_cases (Char.ofNat (r.target c.toNat)) with hs | ⟨v, hv, _, hs⟩
    · rw [hs, h₂]
    · rw [hs, (letterVariants_facts v hv).2.2]
  · have := (letterVariants_facts v hv).2
    rw [hvc, Char.ofNat_toNat] at this
    rw [he, this.1, this.2]

/-- A blank is no word character. -/
theorem isWord_of_isBlank {c : Char} (h : isBlank c = true) : isWord c = false := by
  by_cases hc : c.toNat < 0x80
  · rw [isWord_ascii hc, Bool.eq_false_iff]
    intro hp
    rw [((asciiFacts_of_lt hc).2.1 hp).2.2] at h
    cases h
  · have := congrArg (Nat.testBit · c.toNat) wordRanges_facts.2
    rw [isBlank] at h
    simpa [testBit_rangeBits, h, ← isWord_beyond (Nat.le_of_not_lt hc)] using this

end Text
end ScriptCase
