import Mathlib
import ScriptCase.Keyword.Table
import ScriptCase.Text.Blank
import ScriptCase.Text.Case
import ScriptCase.Text.Word

/-!
# The tables of cases and classes, compared

The case mappings and the character classes are tables of code points. This module compares them with one another, run
by run. The runs of a table lie apart (`apart`), so a code point of a run is mapped by that run and by no other
(`mapCase_of_has`). Sets of code points are written as the bits of a number (`bits`, `rangeBits`), so that two of them
are compared at once. What is found out this way stands in the theorems `upperRuns_facts`, `lowerRuns_facts` and so on,
one for each table; the laws of characters that follow are in `ScriptCase.Proofs.Letters`.
-/

namespace ScriptCase
namespace Text

/-! ## Characters as numbers -/

/-- A property of the characters of ASCII, checked one by one. -/
theorem ascii_forall {P : Char → Prop} (h : ∀ n < 0x80, P (Char.ofNat n)) {c : Char} (hc : c.toNat < 0x80) : P c := by
  have := h c.toNat hc
  rwa [Char.ofNat_toNat] at this

theorem toNat_ofNat_of_valid {n : Nat} (h : n.isValidChar) : (Char.ofNat n).toNat = n := by
  rw [Char.ofNat, dif_pos h]
  rfl

/-- The numbers of a list as the bits of a number. -/
def bits (l : List Nat) : Nat := l.foldr (fun k m => 2 ^ k ||| m) 0

/-- The numbers of ranges as the bits of a number. -/
def rangeBits (l : List (Nat × Nat)) : Nat := l.foldr (fun r m => (2 ^ (r.2 + 1 - r.1) - 1) <<< r.1 ||| m) 0

theorem testBit_bits {l : List Nat} {n : Nat} : (bits l).testBit n = true ↔ n ∈ l := by
  induction l with
  | nil => simp [bits]
  | cons k l ih =>
    rw [bits, List.foldr_cons, ← bits, Nat.testBit_or, Bool.or_eq_true, ih, Nat.testBit_two_pow, List.mem_cons]
    simp [eq_comm]

theorem testBit_rangeBits {l : List (Nat × Nat)} {c : Char} :
    (rangeBits l).testBit c.toNat = inRanges l c := by
  induction l with
  | nil => simp [rangeBits, inRanges]
  | cons r l ih =>
    rw [rangeBits, List.foldr_cons, ← rangeBits, Nat.testBit_or, ih, Nat.testBit_shiftLeft, Nat.testBit_two_pow_sub_one]
    have : (decide (r.1 ≤ c.toNat) && decide (c.toNat - r.1 < r.2 + 1 - r.1)) =
        (decide (r.1 ≤ c.toNat) && decide (c.toNat ≤ r.2)) := by
      by_cases h : r.1 ≤ c.toNat
      · simp only [h, decide_true, Bool.true_and, decide_eq_decide]
        omega
      · simp [h]
    simp [inRanges, this]

/-- Sets without a common bit have no common member. -/
theorem not_mem_of_bits_and {l k : List Nat} (h : bits l &&& bits k = 0) {n : Nat} (hl : n ∈ l) : n ∉ k := by
  intro hk
  have := congrArg (Nat.testBit · n) h
  simp [testBit_bits.mpr hl, testBit_bits.mpr hk] at this

/-- What adds no bit to the ranges lies in them. -/
theorem inRanges_of_bits {l : List Nat} {k : List (Nat × Nat)} (h : bits l &&& rangeBits k = bits l) {c : Char}
    (hc : c.toNat ∈ l) : inRanges k c = true := by
  have := testBit_bits.mpr hc
  rw [← h, Nat.testBit_and, Bool.and_eq_true, testBit_rangeBits] at this
  exact this.2

/-- What shares no bit with the ranges lies outside them. -/
theorem not_inRanges_of_bits {l : List Nat} {k : List (Nat × Nat)} (h : bits l &&& rangeBits k = 0) {c : Char}
    (hc : c.toNat ∈ l) : inRanges k c = false := by
  have := congrArg (Nat.testBit · c.toNat) h
  simpa [testBit_bits.mpr hc, testBit_rangeBits] using this

/-! ## Runs of code points -/

namespace CaseRun

/-- The code point belongs to the run. -/
def Has (r : CaseRun) (n : Nat) : Prop := r.first ≤ n ∧ n ≤ r.last ∧ (n - r.first) % r.stride = 0

/-- The image of a code point of the run. -/
def target (r : CaseRun) (n : Nat) : Nat := r.image + (n - r.first)

/-- The image of the last code point of the run. -/
def imageLast (r : CaseRun) : Nat := r.image + (r.last - r.first)

/-- The code points of the run. -/
def points (r : CaseRun) : List Nat :=
  ((List.range (r.last + 1 - r.first)).filter fun k => k % r.stride == 0).map (r.first + ·)

/-- The images of the code points of the run. -/
def images (r : CaseRun) : List Nat := r.points.map r.target

/-- All images are characters. -/
def isValid (r : CaseRun) : Bool := r.imageLast < 0xd800 || (0xe000 ≤ r.image && r.imageLast < 0x110000)

theorem map?_of_has {r : CaseRun} {n : Nat} (h : r.Has n) : r.map? n = some (r.target n) := if_pos h

theorem map?_of_not_has {r : CaseRun} {n : Nat} (h : ¬r.Has n) : r.map? n = none := if_neg h

theorem Has.mem_points {r : CaseRun} {n : Nat} (h : r.Has n) : n ∈ r.points := by
  obtain ⟨h₁, h₂, h₃⟩ := h
  refine List.mem_map.mpr ⟨n - r.first, List.mem_filter.mpr ⟨List.mem_range.mpr (by omega), ?_⟩, by omega⟩
  simp [h₃]

theorem Has.target_mem {r : CaseRun} {n : Nat} (h : r.Has n) : r.target n ∈ r.images :=
  List.mem_map_of_mem h.mem_points

theorem Has.image_le {r : CaseRun} {n : Nat} (_ : r.Has n) : r.image ≤ r.target n := Nat.le_add_right _ _

theorem Has.target_le {r : CaseRun} {n : Nat} (h : r.Has n) : r.target n ≤ r.imageLast := by
  have := h.2.1
  unfold target imageLast
  omega

theorem Has.toNat_target {r : CaseRun} {n : Nat} (h : r.Has n) (hv : r.isValid = true) :
    (Char.ofNat (r.target n)).toNat = r.target n := by
  apply toNat_ofNat_of_valid
  have h₁ := h.image_le
  have h₂ := h.target_le
  simp only [isValid, Bool.or_eq_true, Bool.and_eq_true, decide_eq_true_eq] at hv
  unfold Nat.isValidChar
  omega

end CaseRun

/-- A table either leaves a character alone, because no run has it, or maps it by one of its runs. -/
theorem mapCase_cases (runs : List CaseRun) (c : Char) :
    (mapCase runs c = c ∧ ∀ r ∈ runs, ¬r.Has c.toNat) ∨
      ∃ r ∈ runs, r.Has c.toNat ∧ mapCase runs c = Char.ofNat (r.target c.toNat) := by
  unfold mapCase
  cases h : runs.findSome? (·.map? c.toNat) with
  | none =>
    refine Or.inl ⟨rfl, fun r hr hc => ?_⟩
    have := List.findSome?_eq_none_iff.mp h r hr
    rw [CaseRun.map?_of_has hc] at this
    cases this
  | some m =>
    obtain ⟨r, hr, hm⟩ := List.exists_of_findSome?_eq_some h
    by_cases hc : r.Has c.toNat
    · rw [CaseRun.map?_of_has hc] at hm
      cases hm
      exact Or.inr ⟨r, hr, hc, rfl⟩
    · rw [CaseRun.map?_of_not_has hc] at hm
      cases hm

theorem mapCase_of_not_has {runs : List CaseRun} {c : Char} (h : ∀ r ∈ runs, ¬r.Has c.toNat) :
    mapCase runs c = c := by
  rcases mapCase_cases runs c with ⟨h', _⟩ | ⟨r, hr, hc, _⟩
  · exact h'
  · exact absurd hc (h r hr)

/-- The runs lie apart from one another, in the order of their code points and from `n` on. -/
def apart : (n : Nat) → List CaseRun → Bool
  | _, [] => true
  | n, r :: runs => n ≤ r.first && r.first ≤ r.last && apart (r.last + 1) runs

theorem le_of_apart {n : Nat} {runs : List CaseRun} (h : apart n runs = true) {r : CaseRun} (hr : r ∈ runs) :
    n ≤ r.first := by
  induction runs generalizing n with
  | nil => cases hr
  | cons q runs ih =>
    simp only [apart, Bool.and_eq_true, decide_eq_true_eq] at h
    rcases List.mem_cons.mp hr with rfl | hr
    · exact h.1.1
    · have := ih h.2 hr
      omega

/-- In a table whose runs lie apart, a code point belongs to one run at most. -/
theorem eq_of_has {n : Nat} {runs : List CaseRun} (h : apart n runs = true) {r s : CaseRun} (hr : r ∈ runs)
    (hs : s ∈ runs) {m : Nat} (hrm : r.Has m) (hsm : s.Has m) : r = s := by
  induction runs generalizing n with
  | nil => cases hr
  | cons q runs ih =>
    simp only [apart, Bool.and_eq_true, decide_eq_true_eq] at h
    rcases List.mem_cons.mp hr with hrq | hr' <;> rcases List.mem_cons.mp hs with hsq | hs'
    · rw [hrq, hsq]
    · have h₁ := le_of_apart h.2 hs'
      have h₂ := hrm.2.1
      have h₃ := hsm.1
      rw [hrq] at h₂
      omega
    · have h₁ := le_of_apart h.2 hr'
      have h₂ := hsm.2.1
      have h₃ := hrm.1
      rw [hsq] at h₂
      omega
    · exact ih h.2 hr' hs'

theorem mapCase_of_has {n : Nat} {runs : List CaseRun} (h : apart n runs = true) {r : CaseRun} (hr : r ∈ runs)
    {c : Char} (hc : r.Has c.toNat) : mapCase runs c = Char.ofNat (r.target c.toNat) := by
  rcases mapCase_cases runs c with ⟨_, hn⟩ | ⟨s, hs, hsc, he⟩
  · exact absurd hc (hn r hr)
  · rw [he, eq_of_has h hr hs hc hsc]

/-! ## The tables -/

/-- The run `s` leads from every image under `r` back to where it came from. -/
def CaseRun.undoes (r s : CaseRun) : Bool :=
  Nat.beq (s.image + r.image) (r.first + s.first) && Nat.ble s.first r.image && Nat.ble r.imageLast s.last &&
    Nat.beq ((r.image - s.first) % s.stride) 0 && (Nat.beq r.first r.last || Nat.beq (r.stride % s.stride) 0)

theorem CaseRun.Has.undo {r s : CaseRun} (h : r.undoes s = true) {n : Nat} (hn : r.Has n) :
    s.Has (r.target n) ∧ s.target (r.target n) = n := by
  simp only [undoes, Bool.and_eq_true, Bool.or_eq_true, Nat.beq_eq, Nat.ble_eq] at h
  obtain ⟨⟨⟨⟨h₁, h₂⟩, h₃⟩, h₄⟩, h₅⟩ := h
  have h₆ := hn.1
  have h₇ := hn.target_le
  have h₈ : r.target n = r.image + (n - r.first) := rfl
  refine ⟨⟨by omega, by omega, ?_⟩, by unfold target at *; omega⟩
  have he : r.target n - s.first = (r.image - s.first) + (n - r.first) := by omega
  have hd : (n - r.first) % s.stride = 0 := by
    rcases h₅ with h₅ | h₅
    · have := hn.2.1
      rw [show n - r.first = 0 by omega, Nat.zero_mod]
    · exact Nat.mod_eq_zero_of_dvd (Nat.dvd_trans (Nat.dvd_of_mod_eq_zero h₅) (Nat.dvd_of_mod_eq_zero hn.2.2))
  rw [he, Nat.add_mod, h₄, hd, Nat.add_zero, Nat.zero_mod]

/-- The run of the other table that undoes a run, if there is one, is the first to end behind its image. -/
def CaseRun.undone (r : CaseRun) : Bool := (lowerRuns.find? fun s => Nat.ble r.image s.last).any r.undoes

/-- A run of one or two code points whose images are the same letters. -/
def CaseRun.sameLetters (r : CaseRun) : Bool :=
  letter (Char.ofNat r.image) == letter (Char.ofNat r.first) && (Nat.beq r.last r.first ||
    Nat.beq r.last (r.first + 1) && letter (Char.ofNat r.imageLast) == letter (Char.ofNat r.last))

/-- The characters beyond ASCII that are plain letters: two forms of the i, the long s and the kelvin sign. -/
def foreignPlain : List Nat := [0x130, 0x131, 0x17f, 0x212a]

/-- Every upper-case form is a character, and only the dotless i and the long s have a plain one. The forms that come
from one run are word characters, or what they come from are none. Most runs are undone by a run of the other table,
which leaves their own code points alone; the others have one or two code points, which are variants of letters or
digraphs in title case. -/
theorem upperRuns_facts : ∀ r ∈ upperRuns,
    r.isValid = true ∧
    (0x80 ≤ r.image ∨ r.first = r.last ∧ (r.image = 0x49 ∨ r.image = 0x53) ∧ r.sameLetters = true) ∧
    (r.image < 0x80 ∨ bits r.images &&& rangeBits wordRanges = bits r.images ∨
      bits r.points &&& rangeBits wordRanges = 0) ∧
    ((r.undone = true ∧ bits r.points &&& bits (lowerRuns.flatMap CaseRun.points) = 0) ∨ r.sameLetters = true) := by
  decide +kernel

/-- No upper-case form has another one. -/
theorem upperRuns_bits : bits (upperRuns.flatMap CaseRun.images) &&& bits (upperRuns.flatMap CaseRun.points) = 0 := by
  decide +kernel

/-- Of the first 256 characters, only the micro sign and the y with diaeresis have an upper-case form beyond them. -/
theorem upperRuns_latin : ∀ r ∈ upperRuns,
    0x100 ≤ r.first ∨ r.imageLast < 0x100 ∨ r.first = r.last ∧ (r.image = 0x39c ∨ r.image = 0x178) := by decide +kernel

theorem lowerRuns_apart : apart 0x80 lowerRuns = true := by decide +kernel

/-- Every lower-case form is a character. Only the dotted capital i and the kelvin sign have a plain one, and none is a
variant of a plain letter. Neither the code points of a run nor their images are blanks. -/
theorem lowerRuns_facts : ∀ r ∈ lowerRuns,
    r.isValid = true ∧
    (0x80 ≤ r.image ∨ r.first = r.last ∧ r.first ∈ foreignPlain) ∧
    (r.imageLast < 0x131 ∨ 0x131 < r.image) ∧ (r.imageLast < 0x17f ∨ 0x17f < r.image) ∧
    ∀ b ∈ blankRanges, (r.last < b.1 ∨ b.2 < r.first) ∧ (r.imageLast < b.1 ∨ b.2 < r.image) := by decide +kernel

/-- Only the dotless i and the long s are variants of plain letters, and no variant is a blank. -/
theorem letterVariants_facts : ∀ v ∈ letterVariants,
    ((Char.ofNat v.2).toNat < 0x80 → v.1 = 0x131 ∨ v.1 = 0x17f) ∧
    isBlank (Char.ofNat v.1) = false ∧ isBlank (Char.ofNat v.2) = false := by decide +kernel

theorem foreignPlain_facts : ∀ n ∈ foreignPlain,
    (letter (Char.ofNat n)).isAlpha = true ∧ isWord (Char.ofNat n) = true := by decide +kernel

/-- The word characters of the table lie beyond ASCII, and none is a blank. -/
theorem wordRanges_facts : (∀ r ∈ wordRanges, 0x80 ≤ r.1) ∧ rangeBits blankRanges &&& rangeBits wordRanges = 0 := by
  decide +kernel

/-- What is checked of a character of ASCII: upper case leaves the letter and comes to an end at once; blanks, plain
characters and signs can be told from the letter. -/
def AsciiFacts (c : Char) : Prop :=
  (upper (upper c) = upper c ∧ letter (upper c) = letter c ∧ isBlank (letter c) = isBlank c) ∧
  (Entries.isPlain c = true →
    Entries.isPlain (upper c) = true ∧ Entries.isPlain (letter c) = true ∧ isBlank c = false) ∧
  (Entries.isPlain (letter c) = true → Entries.isPlain c = true) ∧
  ((letter c).isAlpha = false ∨ c.isAlpha = false → letter c = c)

instance (c : Char) : Decidable (AsciiFacts c) := inferInstanceAs (Decidable (_ ∧ _ ∧ _ ∧ _))

theorem asciiFacts : ∀ n < 0x80, AsciiFacts (Char.ofNat n) := by decide +kernel

end Text
end ScriptCase
