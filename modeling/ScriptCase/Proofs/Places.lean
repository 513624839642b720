import ScriptCase.Proofs.Letters
import ScriptCase.Rule.Region

/-!
# Places of a line

A place of a line is the number of characters before it. `Uppered V t u` says that `u` is the line `t` with the places
of the set `V` in upper case and nothing else changed. Such changes add up (`Uppered.trans`), are determined by their
places (`Uppered.unique`), and cannot be seen by anybody who looks at letters only (`Uppered.map_letter`).

The two ways in which rules change a line are changes of this kind: an interval (`uppered_upperAt`), and regions that
are found while the line is read, as long as a region that begins inside another one ends there as well
(`uppered_upperSpans`).
-/

namespace ScriptCase
namespace Rule

open Text

/-! ## Lines in upper case at some places -/

/-- The line `u` is the line `t` with the characters at the places of `V` in upper case and all others unchanged. -/
def Uppered (V : Set Nat) (t u : Text) : Prop :=
  ∀ i, (i ∈ V → u[i]? = t[i]?.map upper) ∧ (i ∉ V → u[i]? = t[i]?)

section Uppered

variable {V W : Set Nat} {t u w : Text}

theorem Uppered.getElem? (h : Uppered V t u) (i : Nat) : u[i]? = t[i]?.map upper ∨ u[i]? = t[i]? := by
  by_cases hi : i ∈ V
  · exact Or.inl ((h i).1 hi)
  · exact Or.inr ((h i).2 hi)

theorem uppered_empty (t : Text) : Uppered ∅ t t := fun _ => ⟨fun h => absurd h (Set.notMem_empty _), fun _ => rfl⟩

/-- Only the places within the line count. -/
theorem Uppered.congr (h : Uppered V t u) (hVW : ∀ i < t.length, i ∈ V ↔ i ∈ W) : Uppered W t u := by
  intro i
  by_cases hi : i < t.length
  · rw [← hVW i hi]
    exact h i
  · have ht : t[i]? = none := List.getElem?_eq_none (Nat.le_of_not_lt hi)
    have hu : u[i]? = none := by rcases h.getElem? i with h' | h' <;> simp [h', ht]
    simp [ht, hu]

/-- Changes add up. -/
theorem Uppered.trans (h : Uppered V t u) (h' : Uppered W u w) : Uppered (V ∪ W) t w := by
  intro i
  by_cases hV : i ∈ V <;> by_cases hW : i ∈ W
  · refine ⟨fun _ => ?_, fun hi => absurd (Or.inl hV) hi⟩
    rw [(h' i).1 hW, (h i).1 hV, Option.map_map]
    congr 1
    exact funext upper_upper
  · exact ⟨fun _ => by rw [(h' i).2 hW, (h i).1 hV], fun hi => absurd (Or.inl hV) hi⟩
  · exact ⟨fun _ => by rw [(h' i).1 hW, (h i).2 hV], fun hi => absurd (Or.inr hW) hi⟩
  · refine ⟨fun hi => ?_, fun _ => by rw [(h' i).2 hW, (h i).2 hV]⟩
    rcases hi with hi | hi
    · exact absurd hi hV
    · exact absurd hi hW

/-- The places determine the change. -/
theorem Uppered.unique (h : Uppered V t u) (h' : Uppered V t w) : u = w := by
  apply List.ext_getElem?
  intro i
  by_cases hi : i ∈ V
  · rw [(h i).1 hi, (h' i).1 hi]
  · rw [(h i).2 hi, (h' i).2 hi]

/-- The letters stay. -/
theorem Uppered.map_letter (h : Uppered V t u) : u.map letter = t.map letter := by
  apply List.ext_getElem?
  intro i
  rw [List.getElem?_map, List.getElem?_map]
  rcases h.getElem? i with h' | h' <;> rw [h']
  rw [Option.map_map]
  congr 1
  exact funext letter_upper

theorem Uppered.length_eq (h : Uppered V t u) : u.length = t.length := by
  simpa using congrArg List.length h.map_letter

/-- Word characters stay word characters. -/
theorem Uppered.isWordAt_mono (h : Uppered V t u) {i : Nat} (hw : isWordAt t[i]? = true) : isWordAt u[i]? = true := by
  rcases h.getElem? i with h' | h' <;> rw [h']
  · cases hc : t[i]? with
    | none => rw [hc] at hw; exact hw
    | some c => rw [hc] at hw; exact isWord_upper hw
  · exact hw

/-- What is no word character after a change was none before. -/
theorem Uppered.isWordAt_eq_false (h : Uppered V t u) {i : Nat} (hw : isWordAt u[i]? = false) :
    isWordAt t[i]? = false := by
  rw [Bool.eq_false_iff] at hw ⊢
  exact fun ht => hw (h.isWordAt_mono ht)

end Uppered

/-! ## What can be read off the letters -/

section Letters

variable {t u : Text}

/-- The token is spelled from the place on, whatever the case of either. -/
def Spells (token t : Text) (i : Nat) : Prop := ((t.drop i).take token.length).map letter = token.map letter

theorem startsWithToken_iff {token rest : Text} :
    startsWithToken token rest = true ↔ (rest.take token.length).map letter = token.map letter := by
  induction token generalizing rest with
  | nil => simp [startsWithToken]
  | cons p token ih =>
    cases rest with
    | nil => simp [startsWithToken]
    | cons c rest =>
      simp only [startsWithToken, sameLetter, Bool.and_eq_true, beq_iff_eq, ih, List.length_cons, List.take_succ_cons,
        List.map_cons, List.cons.injEq]
      exact and_congr_left fun _ => eq_comm

theorem spells_iff {token : Text} {i : Nat} : Spells token t i ↔ startsWithToken token (t.drop i) = true :=
  startsWithToken_iff.symm

theorem getElem?_letter (h : u.map letter = t.map letter) (i : Nat) : u[i]?.map letter = t[i]?.map letter := by
  rw [← List.getElem?_map, ← List.getElem?_map, h]

theorem spells_congr (h : u.map letter = t.map letter) {token : Text} {i : Nat} :
    Spells token u i ↔ Spells token t i := by
  simp only [Spells, List.map_take, List.map_drop, h]

/-- Every character of a spelled token is the same letter as its counterpart. -/
theorem Spells.getElem? {token : Text} {i : Nat} (h : Spells token t i) {j : Nat} (hj : j < token.length) :
    t[i + j]?.map letter = some (letter token[j]) := by
  have := congrArg (·[j]?) h
  simpa [List.getElem?_take, hj] using this

/-- A property of characters that letters keep holds at the same places. -/
theorem exists_char_congr (h : u.map letter = t.map letter) {P : Char → Prop} (hP : ∀ c, P (letter c) ↔ P c) (i : Nat) :
    (∃ c, u[i]? = some c ∧ P c) ↔ ∃ c, t[i]? = some c ∧ P c := by
  have hs : ∀ o : Option Char, (∃ c, o = some c ∧ P c) ↔ ∃ c, o.map letter = some c ∧ P c := by
    rintro (_ | c) <;> simp [hP]
  rw [hs u[i]?, hs t[i]?, getElem?_letter h]

theorem forall_char_congr (h : u.map letter = t.map letter) {P : Char → Prop} (hP : ∀ c, P (letter c) ↔ P c) (i : Nat) :
    (∀ c, u[i]? = some c → P c) ↔ ∀ c, t[i]? = some c → P c := by
  have := not_congr (exists_char_congr h (P := fun c => ¬P c) (fun c => not_congr (hP c)) i)
  simpa using this

/-- Signs stand at the same places. -/
theorem eq_sign_congr (h : u.map letter = t.map letter) {d : Char} (hd : d.toNat < 0x80) (ha : d.isAlpha = false)
    {i : Nat} : u[i]? = some d ↔ t[i]? = some d := by
  simpa using exists_char_congr h (P := (· = d)) (fun c => letter_eq_sign hd ha) i

/-- A sign of a spelled token stands at its place. -/
theorem Spells.sign {token : Text} {i : Nat} (h : Spells token t i) {j : Nat} (hj : j < token.length)
    (hd : token[j].toNat < 0x80) (ha : token[j].isAlpha = false) : t[i + j]? = some token[j] := by
  obtain ⟨c, hc, hl⟩ := Option.map_eq_some_iff.mp (h.getElem? hj)
  rw [(letter_eq_sign hd ha).mpr rfl, letter_eq_sign hd ha] at hl
  rw [hc, hl]

end Letters

/-! ## Intervals -/

theorem uppered_upperAt (start length : Nat) (t : Text) :
    Uppered {i | start ≤ i ∧ i < start + length} t (upperAt start length t) := by
  intro i
  rcases Nat.lt_or_ge i t.length with hi | hi
  · have hs : (t.take start).length = min start t.length := List.length_take
    have hm : (upperText ((t.drop start).take length)).length = min length (t.length - start) := by simp [upperText]
    rw [upperAt, List.append_assoc]
    rcases Nat.lt_or_ge i start with h | h
    · refine ⟨fun hi => absurd hi.1 (by omega), fun _ => ?_⟩
      rw [List.getElem?_append_left (by omega), List.getElem?_take, if_pos h]
    · rw [List.getElem?_append_right (by omega), hs]
      rcases Nat.lt_or_ge i (start + length) with h' | h'
      · refine ⟨fun _ => ?_, fun hi => absurd ⟨h, h'⟩ hi⟩
        rw [List.getElem?_append_left (by omega), upperText, List.getElem?_map, List.getElem?_take, if_pos (by omega),
          List.getElem?_drop]
        congr 2
        omega
      · refine ⟨fun hi => absurd hi.2 (by omega), fun _ => ?_⟩
        rw [List.getElem?_append_right (by omega), List.getElem?_drop]
        congr 1
        omega
  · rw [List.getElem?_eq_none hi, List.getElem?_eq_none (by rwa [length_upperAt])]
    simp

/-! ## Regions found on the way -/

/-- The character before a place; none before the first. -/
def before (t : Text) : Nat → Option Char
  | 0 => none
  | i + 1 => t[i]?

/-- The length of the region that begins at a place. -/
def spanAt (span : Option Char → Text → Nat) (t : Text) (p : Nat) : Nat := span (before t p) (t.drop p)

/-- The places of all regions. -/
def spanned (span : Option Char → Text → Nat) (t : Text) : Set Nat := {i | ∃ p ≤ i, i < p + spanAt span t p}

/-- A region that begins inside another one ends there as well. -/
def Nested (span : Option Char → Text → Nat) (t : Text) : Prop :=
  ∀ p q, p ≤ q → q < p + spanAt span t p → q + spanAt span t q ≤ p + spanAt span t p

/-- What is read `i` characters after place `k`, with `inside` characters of a region still to come, is in a region. -/
def InRegion (span : Option Char → Text → Nat) (t : Text) (k inside i : Nat) : Prop :=
  i < inside ∨ ∃ p, k ≤ p ∧ p ≤ k + i ∧ k + i < p + spanAt span t p

section Reading

variable {span : Option Char → Text → Nat} {t : Text} {k : Nat}

/-- Reading on inside a region. -/
theorem inRegion_succ {m i : Nat} (hk : spanAt span t k ≤ m + 1) :
    InRegion span t k (m + 1) (i + 1) ↔ InRegion span t (k + 1) m i := by
  constructor
  · rintro (h | ⟨p, h₁, h₂, h₃⟩)
    · exact Or.inl (by omega)
    · rcases Nat.eq_or_lt_of_le h₁ with rfl | h
      · exact Or.inl (by omega)
      · exact Or.inr ⟨p, h, by omega, by omega⟩
  · rintro (h | ⟨p, h₁, h₂, h₃⟩)
    · exact Or.inl (by omega)
    · exact Or.inr ⟨p, by omega, by omega, by omega⟩

/-- Outside all regions, the region that begins at a place is the one that is read on. -/
theorem inRegion_zero {i : Nat} : InRegion span t k 0 i ↔ InRegion span t k (spanAt span t k) i := by
  constructor
  · rintro (h | h)
    · omega
    · exact Or.inr h
  · rintro (h | h)
    · exact Or.inr ⟨k, Nat.le_refl k, by omega, by omega⟩
    · exact Or.inr h

/-- A character outside all regions is passed over. -/
theorem inRegion_pass {i : Nat} (hk : spanAt span t k = 0) :
    InRegion span t k 0 (i + 1) ↔ InRegion span t (k + 1) 0 i := by
  constructor
  · rintro (h | ⟨p, h₁, h₂, h₃⟩)
    · omega
    · rcases Nat.eq_or_lt_of_le h₁ with rfl | h
      · omega
      · exact Or.inr ⟨p, h, by omega, by omega⟩
  · rintro (h | ⟨p, h₁, h₂, h₃⟩)
    · omega
    · exact Or.inr ⟨p, by omega, by omega, by omega⟩

theorem not_inRegion_start (hk : spanAt span t k = 0) : ¬InRegion span t k 0 0 := by
  rintro (h | ⟨p, h₁, h₂, h₃⟩)
  · omega
  · have : p = k := by omega
    subst this
    omega

/-- Regions are finished before the next one is looked for, so all that counts is which places they cover. The
induction is on the rest of the line; regions that begin in the one being read end in it. -/
theorem getElem?_upperSpans (hn : Nested span t) : ∀ (rest : Text) (k inside : Nat), t.drop k = rest →
    (∀ p, k ≤ p → p < k + inside → p + spanAt span t p ≤ k + inside) → ∀ i,
    (InRegion span t k inside i → (upperSpans span inside (before t k) rest)[i]? = rest[i]?.map upper) ∧
      (¬InRegion span t k inside i → (upperSpans span inside (before t k) rest)[i]? = rest[i]?)
  | [], k, inside, _, _, i => by cases inside <;> simp [upperSpans]
  | c :: cs, k, inside, hk, hin, i => by
    have hc : t[k]? = some c := by rw [← List.head?_drop, hk, List.head?_cons]
    have hcs : t.drop (k + 1) = cs := by rw [← List.drop_drop, hk, List.drop_one, List.tail_cons]
    have hb : some c = before t (k + 1) := hc.symm
    have hspan : span (before t k) (c :: cs) = spanAt span t k := by rw [spanAt, hk]
    -- one character of a region of which `m` more are to come
    have hread : ∀ m, spanAt span t k ≤ m + 1 → (∀ p, k ≤ p → p < k + (m + 1) → p + spanAt span t p ≤ k + (m + 1)) →
        (InRegion span t k (m + 1) i →
          (upper c :: upperSpans span m (some c) cs)[i]? = (c :: cs)[i]?.map upper) ∧
        (¬InRegion span t k (m + 1) i → (upper c :: upperSpans span m (some c) cs)[i]? = (c :: cs)[i]?) := by
      intro m hm hin
      cases i with
      | zero => exact ⟨fun _ => rfl, fun h => absurd (Or.inl (by omega)) h⟩
      | succ i =>
        rw [hb, inRegion_succ hm]
        exact getElem?_upperSpans hn cs (k + 1) m hcs (fun p h₁ h₂ => by have := hin p (by omega) (by omega); omega) i
    cases inside with
    | succ m => exact hread m (by have := hin k (by omega) (by omega); omega) hin
    | zero =>
      rw [inRegion_zero, upperSpans, hspan]
      cases hm : spanAt span t k with
      | zero =>
        cases i with
        | zero => exact ⟨fun h => absurd h (not_inRegion_start hm), fun _ => rfl⟩
        | succ i =>
          rw [inRegion_pass hm, hb]
          exact getElem?_upperSpans hn cs (k + 1) 0 hcs (fun p h₁ h₂ => by omega) i
      | succ m => exact hread m (by omega) (fun p h₁ h₂ => by have := hn k p h₁ (by omega); omega)

/-- Nested regions are put in upper case, and nothing else is. -/
theorem uppered_upperSpans (hn : Nested span t) : Uppered (spanned span t) t (upperSpans span 0 none t) := by
  intro i
  have h := getElem?_upperSpans hn t 0 0 rfl (fun p h₁ h₂ => by omega) i
  have hr : i ∈ spanned span t ↔ InRegion span t 0 0 i := by
    constructor
    · rintro ⟨p, h₁, h₂⟩
      exact Or.inr ⟨p, Nat.zero_le p, by omega, by omega⟩
    · rintro (h | ⟨p, _, h₁, h₂⟩)
      · omega
      · exact ⟨p, by omega, by omega⟩
  rw [hr]
  exact h

end Reading

end Rule
end ScriptCase
