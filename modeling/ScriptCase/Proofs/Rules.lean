import ScriptCase.Format.Formatter
import ScriptCase.Proofs.Passes

/-!
# What the rules find

Each of the built-in rules is a pass. The type word of a section header (`isPass_sectionHeader`), a leading token
(`isPass_upperLeading`) and a command (`isPass_upperCommand`) are words that are picked by letters and signs; trigger
declarations (`isPass_trigger`) are the places `triggered`.

Tokens are plain words, which the soundness of a table guarantees (`Table.plain`). This is what makes an occurrence of
a token a whole word: at the start of a line there is only one place for it, behind the blanks.
-/

namespace ScriptCase

/-- A word of plain characters, as the tokens of a table are. -/
def Plain (token : Text) : Prop := token ≠ [] ∧ ∀ c ∈ token, Entries.isPlain c = true

theorem Entries.plain_of_token? {v : Value} {token : Text} (h : token? v = some token) : Plain token := by
  cases v with
  | string t =>
    obtain ⟨-, ht⟩ := Option.filter_eq_some_iff.mp h
    simpa [Plain] using ht
  | _ => cases h

/-- The tokens of a table are plain words. -/
theorem Table.plain (table : Table) {c : Category} {token : Text} (h : token ∈ table.tokens c) : Plain token := by
  have hs := congrFun (Entries.eq_of_fault? (Option.isNone_iff_eq_none.mp table.sound)) c
  have heq : (Entries.ofTokens table.tokens c).filterMap Entries.token? = table.tokens c :=
    (List.map_inj_right fun _ _ h => LooseText.ofText_inj.mp (Value.string.inj h)).mp hs
  rw [← heq, List.mem_filterMap] at h
  obtain ⟨v, -, hv⟩ := h
  exact Entries.plain_of_token? hv

namespace Rule

open Text

/-! ## Words and blanks at a place -/

/-- The length of the longest stretch from the start of a text whose characters satisfy a condition. -/
theorem length_takeWhile_eq_iff {p : Char → Bool} {t : Text} {n : Nat} :
    (t.takeWhile p).length = n ↔ (∀ j < n, t[j]?.any p = true) ∧ t[n]?.any p = false := by
  induction t generalizing n with
  | nil =>
    cases n with
    | zero => simp
    | succ n =>
      refine iff_of_false (by simp) fun h => ?_
      exact absurd (h.1 0 (Nat.succ_pos n)) (by simp)
  | cons c cs ih =>
    cases hc : p c with
    | false =>
      cases n with
      | zero => simp [hc]
      | succ n =>
        refine iff_of_false (by simp [hc]) fun h => ?_
        exact absurd (h.1 0 (Nat.succ_pos n)) (by simp [hc])
    | true =>
      cases n with
      | zero => simp [hc]
      | succ n =>
        rw [List.takeWhile_cons_of_pos hc, List.length_cons, Nat.add_right_cancel_iff, ih, List.getElem?_cons_succ]
        refine and_congr_left fun _ => ⟨fun h j hj => ?_, fun h j hj => h (j + 1) (by omega)⟩
        cases j with
        | zero => simpa using hc
        | succ j => exact h j (by omega)

theorem isWordAt_eq_any (o : Option Char) : isWordAt o = o.any isWord := by cases o <;> rfl

/-- Behind what is no word character, a word is as long as word characters follow. -/
theorem wordRun_iff {t : Text} {a b : Nat} (ha : isWordAt (before t a) = false) :
    WordRun t a b ↔ a < b ∧ a + ((t.drop a).takeWhile isWord).length = b := by
  constructor
  · intro h
    have hlen : ((t.drop a).takeWhile isWord).length = b - a := by
      refine length_takeWhile_eq_iff.mpr ⟨fun j hj => ?_, ?_⟩
      · rw [List.getElem?_drop, ← isWordAt_eq_any]
        exact h.word _ (by omega) (by omega)
      · rw [List.getElem?_drop, ← isWordAt_eq_any, show a + (b - a) = b from by have := h.lt; omega]
        exact h.stop
    exact ⟨h.lt, by have := h.lt; omega⟩
  · rintro ⟨hlt, hlen⟩
    obtain ⟨hword, hstop⟩ := length_takeWhile_eq_iff.mp (rfl : ((t.drop a).takeWhile isWord).length = _)
    refine ⟨hlt, fun i h₁ h₂ => ?_, ha, ?_⟩
    · have := hword (i - a) (by omega)
      rwa [List.getElem?_drop, ← isWordAt_eq_any, show a + (i - a) = i from by omega] at this
    · rwa [List.getElem?_drop, ← isWordAt_eq_any, hlen] at hstop

theorem WordRun.unique {t : Text} {a b b' : Nat} (h : WordRun t a b) (h' : WordRun t a b') : b = b' := by
  rw [← ((wordRun_iff h.start).mp h).2, ← ((wordRun_iff h.start).mp h').2]

/-- The number of blanks at the start of a line. -/
def indent (t : Text) : Nat := (t.takeWhile isBlank).length

theorem indent_congr {t u : Text} (h : u.map letter = t.map letter) : indent u = indent t := by
  have hs : ∀ s : Text, indent s = ((s.map letter).takeWhile isBlank).length := by
    intro s
    rw [List.takeWhile_map, List.length_map]
    exact congrArg (fun p => (s.takeWhile p).length) (funext fun c => (isBlank_letter c).symm)
  rw [hs u, hs t, h]

theorem isBlank_of_lt_indent {t : Text} {i : Nat} (h : i < indent t) : t[i]?.any isBlank = true :=
  (length_takeWhile_eq_iff.mp (rfl : indent t = indent t)).1 i h

theorem isWordAt_of_any_isBlank {o : Option Char} (h : o.any isBlank = true) : isWordAt o = false := by
  cases o with
  | none => rfl
  | some c => exact isWord_of_isBlank h

theorem isWordAt_before_indent (t : Text) : isWordAt (before t (indent t)) = false := by
  cases h : indent t with
  | zero => rfl
  | succ n => exact isWordAt_of_any_isBlank (isBlank_of_lt_indent (by omega))

/-- A plain token is spelled with word characters. -/
theorem Spells.word {token t : Text} (hp : Plain token) {a i : Nat} (h : Spells token t a) (ha : a ≤ i)
    (hi : i < a + token.length) : isWordAt t[i]? = true := by
  have hj : i - a < token.length := by omega
  have := h.getElem? hj
  rw [show a + (i - a) = i from by omega] at this
  obtain ⟨c, hc, hl⟩ := Option.map_eq_some_iff.mp this
  rw [hc]
  exact isWord_of_letter (hp.2 _ (List.getElem_mem hj)) hl

/-- A spelled token is a word if nothing that belongs to a word stands around it. -/
theorem Spells.wordRun_iff {token t : Text} (hp : Plain token) {a : Nat} (h : Spells token t a) :
    WordRun t a (a + token.length) ↔
      isWordAt (before t a) = false ∧ isWordAt t[a + token.length]? = false :=
  ⟨fun hw => ⟨hw.start, hw.stop⟩, fun hw =>
    ⟨by have := List.length_pos_iff.mpr hp.1; omega, fun _ h₁ h₂ => h.word hp h₁ h₂, hw.1, hw.2⟩⟩

/-- A line in which one word at most is picked, and put in upper case. -/
theorem uppered_of_pick {Picks : Nat → Nat → Prop} {t u : Text}
    (h : (∃ a b, WordRun t a b ∧ Picks a b ∧ u = upperAt a (b - a) t) ∨ ((∀ a b, WordRun t a b → ¬Picks a b) ∧ u = t))
    (hu : ∀ a b a' b', Picks a b → Picks a' b' → a = a') :
    Uppered (picked Picks t) t u := by
  rcases h with ⟨a, b, hw, hp, rfl⟩ | ⟨hn, rfl⟩
  · refine (uppered_upperAt a (b - a) t).congr fun i _ => ⟨fun ⟨h₁, h₂⟩ => ⟨a, b, hw, hp, h₁, by omega⟩, ?_⟩
    rintro ⟨a', b', hw', hp', h₁, h₂⟩
    obtain rfl := hu a b a' b' hp hp'
    obtain rfl := hw.unique hw'
    exact ⟨h₁, by omega⟩
  · refine (uppered_empty u).congr fun i _ => ⟨fun h => absurd h (Set.notMem_empty i), ?_⟩
    rintro ⟨a, b, hw, hp, -⟩
    exact absurd hp (hn a b hw)

/-! ## Section headers -/

theorem trimEnd_map_letter (t : Text) : trimEnd (t.map letter) = (trimEnd t).map letter := by
  have hp : (isBlank ∘ letter) = isBlank := funext isBlank_letter
  rw [trimEnd, trimEnd, ← List.map_reverse, List.dropWhile_map, hp, List.map_reverse]

theorem trimStart_map_letter (t : Text) : trimStart (t.map letter) = (trimStart t).map letter := by
  have hp : (isBlank ∘ letter) = isBlank := funext isBlank_letter
  rw [trimStart, trimStart, List.dropWhile_map, hp]

theorem mem_map_letter_iff {t : Text} {d : Char} (hd : d.toNat < 0x80) (ha : d.isAlpha = false) :
    d ∈ t.map letter ↔ d ∈ t := by
  simp [letter_eq_sign hd ha]

theorem closesHeader_iff {rest : Text} : closesHeader rest = true ↔
    ∃ inner, trimEnd rest = inner ++ [']'] ∧ (inner = [] ∨ rest.head?.any isBlank = true ∧ '\n' ∉ trimStart inner) := by
  have hrev : ∀ inner, trimEnd rest = inner ++ [']'] ↔ (trimEnd rest).reverse = ']' :: inner.reverse := by
    intro inner
    rw [← List.reverse_inj, List.reverse_append, List.reverse_singleton, List.singleton_append]
  cases rest with
  | nil => simp [closesHeader, trimEnd]
  | cons c cs =>
    simp only [hrev]
    rw [closesHeader]
    split
    · next inner h =>
      constructor
      · intro hc
        refine ⟨inner.reverse, by rw [h, List.reverse_reverse], ?_⟩
        simpa using hc
      · rintro ⟨inner', h', hc⟩
        rw [h, List.cons.injEq] at h'
        obtain rfl : inner' = inner.reverse := by rw [h'.2, List.reverse_reverse]
        simpa using hc
    · next h =>
      refine iff_of_false (by simp) ?_
      rintro ⟨inner, h', -⟩
      exact h _ h'

/-- Whether a header is closed can be read off the letters. -/
theorem closesHeader_map_letter (rest : Text) : closesHeader (rest.map letter) = closesHeader rest := by
  rw [Bool.eq_iff_iff, closesHeader_iff, closesHeader_iff, trimEnd_map_letter]
  have hhead : (rest.map letter).head?.any isBlank = rest.head?.any isBlank := by cases rest <;> simp
  have hbreak : ∀ inner : Text, '\n' ∈ trimStart (inner.map letter) ↔ '\n' ∈ trimStart inner := by
    intro inner
    rw [trimStart_map_letter, mem_map_letter_iff (by decide) (by decide)]
  constructor
  · rintro ⟨inner, h, hc⟩
    obtain ⟨l₁, l₂, heq, rfl, h₂⟩ := List.map_eq_append_iff.mp h
    obtain ⟨c, rfl, hc'⟩ := List.map_eq_singleton_iff.mp h₂
    rw [letter_eq_sign (by decide) (by decide)] at hc'
    subst hc'
    rw [hhead, hbreak, List.map_eq_nil_iff] at hc
    exact ⟨l₁, heq, hc⟩
  · rintro ⟨inner, h, hc⟩
    refine ⟨inner.map letter, ?_, ?_⟩
    · rw [h, List.map_append, List.map_singleton, (letter_eq_sign (by decide) (by decide)).mpr rfl]
    · rwa [hhead, hbreak, List.map_eq_nil_iff]

theorem closesHeader_congr {t u : Text} (h : u.map letter = t.map letter) (b : Nat) :
    closesHeader (u.drop b) = closesHeader (t.drop b) := by
  rw [← closesHeader_map_letter, ← closesHeader_map_letter (t.drop b), List.map_drop, List.map_drop, h]

/-- The word stands behind the opening bracket of a header. -/
def HeadsLine (t : Text) (a b : Nat) : Prop :=
  a = indent t + 1 ∧ t[indent t]? = some '[' ∧ closesHeader (t.drop b) = true

theorem headsLine_congr {t u : Text} (h : u.map letter = t.map letter) (a b : Nat) :
    HeadsLine u a b ↔ HeadsLine t a b := by
  rw [HeadsLine, HeadsLine, indent_congr h, eq_sign_congr h (by decide) (by decide), closesHeader_congr h]

theorem sectionHeader_cases (t : Text) :
    (∃ a b, WordRun t a b ∧ HeadsLine t a b ∧ sectionHeader t = upperAt a (b - a) t) ∨
      ((∀ a b, WordRun t a b → ¬HeadsLine t a b) ∧ sectionHeader t = t) := by
  by_cases hb : t[indent t]? = some '['
  · obtain ⟨hlt, hget⟩ := List.getElem?_eq_some_iff.mp hb
    have hd : t.drop (t.takeWhile isBlank).length = '[' :: t.drop (indent t + 1) := by
      rw [← hget]
      exact List.drop_eq_getElem_cons hlt
    have hstart : isWordAt (before t (indent t + 1)) = false := by
      rw [before, hb, isWordAt, isWord_ascii (by decide)]
      decide
    have hrun := fun b => wordRun_iff (b := b) hstart
    simp only [sectionHeader, hd]
    split
    · next hc =>
      simp only [Bool.and_eq_true, Bool.not_eq_true', List.isEmpty_eq_false_iff, List.drop_drop] at hc
      have hpos := List.length_pos_iff.mpr hc.1
      refine Or.inl ⟨_, _, (hrun _).mpr ⟨by omega, rfl⟩, ⟨rfl, hb, hc.2⟩, ?_⟩
      rw [Nat.add_sub_cancel_left]
      rfl
    · next hc =>
      refine Or.inr ⟨fun a b hw hh => hc ?_, rfl⟩
      obtain ⟨rfl, -, hclose⟩ := hh
      obtain ⟨hlt', hlen⟩ := (hrun b).mp hw
      simp only [Bool.and_eq_true, Bool.not_eq_true', List.isEmpty_eq_false_iff, List.drop_drop, hlen]
      exact ⟨List.length_pos_iff.mp (by omega), hclose⟩
  · refine Or.inr ⟨fun a b _ hh => hb hh.2.1, ?_⟩
    rw [sectionHeader]
    dsimp only
    split
    · next inner hd =>
      refine absurd ?_ hb
      rw [← List.head?_drop, indent, hd, List.head?_cons]
    · rfl

theorem isPass_sectionHeader : IsPass sectionHeader (fun t => picked (HeadsLine t) t) :=
  .of_words (fun t => uppered_of_pick (sectionHeader_cases t) fun _ _ _ _ h h' => h.1.trans h'.1.symm)
    headsLine_congr

/-! ## Leading tokens -/

/-- What must follow a leading word; the end of the word is understood. -/
def Follow.Admits : Follow → Option Char → Prop
  | .dotOrEquals, next => next = some '.' ∨ next = some '='
  | .equals, next => next = some '='
  | .wordEnd, _ => True

theorem isWordAt_sign {d : Char} (hd : d.toNat < 0x80) (hp : Entries.isPlain d = false) :
    isWordAt (some d) = false := by
  rw [isWordAt, isWord_ascii hd, hp]

theorem Follow.holds_iff {follow : Follow} {last next : Option Char} (hl : isWordAt last = true) :
    follow.holds last next = true ↔ isWordAt next = false ∧ follow.Admits next := by
  have hdot : isWordAt (some '.') = false := isWordAt_sign (by decide) (by decide)
  have heq : isWordAt (some '=') = false := isWordAt_sign (by decide) (by decide)
  cases follow with
  | dotOrEquals =>
    simp only [holds, Admits, Bool.or_eq_true, beq_iff_eq]
    refine ⟨fun h => ⟨?_, h⟩, And.right⟩
    rcases h with h | h
    · rw [h, hdot]
    · rw [h, heq]
  | equals =>
    simp only [holds, Admits, beq_iff_eq]
    exact ⟨fun h => ⟨by rw [h, heq], h⟩, And.right⟩
  | wordEnd => simp [holds, Admits, isBoundary, hl]

theorem Follow.admits_congr {t u : Text} (h : u.map letter = t.map letter) (follow : Follow) (i : Nat) :
    follow.Admits u[i]? ↔ follow.Admits t[i]? := by
  cases follow with
  | dotOrEquals =>
    rw [Admits, Admits, eq_sign_congr h (by decide) (by decide), eq_sign_congr h (by decide) (by decide)]
  | equals => exact eq_sign_congr h (by decide) (by decide)
  | wordEnd => exact Iff.rfl

/-- The word is the token, stands first on its line, and what follows it is right. -/
def LeadsLine (follow : Follow) (token t : Text) (a b : Nat) : Prop :=
  a = indent t ∧ b = a + token.length ∧ Spells token t a ∧ follow.Admits t[b]?

theorem leadsLine_congr {follow : Follow} {token t u : Text} (h : u.map letter = t.map letter) (a b : Nat) :
    LeadsLine follow token u a b ↔ LeadsLine follow token t a b := by
  rw [LeadsLine, LeadsLine, indent_congr h, spells_congr h, follow.admits_congr h]

section Leading

variable {token : Text} (hp : Plain token)
include hp

/-- The last character of a spelled token. -/
theorem Spells.isWordAt_last {t : Text} {a : Nat} (h : Spells token t a) :
    isWordAt (t.take (a + token.length)).getLast? = true := by
  have hpos := List.length_pos_iff.mpr hp.1
  have hw := h.word hp (i := a + token.length - 1) (by omega) (by omega)
  have hlt : a + token.length - 1 < t.length := by
    refine Nat.lt_of_not_le fun hge => ?_
    rw [List.getElem?_eq_none hge] at hw
    cases hw
  rwa [List.getLast?_take, if_neg (by omega), List.getElem?_eq_getElem hlt, Option.some_or,
    ← List.getElem?_eq_getElem hlt]

theorem leadsAt_indent_iff {follow : Follow} {t : Text} : leadsAt follow token t (indent t) = true ↔
    WordRun t (indent t) (indent t + token.length) ∧
      LeadsLine follow token t (indent t) (indent t + token.length) := by
  simp only [leadsAt, Bool.and_eq_true, ← spells_iff, List.head?_drop, LeadsLine, true_and]
  constructor
  · rintro ⟨hs, hf⟩
    rw [Follow.holds_iff (hs.isWordAt_last hp)] at hf
    exact ⟨(hs.wordRun_iff hp).mpr ⟨isWordAt_before_indent t, hf.1⟩, hs, hf.2⟩
  · rintro ⟨hw, hs, hf⟩
    exact ⟨hs, (Follow.holds_iff (hs.isWordAt_last hp)).mpr ⟨hw.stop, hf⟩⟩

/-- A plain token does not begin with a blank, so that there is one place only where it can lead a line. -/
theorem leadingStart?_eq (follow : Follow) (t : Text) :
    leadingStart? follow token t = if leadsAt follow token t (indent t) then some (indent t) else none := by
  have hrest : (List.range (indent t)).reverse.find? (leadsAt follow token t) = none := by
    rw [List.find?_eq_none]
    intro i hi hl
    rw [List.mem_reverse, List.mem_range] at hi
    rw [leadsAt, Bool.and_eq_true, ← spells_iff] at hl
    have hpos := List.length_pos_iff.mpr hp.1
    have hw := hl.1.word hp (i := i) (Nat.le_refl i) (by omega)
    rw [isWordAt_of_any_isBlank (isBlank_of_lt_indent hi)] at hw
    cases hw
  have hrange : leadingStart? follow token t =
      (List.range (indent t + 1)).reverse.find? (leadsAt follow token t) := rfl
  rw [hrange, List.range_succ, List.reverse_append, List.reverse_singleton, List.singleton_append, List.find?_cons]
  cases leadsAt follow token t (indent t) with
  | true => rfl
  | false => rw [hrest]; rfl

theorem isPass_upperLeading (follow : Follow) :
    IsPass (fun t => upperLeading follow t token) (fun t => picked (LeadsLine follow token t) t) := by
  refine .of_words (fun t => uppered_of_pick ?_ fun _ _ _ _ h h' => h.1.trans h'.1.symm) leadsLine_congr
  rw [upperLeading, leadingStart?_eq hp]
  split
  · next hc =>
    split at hc
    · next hl =>
      obtain rfl := Option.some.inj hc
      obtain ⟨hw, hh⟩ := (leadsAt_indent_iff hp).mp hl
      exact Or.inl ⟨_, _, hw, hh, by rw [Nat.add_sub_cancel_left]⟩
    · cases hc
  · next hc =>
    split at hc
    · cases hc
    · next hl =>
      refine Or.inr ⟨fun a b hw hh => hl ((leadsAt_indent_iff hp).mpr ?_), rfl⟩
      have hplace := hh
      obtain ⟨rfl, rfl, -⟩ := hplace
      exact ⟨hw, hh⟩

end Leading

/-! ## Commands -/

theorem endsCommand_iff {o : Option Char} :
    endsCommand o = true ↔ ∀ c, o = some c → isBlank c = true ∨ c = '(' := by
  cases o <;> simp [endsCommand]

/-- The word is the command and a blank, an opening parenthesis or the end of the line follows. -/
def CallsCommand (token t : Text) (a b : Nat) : Prop :=
  b = a + token.length ∧ Spells token t a ∧ ∀ c, t[b]? = some c → isBlank c = true ∨ c = '('

theorem callsCommand_congr {token t u : Text} (h : u.map letter = t.map letter) (a b : Nat) :
    CallsCommand token u a b ↔ CallsCommand token t a b := by
  have hnext := forall_char_congr h (P := fun c => isBlank c = true ∨ c = '(')
    (fun c => by rw [isBlank_letter, letter_eq_sign (by decide) (by decide)]) b
  rw [CallsCommand, CallsCommand, spells_congr h, hnext]

theorem spells_drop {token t : Text} {p i : Nat} : Spells token (t.drop p) i ↔ Spells token t (p + i) := by
  rw [Spells, Spells, List.drop_drop]

section Commands

variable {token : Text} (hp : Plain token)
include hp

theorem commandSpan_cond_iff {t : Text} {p : Nat} :
    (isBoundary (before t p) (t.drop p).head? && startsWithToken token (t.drop p)
      && isBoundary (((t.drop p).take token.length).getLast?) ((t.drop p).drop token.length).head?
      && endsCommand ((t.drop p).drop token.length).head?) = true ↔
    WordRun t p (p + token.length) ∧ CallsCommand token t p (p + token.length) := by
  simp only [Bool.and_eq_true, ← spells_iff, List.drop_drop, List.head?_drop, CallsCommand, true_and, endsCommand_iff]
  have hpos := List.length_pos_iff.mpr hp.1
  constructor
  · rintro ⟨⟨⟨hb, hs⟩, he⟩, hc⟩
    have hlast := (spells_drop (i := 0).mpr hs).isWordAt_last hp
    rw [Nat.zero_add] at hlast
    rw [isBoundary, hs.word hp (Nat.le_refl p) (by omega)] at hb
    rw [isBoundary, hlast] at he
    exact ⟨(hs.wordRun_iff hp).mpr ⟨by simpa using hb, by simpa using he⟩, hs, hc⟩
  · rintro ⟨hw, hs, hc⟩
    have hlast := (spells_drop (i := 0).mpr hs).isWordAt_last hp
    rw [Nat.zero_add] at hlast
    refine ⟨⟨⟨?_, hs⟩, ?_⟩, hc⟩
    · rw [isBoundary, hw.start, hw.word p (Nat.le_refl p) hw.lt]
      rfl
    · rw [isBoundary, hlast, hw.stop]
      rfl

/-- A command that is called begins a region, and nothing else does. -/
theorem spanAt_commandSpan (t : Text) (p : Nat) :
    (WordRun t p (p + token.length) ∧ CallsCommand token t p (p + token.length) ∧
      spanAt (commandSpan token) t p = token.length) ∨ spanAt (commandSpan token) t p = 0 := by
  rw [spanAt, commandSpan]
  split
  · next h => exact Or.inl ⟨((commandSpan_cond_iff hp).mp h).1, ((commandSpan_cond_iff hp).mp h).2, rfl⟩
  · exact Or.inr rfl

theorem spanAt_of_callsCommand {t : Text} {p b : Nat} (hw : WordRun t p b) (hc : CallsCommand token t p b) :
    spanAt (commandSpan token) t p = token.length := by
  obtain rfl := hc.1
  exact if_pos ((commandSpan_cond_iff hp).mpr ⟨hw, hc⟩)

/-- No word begins inside of another. -/
theorem nested_commandSpan (t : Text) : Nested (commandSpan token) t := by
  intro p q hpq hq
  rcases spanAt_commandSpan hp t q with ⟨hw, -, hspan⟩ | hspan
  · rcases spanAt_commandSpan hp t p with ⟨hw', -, hspan'⟩ | hspan'
    · rcases Nat.eq_or_lt_of_le hpq with rfl | hlt
      · exact Nat.le_refl _
      · obtain ⟨q, rfl⟩ : ∃ q', q = q' + 1 := ⟨q - 1, by omega⟩
        have hstart := hw.start
        rw [before, hw'.word q (by omega) (by omega)] at hstart
        cases hstart
    · omega
  · omega

theorem isPass_upperCommand :
    IsPass (fun t => upperCommand t token) (fun t => picked (CallsCommand token t) t) := by
  refine .of_words (fun t => (uppered_upperSpans (nested_commandSpan hp t)).congr fun i _ => ?_) callsCommand_congr
  constructor
  · rintro ⟨p, h₁, h₂⟩
    rcases spanAt_commandSpan hp t p with ⟨hw, hc, hspan⟩ | hspan
    · exact ⟨p, _, hw, hc, h₁, by omega⟩
    · omega
  · rintro ⟨a, b, hw, hc, h₁, h₂⟩
    exact ⟨a, h₁, by rw [spanAt_of_callsCommand hp hw hc, ← hc.1]; exact h₂⟩

end Commands

/-! ## Trigger declarations -/

/-- The stretch of a line up to its first blank. -/
def stretch (r : Text) : Text := r.takeWhile fun c => !isBlank c

theorem stretch_eq_append (r : Text) :
    stretch r = r.takeWhile isWord ++ stretch (r.drop (r.takeWhile isWord).length) := by
  have hink : ∀ c ∈ r.takeWhile isWord, (!isBlank c) = true := by
    intro c hc
    have hw : isWord c = true := List.all_eq_true.mp List.all_takeWhile c hc
    obtain ⟨d, hd, hb⟩ := isBlank_of_isWordAt (o := some c) hw
    obtain rfl := Option.some.inj hd
    rw [hb, Bool.not_false]
  have hr : r.takeWhile isWord ++ r.drop (r.takeWhile isWord).length = r :=
    List.prefix_iff_eq_append.mp (List.takeWhile_prefix isWord)
  calc stretch r = stretch (r.takeWhile isWord ++ r.drop (r.takeWhile isWord).length) := by rw [hr]
    _ = _ := List.takeWhile_append_of_pos hink

theorem length_stretch_eq_iff {r : Text} {n : Nat} : (stretch r).length = n ↔
    (∀ j < n, ∃ c, r[j]? = some c ∧ isBlank c = false) ∧ ∀ c, r[n]? = some c → isBlank c = true := by
  rw [stretch, length_takeWhile_eq_iff]
  simp [Option.any_eq_true, Option.any_eq_false]

theorem slash_mem_stretch_iff {r : Text} : '/' ∈ stretch r ↔ ∃ j < (stretch r).length, r[j]? = some '/' := by
  have htake : stretch r = r.take (stretch r).length := List.prefix_iff_eq_take.mp (List.takeWhile_prefix _)
  constructor
  · intro h
    rw [htake] at h
    obtain ⟨j, hj⟩ := List.mem_iff_getElem?.mp h
    rw [List.getElem?_take] at hj
    split at hj
    · next hlt => exact ⟨j, hlt, hj⟩
    · cases hj
  · rintro ⟨j, hlt, hj⟩
    rw [htake]
    exact List.mem_iff_getElem?.mpr ⟨j, by rw [List.getElem?_take, if_pos hlt, hj]⟩

/-- The rest of a declaration is the stretch that begins with its name. A name has no slash, so that it does not matter
whether slashes are looked for in the name as well. -/
theorem triggerTail_eq (r : Text) :
    triggerTail r = if isWordAt r[0]? = true ∧ '/' ∉ stretch r then (stretch r).length else 0 := by
  have hname : (r.takeWhile isWord).isEmpty = !isWordAt r[0]? := by
    cases r with
    | nil => rfl
    | cons c cs => cases hc : isWord c <;> simp [hc, isWordAt]
  have hslash : '/' ∉ r.takeWhile isWord := by
    intro h
    have hw : isWord '/' = true := List.all_eq_true.mp List.all_takeWhile _ h
    rw [isWord_ascii (by decide)] at hw
    exact absurd hw (by decide)
  have htail : ((r.drop (r.takeWhile isWord).length).takeWhile fun c => !isBlank c) =
      stretch (r.drop (r.takeWhile isWord).length) := rfl
  rw [triggerTail, htail, stretch_eq_append r, hname]
  simp only [List.mem_append, hslash, false_or, List.length_append]
  cases isWordAt r[0]? <;> simp

/-- The length of the rest of a declaration, if there is one. -/
theorem triggerTail_eq_iff {r : Text} {n : Nat} : (0 < n ∧ triggerTail r = n) ↔
    isWordAt r[0]? = true ∧ (∀ j < n, ∃ c, r[j]? = some c ∧ isBlank c = false ∧ c ≠ '/') ∧
      ∀ c, r[n]? = some c → isBlank c = true := by
  rw [triggerTail_eq]
  constructor
  · rintro ⟨hpos, h⟩
    split at h
    · next hc =>
      obtain ⟨hbody, hstop⟩ := length_stretch_eq_iff.mp h
      refine ⟨hc.1, fun j hj => ?_, hstop⟩
      obtain ⟨c, hj', hb⟩ := hbody j hj
      refine ⟨c, hj', hb, ?_⟩
      rintro rfl
      exact hc.2 (slash_mem_stretch_iff.mpr ⟨j, by omega, hj'⟩)
    · omega
  · rintro ⟨hw, hbody, hstop⟩
    have hlen : (stretch r).length = n :=
      length_stretch_eq_iff.mpr ⟨fun j hj => (hbody j hj).imp fun c hc => ⟨hc.1, hc.2.1⟩, hstop⟩
    have hslash : '/' ∉ stretch r := by
      intro h
      obtain ⟨j, hj, hj'⟩ := slash_mem_stretch_iff.mp h
      obtain ⟨c, hc, -, hne⟩ := hbody j (by omega)
      exact hne (Option.some.inj (hc.symm.trans hj'))
    refine ⟨Nat.pos_of_ne_zero ?_, by rw [if_pos ⟨hw, hslash⟩, hlen]⟩
    rintro rfl
    obtain ⟨c, hc, hb⟩ := isBlank_of_isWordAt hw
    rw [hstop c hc] at hb
    cases hb

/-- The characters of the mark are neither blanks nor slashes. -/
theorem Spells.body_mark {t : Text} {p i : Nat} (h : Spells triggerMark t p) (hp : p ≤ i) (hi : i < p + 4) :
    ∃ c, t[i]? = some c ∧ isBlank c = false ∧ c ≠ '/' := by
  have hj : i - p < triggerMark.length := by rw [show triggerMark.length = 4 from rfl]; omega
  have hl := h.getElem? hj
  rw [show p + (i - p) = i from by omega] at hl
  obtain ⟨c, hc, hl⟩ := Option.map_eq_some_iff.mp hl
  have hmark : triggerMark.all (fun d => !isBlank d && d != '/') = true := by decide
  obtain ⟨hb, hs⟩ : isBlank triggerMark[i - p] = false ∧ triggerMark[i - p] ≠ '/' := by
    simpa using List.all_eq_true.mp hmark _ (List.getElem_mem hj)
  refine ⟨c, hc, ?_, ?_⟩
  · rw [← isBlank_letter, hl, isBlank_letter, hb]
  · rw [Ne, ← letter_eq_sign (by decide) (by decide), hl, letter_eq_sign (by decide) (by decide)]
    exact hs

/-- Behind the mark stands the name. -/
theorem Declares.mark_lt {t : Text} {p q : Nat} (h : Declares t p q) : p + 4 < q := by
  refine Nat.lt_of_not_le fun hle => ?_
  have hq : ∃ c, t[q]? = some c ∧ isBlank c = false := by
    rcases Nat.eq_or_lt_of_le hle with rfl | hlt
    · exact isBlank_of_isWordAt h.name
    · obtain ⟨c, hc, hb, -⟩ := h.mark.body_mark (Nat.le_of_lt h.lt) hlt
      exact ⟨c, hc, hb⟩
  obtain ⟨c, hc, hb⟩ := hq
  rw [h.stop c hc] at hb
  cases hb

theorem declares_iff {t : Text} {p n : Nat} : Declares t p (p + 4 + n) ↔
    isBoundary (before t p) t[p]? = true ∧ Spells triggerMark t p ∧ 0 < n ∧ triggerTail (t.drop (p + 4)) = n := by
  rw [triggerTail_eq_iff]
  simp only [List.getElem?_drop, Nat.add_zero]
  constructor
  · exact fun h => ⟨h.boundary, h.mark, h.name, fun j hj => h.body _ (by omega) (by omega), h.stop⟩
  · rintro ⟨hb, hm, hname, hbody, hstop⟩
    refine ⟨by omega, hb, hm, hname, fun i h₁ h₂ => ?_, hstop⟩
    rcases Nat.lt_or_ge i (p + 4) with hlt | hge
    · exact hm.body_mark h₁ hlt
    · have := hbody (i - (p + 4)) (by omega)
      rwa [show p + 4 + (i - (p + 4)) = i from by omega] at this

/-- A declaration is the region that begins at its place. -/
theorem declares_iff_spanAt {t : Text} {p q : Nat} :
    Declares t p q ↔ p < q ∧ q = p + spanAt triggerSpan t p := by
  have hcond : (isBoundary (before t p) (t.drop p).head? && startsWithToken triggerMark (t.drop p)) = true ↔
      isBoundary (before t p) t[p]? = true ∧ Spells triggerMark t p := by
    rw [Bool.and_eq_true, List.head?_drop, spells_iff]
  constructor
  · intro h
    obtain ⟨n, rfl⟩ : ∃ n, q = p + 4 + n := ⟨q - (p + 4), by have := h.mark_lt; omega⟩
    obtain ⟨hb, hm, hpos, htail⟩ := declares_iff.mp h
    have hspan : spanAt triggerSpan t p = 4 + n := by
      rw [spanAt, triggerSpan, if_pos (hcond.mpr ⟨hb, hm⟩), List.drop_drop, show triggerMark.length = 4 from rfl, htail]
      cases n with
      | zero => omega
      | succ n => rfl
    exact ⟨h.lt, by omega⟩
  · rintro ⟨hlt, hq⟩
    have hspan : 0 < spanAt triggerSpan t p := by omega
    rw [spanAt, triggerSpan] at hspan hq
    split at hspan
    · next hc =>
      rw [if_pos hc, List.drop_drop] at hq
      rw [List.drop_drop] at hspan
      cases htail : triggerTail (t.drop (p + triggerMark.length)) with
      | zero => rw [htail] at hspan; exact absurd hspan (Nat.lt_irrefl 0)
      | succ n =>
        rw [htail] at hq
        obtain ⟨hb, hm⟩ := hcond.mp hc
        have : q = p + 4 + (n + 1) := by rw [hq]; exact (Nat.add_assoc p 4 (n + 1)).symm
        rw [this]
        exact declares_iff.mpr ⟨hb, hm, Nat.succ_pos n, htail⟩
    · omega

theorem spanned_triggerSpan (t : Text) : spanned triggerSpan t = triggered t := by
  ext i
  constructor
  · rintro ⟨p, h₁, h₂⟩
    exact ⟨p, _, declares_iff_spanAt.mpr ⟨by omega, rfl⟩, h₁, h₂⟩
  · rintro ⟨p, q, hd, h₁, h₂⟩
    exact ⟨p, h₁, (declares_iff_spanAt.mp hd).2 ▸ h₂⟩

/-- Declarations end at the next blank, so that one inside of another ends with it. -/
theorem nested_triggerSpan (t : Text) : Nested triggerSpan t := by
  intro p q hpq hq
  refine Nat.le_of_not_lt fun hlt => ?_
  have hd : Declares t p (p + spanAt triggerSpan t p) := declares_iff_spanAt.mpr ⟨by omega, rfl⟩
  have hd' : Declares t q (q + spanAt triggerSpan t q) := declares_iff_spanAt.mpr ⟨by omega, rfl⟩
  obtain ⟨c, hc, hb, -⟩ := hd'.body _ (Nat.le_of_lt hq) hlt
  rw [hd.stop c hc] at hb
  cases hb

theorem isPass_trigger : IsPass trigger triggered where
  uppered t := by
    rw [← spanned_triggerSpan]
    exact uppered_upperSpans (nested_triggerSpan t)
  harmless := harmless_triggered
  stable hV hu _ hi := triggered_congr hV hu hi

end Rule
end ScriptCase
