import ScriptCase.Keyword.Source
import ScriptCase.Proofs.Rules

/-!
# Sound keyword tables

The entries of a table may be values of any kind. `Entries.Sound` says, without going through them in order, which of
them make up a table: they are plain words, no category lists a word twice, and no word is both a scope and a property,
whatever the case. A table is built from just these (`Table.exists_ofEntries_iff`) and keeps them as they are
(`Table.ofTokens_of_ofEntries`), so every table is sound, however it was extended (`Table.sound_ofTokens`).

Entries that are not sound have a first fault, which is an issue of the keyword table. There is one exception: the issue
about an entry that is no plain word shows the entry, and a whole number may be too long for that. If the first fault is
such an entry (`Entries.Unshown`), building the table ends with a mishap. `Table.built_iff_sound` puts this together for
entries and for documents, which may besides be misshapen.
-/

namespace ScriptCase

open Text

/-! ## Sound entries -/

namespace Entries

/-- The entry is a plain word. -/
def IsWord (v : Value) : Prop := ∃ t : Text, v = .string t ∧ Plain t

/-- The entries are one word, whatever the case. -/
def SameWord (v w : Value) : Prop := ∃ s t : Text, v = .string s ∧ w = .string t ∧ lowerText s = lowerText t

/-- The entries of a category are plain words, and no word is listed twice. -/
structure SoundList (vs : List Value) : Prop where
  word : ∀ v ∈ vs, IsWord v
  apart : vs.Pairwise fun v w => ¬SameWord v w

/-- The entries of all categories make up a table. -/
structure Sound (e : Entries) : Prop where
  list : ∀ c, SoundList (e c)
  apart : ∀ v ∈ e .scope, ∀ w ∈ e .assignment, ¬SameWord v w

theorem token?_eq_some_iff {v : Value} {t : Text} : token? v = some t ↔ v = .string t ∧ Plain t := by
  cases v with
  | string s =>
    rw [token?, Option.filter_eq_some_iff, LooseText.text?_eq_some_iff, Value.string.injEq]
    simp [Plain]
  | _ => simp [token?]

theorem token?_eq_none_iff {v : Value} : token? v = none ↔ ¬IsWord v := by
  rw [Option.eq_none_iff_forall_ne_some]
  simp only [ne_eq, token?_eq_some_iff, IsWord, not_exists]

theorem soundList_cons {v : Value} {vs : List Value} :
    SoundList (v :: vs) ↔ IsWord v ∧ (∀ w ∈ vs, ¬SameWord v w) ∧ SoundList vs := by
  constructor
  · rintro ⟨hw, ha⟩
    obtain ⟨hv, hvs⟩ := List.forall_mem_cons.mp hw
    obtain ⟨ha, has⟩ := List.pairwise_cons.mp ha
    exact ⟨hv, ha, hvs, has⟩
  · rintro ⟨hv, ha, hvs, has⟩
    exact ⟨List.forall_mem_cons.mpr ⟨hv, hvs⟩, List.pairwise_cons.mpr ⟨ha, has⟩⟩

/-- A category is without a fault if it is sound and repeats none of the words before. -/
theorem categoryFault?_eq_none_iff {c : Category} {seen : List Text} {vs : List Value} :
    categoryFault? c seen vs = none ↔ SoundList vs ∧ ∀ t : Text, Value.string t ∈ vs → lowerText t ∉ seen := by
  induction vs generalizing seen with
  | nil => exact iff_of_true rfl ⟨⟨by simp, .nil⟩, by simp⟩
  | cons v vs ih =>
    rw [categoryFault?, soundList_cons]
    cases hv : token? v with
    | none =>
      refine iff_of_false (by simp) ?_
      rintro ⟨⟨hw, -⟩, -⟩
      exact token?_eq_none_iff.mp hv hw
    | some t =>
      obtain ⟨rfl, hp⟩ := token?_eq_some_iff.mp hv
      by_cases hs : lowerText t ∈ seen
      · refine iff_of_false (by simp [hs]) ?_
        rintro ⟨-, hfresh⟩
        exact hfresh t List.mem_cons_self hs
      · simp only [List.elem_eq_mem, hs, decide_false, Bool.false_eq_true, if_false, ih]
        constructor
        · rintro ⟨hl, hfresh⟩
          refine ⟨⟨⟨t, rfl, hp⟩, ?_, hl⟩, ?_⟩
          · rintro _ hw ⟨s, s', hs', rfl, he⟩
            obtain rfl := LooseText.ofText_inj.mp (Value.string.inj hs')
            exact hfresh s' hw (he ▸ List.mem_cons_self)
          · intro s hm
            rcases List.mem_cons.mp hm with he | hm
            · rwa [LooseText.ofText_inj.mp (Value.string.inj he)]
            · exact fun h => hfresh s hm (List.mem_cons_of_mem _ h)
        · rintro ⟨⟨-, ha, hl⟩, hfresh⟩
          refine ⟨hl, fun s hm h => ?_⟩
          rcases List.mem_cons.mp h with he | h
          · exact ha _ hm ⟨t, s, rfl, rfl, he.symm⟩
          · exact hfresh s (List.mem_cons_of_mem _ hm) h

theorem categoryFault?_nil_eq_none_iff {c : Category} {vs : List Value} :
    categoryFault? c [] vs = none ↔ SoundList vs := by
  rw [categoryFault?_eq_none_iff, and_iff_left]
  simp

/-- An entry is reported as no plain word if it is none and all entries before it are without a fault. -/
theorem categoryFault?_eq_invalid_iff {c c' : Category} {seen : List Text} {vs : List Value} {v : Value} :
    categoryFault? c seen vs = some (.invalidToken c' v) ↔
      c' = c ∧ ∃ pre post, vs = pre ++ v :: post ∧ categoryFault? c seen pre = none ∧ ¬IsWord v := by
  induction vs generalizing seen with
  | nil => simp [categoryFault?]
  | cons w vs ih =>
    rw [categoryFault?]
    cases hw : token? w with
    | none =>
      constructor
      · intro h
        obtain ⟨rfl, rfl⟩ := TableFault.invalidToken.inj (Option.some.inj h)
        exact ⟨rfl, [], vs, rfl, rfl, token?_eq_none_iff.mp hw⟩
      · rintro ⟨rfl, pre, post, hvs, hpre, hv⟩
        cases pre with
        | nil =>
          obtain ⟨rfl, rfl⟩ := List.cons.inj hvs
          rfl
        | cons w' pre =>
          obtain ⟨rfl, rfl⟩ := List.cons.inj hvs
          simp [categoryFault?, hw] at hpre
    | some t =>
      -- a plain word is not the entry that is reported, so it stands before it
      have hword : IsWord w := by
        obtain ⟨rfl, hp⟩ := token?_eq_some_iff.mp hw
        exact ⟨t, rfl, hp⟩
      by_cases hs : lowerText t ∈ seen
      · refine iff_of_false (by simp [hs]) ?_
        rintro ⟨rfl, _ | ⟨w', pre⟩, post, hvs, hpre, hv⟩
        · obtain ⟨rfl, rfl⟩ := List.cons.inj hvs
          exact hv hword
        · obtain ⟨rfl, rfl⟩ := List.cons.inj hvs
          simp [categoryFault?, hw, hs] at hpre
      · simp only [List.elem_eq_mem, hs, decide_false, Bool.false_eq_true, if_false, ih]
        refine and_congr_right fun _ => ?_
        constructor
        · rintro ⟨pre, post, rfl, hpre, hv⟩
          exact ⟨w :: pre, post, rfl, by simpa [categoryFault?, hw, hs] using hpre, hv⟩
        · rintro ⟨_ | ⟨w', pre⟩, post, hvs, hpre, hv⟩
          · obtain ⟨rfl, rfl⟩ := List.cons.inj hvs
            exact absurd hword hv
          · obtain ⟨rfl, rfl⟩ := List.cons.inj hvs
            exact ⟨pre, post, rfl, by simpa [categoryFault?, hw, hs] using hpre, hv⟩

theorem mem_lowered_iff {e : Entries} {c : Category} {t : Text} :
    t ∈ e.lowered c ↔ ∃ s : Text, Value.string s ∈ e c ∧ Plain s ∧ lowerText s = t := by
  simp only [lowered, List.mem_filterMap, Option.map_eq_some_iff, token?_eq_some_iff]
  constructor
  · rintro ⟨_, hm, s, ⟨rfl, hp⟩, rfl⟩
    exact ⟨s, hm, hp, rfl⟩
  · rintro ⟨s, hm, hp, rfl⟩
    exact ⟨_, hm, s, ⟨rfl, hp⟩, rfl⟩

/-- Among sound lists, no word is both a scope and a property if the two have no token in common. -/
theorem shared_isEmpty_iff {e : Entries} (h : ∀ c, SoundList (e c)) :
    e.shared.isEmpty = true ↔ ∀ v ∈ e .scope, ∀ w ∈ e .assignment, ¬SameWord v w := by
  simp only [shared, List.isEmpty_iff, List.filter_eq_nil_iff, List.elem_eq_mem, decide_eq_true_eq, mem_lowered_iff]
  constructor
  · rintro hn _ hv _ hw ⟨s, t, rfl, rfl, he⟩
    obtain ⟨s', hs, hp⟩ := (h .scope).word _ hv
    obtain ⟨t', ht, hp'⟩ := (h .assignment).word _ hw
    obtain rfl := LooseText.ofText_inj.mp (Value.string.inj hs)
    obtain rfl := LooseText.ofText_inj.mp (Value.string.inj ht)
    exact hn _ ⟨s, hv, hp, rfl⟩ ⟨t, hw, hp', he.symm⟩
  · rintro hn _ ⟨s, hs, -, rfl⟩ ⟨t, ht, -, he⟩
    exact hn _ hs _ ht ⟨s, t, rfl, rfl, he.symm⟩

/-- Entries are without a fault just when they are sound. -/
theorem fault?_eq_none_iff {e : Entries} : e.fault? = none ↔ e.Sound := by
  have hlists : (Category.all.findSome? fun c => categoryFault? c [] (e c)) = none ↔ ∀ c, SoundList (e c) := by
    simp only [List.findSome?_eq_none_iff, categoryFault?_nil_eq_none_iff, Category.mem_all, true_imp_iff]
  rw [fault?]
  cases hf : Category.all.findSome? fun c => categoryFault? c [] (e c) with
  | some f =>
    refine iff_of_false (by simp) fun hs => ?_
    rw [hlists.mpr hs.list] at hf
    cases hf
  | none =>
    have hl := hlists.mp hf
    have hshared := shared_isEmpty_iff hl
    cases hs : e.shared.isEmpty with
    | true => exact iff_of_true rfl ⟨hl, hshared.mp hs⟩
    | false =>
      refine iff_of_false (by simp) fun hsound => ?_
      rw [hshared.mpr hsound.apart] at hs
      cases hs

/-- The first fault is an entry that holds a number too long to be shown: the categories before it and the entries
before it in its own are sound. -/
def Unshown (e : Entries) : Prop :=
  ∃ before c after pre v post, Category.all = before ++ c :: after ∧ (∀ c' ∈ before, SoundList (e c')) ∧
    e c = pre ++ v :: post ∧ SoundList pre ∧ v.isShowable = false

theorem not_isWord_of_unshowable {v : Value} (h : v.isShowable = false) : ¬IsWord v := by
  rintro ⟨t, rfl, -⟩
  cases h

theorem unshown_iff {e : Entries} :
    e.Unshown ↔ ∃ c v, e.fault? = some (.invalidToken c v) ∧ v.isShowable = false := by
  have hfirst : ∀ c v, e.fault? = some (.invalidToken c v) ↔
      (Category.all.findSome? fun c => categoryFault? c [] (e c)) = some (.invalidToken c v) := by
    intro c v
    rw [fault?]
    split
    · next hf => rw [hf]
    · next hf =>
      rw [hf]
      split <;> simp
  simp only [hfirst, List.findSome?_eq_some_iff, categoryFault?_eq_invalid_iff, categoryFault?_nil_eq_none_iff]
  constructor
  · rintro ⟨before, c, after, pre, v, post, hall, hbefore, he, hpre, hv⟩
    exact ⟨c, v, ⟨before, c, after, hall, ⟨rfl, pre, post, he, hpre, not_isWord_of_unshowable hv⟩, hbefore⟩, hv⟩
  · rintro ⟨_, v, ⟨before, c, after, hall, ⟨rfl, pre, post, he, hpre, -⟩, hbefore⟩, hv⟩
    exact ⟨before, _, after, pre, v, post, hall, hbefore, he, hpre, hv⟩

end Entries

/-! ## Tables of entries -/

namespace Table

theorem ofEntries_eq_error_iff {e : Entries} {source : Option String} {f : TableFault} :
    ofEntries e source = .error f ↔ e.fault? = some f := by
  rw [ofEntries]
  split
  · next g h => simp [h]
  · next h => simp [h]

theorem sound_ofTokens (t : Table) : (Entries.ofTokens t.tokens).Sound :=
  Entries.fault?_eq_none_iff.mp (Option.isNone_iff_eq_none.mp t.sound)

/-- The tokens of a table are the entries that it was built from, in their order. -/
theorem ofTokens_of_ofEntries {e : Entries} {source : Option String} {t : Table} (h : ofEntries e source = .ok t) :
    Entries.ofTokens t.tokens = e ∧ t.source = source := by
  rw [ofEntries] at h
  split at h
  · cases h
  · next hf =>
    obtain rfl := Except.ok.inj h
    exact ⟨Entries.eq_of_fault? hf, rfl⟩

/-- A table can be built from sound entries and from no others. -/
theorem exists_ofEntries_iff {e : Entries} {source : Option String} :
    (∃ t, ofEntries e source = .ok t) ↔ e.Sound := by
  rw [← Entries.fault?_eq_none_iff]
  cases h : ofEntries e source with
  | ok t =>
    refine iff_of_true ⟨t, rfl⟩ ?_
    obtain ⟨rfl, -⟩ := ofTokens_of_ofEntries h
    exact Option.isNone_iff_eq_none.mp t.sound
  | error f => simp [ofEntries_eq_error_iff.mp h]

/-- A fault is an issue about the table, unless it is an entry that cannot be shown. -/
theorem failure_cases (source : Option String) (f : TableFault) :
    (failure source f = .issue (f.issue source) ∧ ¬∃ c v, f = .invalidToken c v ∧ v.isShowable = false) ∨
      (failure source f = .mishap (.excess .unshownNumber) ∧ ∃ c v, f = .invalidToken c v ∧ v.isShowable = false) := by
  cases f with
  | invalidToken c v => cases hv : v.isShowable <;> simp [failure, hv]
  | _ => simp [failure]

/-- How it ends to build a table: with a table, with a mishap about a number, or with an issue about the table. -/
structure Ends (result : Except Failure Table) (source : Option String) (sound unshown : Prop) : Prop where
  table : (∃ t, result = .ok t) ↔ sound
  mishap : ∀ m, result = .error (.mishap m) ↔ m = .excess .unshownNumber ∧ unshown
  issue : (∃ i, result = .error (.issue i)) ↔ ¬sound ∧ ¬unshown
  about : ∀ i, result = .error (.issue i) → i.kind = .keywordTable ∧ i.location.path = source

/-- Building a table ends with a mishap just when its fault is an entry that cannot be shown. -/
theorem ends_of_fault (source : Option String) (f : TableFault) :
    Ends (.error (failure source f)) source False (∃ c v, f = .invalidToken c v ∧ v.isShowable = false) := by
  rcases failure_cases source f with ⟨hf, hn⟩ | ⟨hf, hn⟩
  · rw [hf]
    exact ⟨by simp, by simp [hn], by simp [hn], by rintro _ ⟨⟩; exact ⟨rfl, rfl⟩⟩
  · rw [hf]
    exact ⟨by simp, fun m => by simpa [hn] using eq_comm, by simp [hn], by simp⟩

theorem ofEntries_ends (e : Entries) (source : Option String) :
    Ends ((ofEntries e source).mapError (failure source)) source e.Sound e.Unshown := by
  have hsound := @exists_ofEntries_iff e source
  have hunshown := @Entries.unshown_iff e
  cases h : ofEntries e source with
  | ok t =>
    have hs : e.Sound := hsound.mp ⟨t, h⟩
    have hu : ¬e.Unshown := by simp [hunshown, Entries.fault?_eq_none_iff.mpr hs]
    exact ⟨by simp [Except.mapError, hs], by simp [Except.mapError, hu], by simp [Except.mapError, hs],
      by simp [Except.mapError]⟩
  | error f =>
    have hs : ¬e.Sound := by simp [← hsound, h]
    simpa [Except.mapError, hs, hunshown, ofEntries_eq_error_iff.mp h] using ends_of_fault source f

/-! ## Tables of documents -/

/-- The section of keywords: the one of that name or, without one, the whole document. -/
def keywordSection (document : List (LooseText × Value)) : Value :=
  (Value.lookup? "keywords" document).getD (.table document)

/-- A category is given by a value that is neither void nor a list. -/
def NotAList (fields : List (LooseText × Value)) (c : Category) : Prop :=
  ∃ v, Value.lookup? c.name fields = some v ∧ v.isVoid = false ∧ ∀ items, v ≠ .array items

/-- The section of keywords is not a table, or a category in it is not a list. -/
def Misshapen (document : List (LooseText × Value)) : Prop :=
  (∀ fields, keywordSection document ≠ .table fields) ∨
    ∃ fields c, keywordSection document = .table fields ∧ NotAList fields c

/-- The items of the list that gives a category. -/
def itemsIn (fields : List (LooseText × Value)) (c : Category) : List Value :=
  match Value.lookup? c.name fields with
  | some (.array items) => items
  | _ => []

/-- The entries that a document lists. -/
def entriesOf (document : List (LooseText × Value)) : Entries :=
  match keywordSection document with
  | .table fields => itemsIn fields
  | _ => fun _ => []

theorem entriesIn_eq (fields : List (LooseText × Value)) (c : Category) :
    (NotAList fields c ∧ entriesIn fields c = .error (.notAList c)) ∨
      (¬NotAList fields c ∧ entriesIn fields c = .ok (itemsIn fields c)) := by
  rw [NotAList, entriesIn, itemsIn]
  cases Value.lookup? c.name fields with
  | none => simp
  | some v =>
    cases hv : v.isVoid with
    | true => cases v <;> simp_all [Value.isVoid]
    | false => cases v <;> simp_all

/-- A document that is misshapen has a fault of its own; the table of any other is that of its entries. -/
theorem ofDocument_cases (document : List (LooseText × Value)) (source : Option String) :
    (Misshapen document ∧ ∃ f, ofDocument document source = .error f ∧ ∀ c v, f ≠ .invalidToken c v) ∨
      (¬Misshapen document ∧ ofDocument document source = ofEntries (entriesOf document) source) := by
  rw [ofDocument, Misshapen, entriesOf, ← keywordSection]
  cases keywordSection document with
  | table fields =>
    dsimp only
    by_cases h : ∃ c, NotAList fields c
    · obtain ⟨c, hc⟩ := h
      refine .inl ⟨.inr ⟨fields, c, rfl, hc⟩, ?_⟩
      -- the categories are read in their order, up to the first that is not a list
      rcases entriesIn_eq fields .assignment with ⟨-, ha⟩ | ⟨hna, ha⟩
      · exact ⟨.notAList .assignment, by rw [ha]; rfl, by simp⟩
      rcases entriesIn_eq fields .scope with ⟨-, hs⟩ | ⟨hns, hs⟩
      · exact ⟨.notAList .scope, by rw [ha, hs]; rfl, by simp⟩
      rcases entriesIn_eq fields .control with ⟨-, ht⟩ | ⟨hnt, ht⟩
      · exact ⟨.notAList .control, by rw [ha, hs, ht]; rfl, by simp⟩
      rcases entriesIn_eq fields .command with ⟨-, hm⟩ | ⟨hnm, hm⟩
      · exact ⟨.notAList .command, by rw [ha, hs, ht, hm]; rfl, by simp⟩
      cases c with
      | assignment => exact absurd hc hna
      | scope => exact absurd hc hns
      | control => exact absurd hc hnt
      | command => exact absurd hc hnm
    · have hok : ∀ c, entriesIn fields c = .ok (itemsIn fields c) := fun c =>
        (entriesIn_eq fields c).elim (fun hc => absurd ⟨c, hc.1⟩ h) (·.2)
      refine .inr ⟨?_, ?_⟩
      · rintro (hsec | ⟨_, c, ⟨⟩, hc⟩)
        · exact hsec fields rfl
        · exact h ⟨c, hc⟩
      · rw [hok, hok, hok, hok]
        exact congrArg (ofEntries · source) (funext fun c => by cases c <;> rfl)
  | _ => exact .inl ⟨.inl (by simp), .sectionNotATable, rfl, by simp⟩

theorem ofDocument_ends (document : List (LooseText × Value)) (source : Option String) :
    Ends ((ofDocument document source).mapError (failure source)) source
      (¬Misshapen document ∧ (entriesOf document).Sound) (¬Misshapen document ∧ (entriesOf document).Unshown) := by
  rcases ofDocument_cases document source with ⟨hm, f, hf, hshape⟩ | ⟨hm, he⟩
  · simpa [hf, hm, hshape, Except.mapError] using ends_of_fault source f
  · simpa [he, hm] using ofEntries_ends (entriesOf document) source

/-- Of entries of any kind a table is built just if they are sound, and it holds these entries. Otherwise there is an
issue about the table, unless the first fault is a number too long to be shown. A document that is misshapen is an issue
as well. Tables that were extended in any way are sound again. -/
theorem built_iff_sound (source : Option String) (e : Entries) (document : List (LooseText × Value))
    (extras : List (List (String × List LooseText))) :
    Ends ((ofEntries e source).mapError (failure source)) source e.Sound e.Unshown ∧
    (∀ t, ofEntries e source = .ok t → Entries.ofTokens t.tokens = e) ∧
    Ends ((ofDocument document source).mapError (failure source)) source
      (¬Misshapen document ∧ (entriesOf document).Sound) (¬Misshapen document ∧ (entriesOf document).Unshown) ∧
    (∀ t, ofDocument document source = .ok t → Entries.ofTokens t.tokens = entriesOf document) ∧
    ∀ t, (ofDocument document source >>= fun t => extras.foldlM extend t) = .ok t →
      (Entries.ofTokens t.tokens).Sound := by
  refine ⟨ofEntries_ends e source, fun t h => (ofTokens_of_ofEntries h).1, ofDocument_ends document source, ?_, ?_⟩
  · intro t h
    rcases ofDocument_cases document source with ⟨-, f, hf, -⟩ | ⟨-, he⟩
    · cases hf.symm.trans h
    · exact (ofTokens_of_ofEntries (he.symm.trans h)).1
  · exact fun t _ => t.sound_ofTokens

/-- The only entry is the number 16 ^ 3573 of 4303 digits: the entries are not sound, yet there is no issue. -/
theorem ofEntries_unshown :
    let e : Entries := fun | .assignment => [.int (16 ^ 3573)] | _ => []
    ¬e.Sound ∧ ∀ i, (ofEntries e none).mapError (failure none) ≠ .error (.issue i) := by
  intro e
  have hlong : (Value.int (16 ^ 3573)).isShowable = false := by decide +kernel
  have hunshown : e.Unshown :=
    ⟨[], .assignment, _, [], .int (16 ^ 3573), [], rfl, by simp, rfl, ⟨by simp, .nil⟩, hlong⟩
  have hends := ofEntries_ends e none
  have hsound : ¬e.Sound := fun hs =>
    Entries.not_isWord_of_unshowable hlong ((hs.list .assignment).word _ List.mem_cons_self)
  exact ⟨hsound, fun i hi => (hends.issue.mp ⟨i, hi⟩).2 hunshown⟩

end Table
end ScriptCase
