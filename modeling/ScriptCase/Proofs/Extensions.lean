import ScriptCase.Proofs.CommandLine
import ScriptCase.Proofs.SoundTables

/-!
# Extending keyword tables

An extension lists further tokens under the names of categories. `Table.extend_eq_ok_iff` says when a table takes an
extension, and what it becomes: all names are those of categories, and behind its own tokens there is room for those
that are new (`Table.firsts`), which is to say that some table holds them all. From this it follows that two extensions
one after the other do what both do at once (`Table.extend_composes`), whether they are taken or refused.

What carries this over to the tokens is `Table.fresh_append`: passing over the known tokens of two lists in a row is
passing over those of the first and then, with what was new in it, those of the second.
-/

namespace ScriptCase

open Text

/-- Further tokens under the names of categories. -/
abbrev Extension := List (String × List LooseText)

namespace Extension

/-- The names that the extension mentions. -/
def names (e : Extension) : List String := e.map (·.1)

/-- The tokens under a name, none if the extension does not mention it. -/
def under (e : Extension) (name : String) : List LooseText := ((e.find? (·.1 == name)).map (·.2)).getD []

/-- Both extensions at once: under every name the tokens of the first and then those of the second. -/
def merge (a b : Extension) : Extension :=
  (a.names ++ b.names).eraseDups.map fun name => (name, a.under name ++ b.under name)

variable {a b : Extension} {name : String}

theorem under_of_not_mem (h : name ∉ a.names) : a.under name = [] := by
  have hnone : a.find? (·.1 == name) = none := by
    rw [List.find?_eq_none]
    rintro ⟨n, ts⟩ hm he
    exact h (List.mem_map.mpr ⟨_, hm, by simpa using he⟩)
  rw [under, hnone]
  rfl

theorem mem_names_merge : name ∈ (a.merge b).names ↔ name ∈ a.names ∨ name ∈ b.names := by
  simp [merge, names, List.mem_eraseDups]

theorem under_merge (a b : Extension) (name : String) : (a.merge b).under name = a.under name ++ b.under name := by
  by_cases h : name ∈ (a.merge b).names
  · have hmem : name ∈ (a.names ++ b.names).eraseDups := by
      rw [List.mem_eraseDups, List.mem_append, ← mem_names_merge]
      exact h
    have hfind : (a.names ++ b.names).eraseDups.find? (· == name) = some name := by
      rcases hf : (a.names ++ b.names).eraseDups.find? (· == name) with _ | n
      · exact absurd (beq_self_eq_true name) (List.find?_eq_none.mp hf name hmem)
      · rw [show n = name by simpa using List.find?_some hf]
    rw [under, merge, List.find?_map, Function.comp_def, hfind]
    rfl
  · have hab := mt mem_names_merge.mpr h
    rw [not_or] at hab
    rw [under_of_not_mem h, under_of_not_mem hab.1, under_of_not_mem hab.2]
    rfl

end Extension

namespace Entries

/-- Part of a sound list is sound. -/
theorem SoundList.sublist {vs ws : List Value} (h : ws.Sublist vs) (hs : SoundList vs) : SoundList ws :=
  ⟨fun v hv => hs.word v (h.subset hv), hs.apart.sublist h⟩

/-- Part of the entries of a table make up a table. -/
theorem Sound.sublist {e e' : Entries} (h : ∀ c, (e c).Sublist (e' c)) (hs : e'.Sound) : e.Sound :=
  ⟨fun c => (hs.list c).sublist (h c), fun v hv w hw => hs.apart v ((h _).subset hv) w ((h _).subset hw)⟩

end Entries

namespace Table

/-! ## Tokens that are new -/

/-- The token at place `i` of the list is none of those known, and is not listed before, whatever the case. -/
def IsFirst (known ts : List LooseText) (i : Nat) (t : LooseText) : Prop :=
  t.lower ∉ known.map LooseText.lower ∧ t.lower ∉ (ts.take i).map LooseText.lower

instance (known ts : List LooseText) (i : Nat) (t : LooseText) : Decidable (IsFirst known ts i t) :=
  inferInstanceAs (Decidable (_ ∧ _))

/-- The first occurrences of the tokens that are not known. -/
def firsts (known ts : List LooseText) : List LooseText :=
  (ts.zipIdx.filter fun p => decide (IsFirst known ts p.2 p.1)).map (·.1)

variable {seen seen' ts us : List LooseText}

theorem fresh_cons (seen : List LooseText) (t : LooseText) (ts : List LooseText) :
    fresh seen (t :: ts) = if t.lower ∈ seen then fresh seen ts else t :: fresh (t.lower :: seen) ts := by
  simp [fresh]

/-- What is new depends only on which tokens were seen. -/
theorem fresh_congr (h : ∀ x, x ∈ seen ↔ x ∈ seen') : fresh seen ts = fresh seen' ts := by
  induction ts generalizing seen seen' with
  | nil => rfl
  | cons t ts ih =>
    have hcons : ∀ x, x ∈ t.lower :: seen ↔ x ∈ t.lower :: seen' := fun x => by simp [h]
    simp only [fresh_cons, h, ih h, ih hcons]

theorem fresh_append (seen ts us : List LooseText) :
    fresh seen (ts ++ us) = fresh seen ts ++ fresh (seen ++ (fresh seen ts).map LooseText.lower) us := by
  induction ts generalizing seen with
  | nil => simp [fresh]
  | cons t ts ih =>
    rw [List.cons_append, fresh_cons, fresh_cons]
    split
    · exact ih seen
    · rw [ih, List.cons_append]
      refine congrArg (fun new => t :: (_ ++ new)) (fresh_congr fun x => ?_)
      simp only [List.map_cons, List.mem_append, List.mem_cons]
      exact or_left_comm

/-- Every token of the list was seen before or is among the new ones. -/
theorem lower_mem_of_mem {t : LooseText} (h : t ∈ ts) : t.lower ∈ seen ++ (fresh seen ts).map LooseText.lower := by
  induction ts generalizing seen with
  | nil => cases h
  | cons u ts ih =>
    rw [fresh_cons]
    split
    · next hu =>
      rcases List.mem_cons.mp h with rfl | h
      · exact List.mem_append_left _ hu
      · exact ih h
    · rcases List.mem_cons.mp h with rfl | h
      · simp
      · have hmem := @ih (u.lower :: seen) h
        simp only [List.map_cons, List.mem_append, List.mem_cons] at hmem ⊢
        rw [or_left_comm, ← or_assoc]
        exact hmem

theorem fresh_eq_nil (h : ∀ t ∈ ts, t.lower ∈ seen) : fresh seen ts = [] := by
  induction ts with
  | nil => rfl
  | cons t ts ih =>
    obtain ⟨ht, hts⟩ := List.forall_mem_cons.mp h
    rw [fresh_cons, if_pos ht, ih hts]

/-- Going through a list finds the first occurrences; `pre` is what was gone through before. -/
theorem fresh_eq_filter (known pre ts : List LooseText) :
    fresh ((known ++ pre).map LooseText.lower) ts =
      ((ts.zipIdx pre.length).filter fun p => decide (IsFirst known (pre ++ ts) p.2 p.1)).map (·.1) := by
  induction ts generalizing pre with
  | nil => rfl
  | cons t ts ih =>
    have htail := ih (pre ++ [t])
    simp only [List.append_assoc, List.singleton_append, List.length_append, List.length_singleton] at htail
    have hseen : (known ++ (pre ++ [t])).map LooseText.lower = (known ++ pre).map LooseText.lower ++ [t.lower] := by
      simp
    have hfirst : IsFirst known (pre ++ t :: ts) pre.length t ↔ t.lower ∉ (known ++ pre).map LooseText.lower := by
      rw [IsFirst, List.take_left, List.map_append, List.mem_append, not_or]
    rw [fresh_cons, List.zipIdx_cons, List.filter_cons]
    by_cases h : t.lower ∈ (known ++ pre).map LooseText.lower
    · rw [if_pos h, if_neg (by rw [decide_eq_true_eq, hfirst]; exact not_not_intro h), ← htail, hseen]
      refine fresh_congr fun x => ?_
      rw [List.mem_append, List.mem_singleton, or_iff_left_of_imp]
      rintro rfl
      exact h
    · rw [if_neg h, if_pos (by rw [decide_eq_true_eq, hfirst]; exact h), List.map_cons, ← htail, hseen]
      refine congrArg (t :: ·) (fresh_congr fun x => ?_)
      rw [List.mem_append, List.mem_singleton, List.mem_cons, or_comm]

theorem fresh_eq_firsts (known ts : List LooseText) : fresh (known.map LooseText.lower) ts = firsts known ts := by
  simpa [firsts] using fresh_eq_filter known [] ts

example : firsts [.ofText "say".toList] (["SAY", "go", "face", "Go"].map fun t => .ofText t.toList) =
    [.ofText "go".toList, .ofText "face".toList] := by
  decide +kernel

/-! ## Extended tables -/

theorem eq_of_tokens {t u : Table} (htokens : ∀ c, t.tokens c = u.tokens c) (hsource : t.source = u.source) :
    t = u := by
  obtain ⟨tokens, source, sound⟩ := t
  obtain ⟨tokens', source', sound'⟩ := u
  obtain rfl : tokens = tokens' := funext htokens
  obtain rfl : source = source' := hsource
  rfl

theorem ofTokens_tokens (t : Table) : Entries.ofTokens t.tokens = fun c => (t.texts c).map .string := by
  simp only [texts, List.map_map, Function.comp_def]
  rfl

theorem texts_inj {t u : Table} {c : Category} : t.texts c = u.texts c ↔ t.tokens c = u.tokens c :=
  List.map_inj_right fun _ _ => LooseText.ofText_inj.mp

/-- A table with these tokens is built just if there is one. -/
theorem ofEntries_string_iff {texts : Category → List LooseText} {source : Option String} {u : Table} :
    ofEntries (fun c => (texts c).map .string) source = .ok u ↔ u.texts = texts ∧ u.source = source := by
  have htexts : ∀ v : Table, Entries.ofTokens v.tokens = (fun c => (texts c).map .string) ↔ v.texts = texts := by
    intro v
    rw [ofTokens_tokens, funext_iff, funext_iff]
    exact forall_congr' fun c => List.map_inj_right fun _ _ => Value.string.inj
  constructor
  · intro h
    obtain ⟨htokens, hsource⟩ := ofTokens_of_ofEntries h
    exact ⟨(htexts u).mp htokens, hsource⟩
  · rintro ⟨hu, rfl⟩
    rw [← (htexts u).mpr hu]
    obtain ⟨v, hv⟩ := (@exists_ofEntries_iff _ u.source).mpr u.sound_ofTokens
    obtain ⟨htokens, hsource⟩ := ofTokens_of_ofEntries hv
    have hvu : v.texts = u.texts := ((htexts v).mp (htokens.trans ((htexts u).mpr hu))).trans hu.symm
    rw [hv, eq_of_tokens (fun c => texts_inj.mp (congrFun hvu c)) hsource]

theorem sortedNames_eq_nil_iff {ns : List String} : sortedNames ns = [] ↔ ns = [] := by
  constructor
  · intro h
    rw [List.eq_nil_iff_forall_not_mem]
    intro n hn
    have hm : n ∈ sortedNames ns := List.mem_eraseDups.mpr (List.mem_mergeSort.mpr hn)
    rw [h] at hm
    cases hm
  · rintro rfl
    simp [sortedNames]

/-- The name of a category. -/
def IsCategory (n : String) : Prop := ∃ c : Category, c.name = n

theorem isSome_ofName?_iff {n : String} : (Category.ofName? n).isSome = true ↔ IsCategory n := by
  constructor
  · intro h
    obtain ⟨c, hc⟩ := Option.isSome_iff_exists.mp h
    exact ⟨c, by simpa using List.find?_some hc⟩
  · rintro ⟨c, rfl⟩
    rw [Category.ofName?_name]
    rfl

variable {t u : Table} {a b : Extension}

/-- A table takes an extension just if all names in it are those of categories and there is a table that holds its own
tokens and behind them the new ones; this is what it becomes. -/
theorem extend_eq_ok_iff : t.extend a = .ok u ↔ (∀ n ∈ a.names, IsCategory n) ∧
    (∀ c, u.texts c = t.texts c ++ fresh ((t.texts c).map LooseText.lower) (a.under c.name)) ∧ u.source = t.source := by
  have hnames : sortedNames ((a.map (·.1)).filter fun n => (Category.ofName? n).isNone) = [] ↔
      ∀ n ∈ a.names, IsCategory n := by
    rw [sortedNames_eq_nil_iff, List.filter_eq_nil_iff]
    simp only [← Option.not_isSome, Bool.not_eq_true, Bool.not_eq_false', isSome_ofName?_iff]
    rfl
  rw [extend, ← hnames]
  split
  · next h =>
    rw [h, ofEntries_string_iff, funext_iff]
    simp only [true_and]
    rfl
  · next hne =>
    refine iff_of_false (by simp) ?_
    rintro ⟨h, -⟩
    exact hne h

/-- A table that takes two extensions one after the other holds their tokens in a row. -/
theorem exists_extend_iff : (∃ v, t.extend a = .ok v ∧ v.extend b = .ok u) ↔ t.extend (a.merge b) = .ok u := by
  have hnames : (∀ n ∈ (a.merge b).names, IsCategory n) ↔
      (∀ n ∈ a.names, IsCategory n) ∧ ∀ n ∈ b.names, IsCategory n := by
    simp only [Extension.mem_names_merge, or_imp, forall_and]
  simp only [extend_eq_ok_iff, hnames, Extension.under_merge, fresh_append]
  constructor
  · rintro ⟨v, ⟨ha, hv, hvs⟩, hb, hu, hus⟩
    refine ⟨⟨ha, hb⟩, fun c => ?_, hus.trans hvs⟩
    rw [hu, hv, List.map_append, List.append_assoc]
  · rintro ⟨⟨ha, hb⟩, hu, hus⟩
    -- the table in between holds a part of the tokens of the last one
    let texts c := t.texts c ++ fresh ((t.texts c).map LooseText.lower) (a.under c.name)
    have hsound : Entries.Sound fun c => (texts c).map .string := by
      have husound := u.sound_ofTokens
      rw [ofTokens_tokens] at husound
      refine husound.sublist fun c => List.Sublist.map _ ?_
      rw [hu, ← List.append_assoc]
      exact List.sublist_append_left _ _
    obtain ⟨v, hv⟩ := (@exists_ofEntries_iff _ t.source).mpr hsound
    obtain ⟨hv, hvs⟩ := ofEntries_string_iff.mp hv
    refine ⟨v, ⟨ha, congrFun hv, hvs⟩, hb, fun c => ?_, hus.trans hvs.symm⟩
    rw [hu, hv, List.map_append, List.append_assoc]

/-- An extension that was taken adds nothing when it comes again. -/
theorem extend_again (h : t.extend a = .ok u) : u.extend a = .ok u := by
  obtain ⟨ha, hu, hus⟩ := extend_eq_ok_iff.mp h
  refine extend_eq_ok_iff.mpr ⟨ha, fun c => ?_, rfl⟩
  have hnone : fresh ((u.texts c).map LooseText.lower) (a.under c.name) = [] := by
    refine fresh_eq_nil fun token htoken => ?_
    rw [hu, List.map_append]
    exact lower_mem_of_mem htoken
  rw [hnone, List.append_nil]

/-- Two extensions one after the other are taken just when both at once are, and then make the same table. An extension
that was taken adds nothing when it comes again. A table takes an extension just if its names are those of categories
and there is a table which holds, in every category, its own tokens in their order and behind them the first occurrences
of the tokens that it does not have; that table is what it becomes. -/
theorem extend_composes (t : Table) (a b : Extension) :
    (∀ u, (t.extend a >>= fun v => v.extend b) = .ok u ↔ t.extend (a.merge b) = .ok u) ∧
    (∀ u, t.extend a = .ok u → u.extend a = .ok u) ∧
    ∀ u, t.extend a = .ok u ↔ (∀ n ∈ a.names, IsCategory n) ∧
      (∀ c, u.texts c = t.texts c ++ firsts (t.texts c) (a.under c.name)) ∧ u.source = t.source := by
  refine ⟨fun u => ?_, fun u => extend_again, fun u => ?_⟩
  · rw [bind_eq_ok_iff, exists_extend_iff]
  · simp only [extend_eq_ok_iff, fresh_eq_firsts]

end Table
end ScriptCase
