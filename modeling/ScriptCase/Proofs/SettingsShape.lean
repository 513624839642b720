import ScriptCase.Proofs.Extensions
import ScriptCase.Proofs.SettingsFailures

/-!
# The shape of settings

`Settings.HasShape` says, without the order in which things are looked at, what the value of a settings file must look
like: which sections are tables, which settings are strings or lists, and that further keywords stand under the names of
categories. `Settings.ofValue_settles_iff_shape` says that this is what decides between settings and an issue of the
configuration, as long as no mishap of `Settings.FieldsEscape` comes in between.

Every step of the reader either goes on, objects, or meets with a mishap. A step that does not object (`Passes`) has
been given something of the right shape, and a value of the right shape meets with no objection
(`Settings.passes_ofValue`). Settings that were read have suffixes with a dot and a keyword table that is found from
anywhere, and no keyword table refuses their keywords for the name of a category (`Settings.table_ne_unknown`).
-/

namespace ScriptCase

open Text

namespace Value

/-- The value is a table. -/
def IsTable (v : Value) : Prop := ∃ fields, v = .table fields

/-- The value is a string. -/
def IsString (v : Value) : Prop := ∃ t, v = .string t

/-- The value is a string or a list. -/
def IsStrings (v : Value) : Prop := v.IsString ∨ ∃ items, v = .array items

/-- A setting that may be left out or null is as it should be otherwise. -/
def Optionally (P : Value → Prop) (key : String) (fields : List (LooseText × Value)) : Prop :=
  ∀ v, lookup? key fields = some v → v = .null ∨ P v

/-- The fields of a section; it has none if it is no table. -/
def sectionIn (key : String) (fields : List (LooseText × Value)) : List (LooseText × Value) :=
  match lookup? key fields with
  | some (.table section') => section'
  | _ => []

theorem optionally_iff {P : Value → Prop} {key : String} {fields : List (LooseText × Value)} (hnull : ¬P .null) :
    Optionally P key fields ↔ ∀ v, setting? key fields = some v → P v := by
  rw [Optionally, setting?]
  rcases lookup? key fields with _ | v
  · simp
  · cases v <;> simp [hnull]

end Value

namespace Settings

open Value

/-- The name of a category. -/
def NamesCategory (name : LooseText) : Prop := ∃ c : Category, name = .ofText c.name.toList

/-- The fields of a settings file have the right shape. -/
structure WellShaped (fields : List (LooseText × Value)) : Prop where
  format : Optionally IsTable "format" fields
  keywordTable : Optionally IsString "keyword_table" (sectionIn "format" fields)
  extensions : Optionally IsStrings "extensions" (sectionIn "format" fields)
  keywords : Optionally IsTable "keywords" fields
  extend : Optionally IsTable "extend" (sectionIn "keywords" fields)
  listed : ∀ k v, (k, v) ∈ sectionIn "extend" (sectionIn "keywords" fields) → NamesCategory k ∧ v.IsStrings

/-- The value of a settings file has the right shape. -/
def HasShape (v : Value) : Prop := ∃ fields, v = .table fields ∧ WellShaped fields

/-! ## Steps that do not object -/

/-- The step goes on or meets with a mishap. -/
def Passes {α : Type} (x : Except SettingsFault α) : Prop := ∀ f, x = .error f → ∃ m, f = .mishap m

section Passes

variable {α β : Type} {x : Except SettingsFault α} {f : α → Except SettingsFault β}

theorem passes_ok (a : α) : Passes (.ok a) := by
  rintro f ⟨⟩

theorem Passes.bind (h : Passes x) (hf : ∀ a, x = .ok a → Passes (f a)) : Passes (x >>= f) := by
  intro e he
  rcases bind_eq_error_iff.mp he with he | ⟨a, ha, he⟩
  · exact h e he
  · exact hf a ha e he

theorem passes_map_iff {g : α → β} : Passes (x.map g) ↔ Passes x := by
  cases x <;> simp [Passes, Except.map]

end Passes

variable {root source : Path} {fields : List (LooseText × Value)} {label key : String} {s : Settings} {v : Value}

theorem fieldsOf_eq_ok_iff {found : List (LooseText × Value)} :
    fieldsOf label (setting? key fields) = .ok found ↔
      Optionally IsTable key fields ∧ sectionIn key fields = found := by
  rw [Optionally, setting?, sectionIn]
  rcases lookup? key fields with _ | v
  · simp [fieldsOf]
  · cases v <;> simp [fieldsOf, IsTable]

theorem passes_fieldsOf_iff : Passes (fieldsOf label (setting? key fields)) ↔ Optionally IsTable key fields := by
  rw [Optionally, setting?]
  rcases lookup? key fields with _ | v
  · simp [fieldsOf, Passes]
  · cases v <;> simp [fieldsOf, IsTable, Passes]

theorem passes_strings_iff : Passes (strings label v) ↔ v.IsStrings := by
  cases v with
  | array items =>
    rw [strings]
    split <;> simp [Passes, IsStrings]
  | _ => simp [strings, Passes, IsStrings, IsString]

theorem passes_extensionList_iff :
    Passes (extensionList (setting? key fields)) ↔ Optionally IsStrings key fields := by
  rw [optionally_iff (by simp [IsStrings, IsString])]
  cases setting? key fields with
  | none => simp [extensionList, Passes]
  | some v => simp [extensionList, passes_map_iff, passes_strings_iff]

theorem passes_tablePath_iff : Passes (tablePath root (setting? key fields)) ↔ Optionally IsString key fields := by
  rw [optionally_iff (by simp [IsString])]
  rcases setting? key fields with _ | v
  · simp [tablePath, Passes]
  · cases v with
    | string t =>
      simp only [Option.some.injEq, forall_eq', IsString, Value.string.injEq, exists_eq', iff_true]
      cases t with
      | nil => exact passes_ok none
      | cons c cs =>
        rw [tablePath.eq_def]
        dsimp only
        split
        · exact passes_ok _
        · rw [passes_map_iff]
          intro f hf
          obtain ⟨m, -, rfl⟩ := mapError_eq_error_iff.mp hf
          exact ⟨m, rfl⟩
    | _ => simp [tablePath, Passes, IsString]

theorem isSome_categoryNamed?_iff {name : LooseText} : (categoryNamed? name).isSome = true ↔ NamesCategory name := by
  rw [categoryNamed?, Option.isSome_bind, Option.any_eq_true]
  simp only [LooseText.text?_eq_some_iff, Table.isSome_ofName?_iff, Table.IsCategory, NamesCategory]
  constructor
  · rintro ⟨n, rfl, c, hc⟩
    exact ⟨c, by simp [hc]⟩
  · rintro ⟨c, rfl⟩
    exact ⟨_, rfl, c, by simp⟩

/-- Further keywords of the right shape meet with no objection. -/
theorem passes_extraList (h : ∀ k v, (k, v) ∈ fields → NamesCategory k ∧ v.IsStrings) :
    Passes (extraList fields) := by
  induction fields with
  | nil => exact passes_ok []
  | cons f fs ih =>
    obtain ⟨k, v⟩ := f
    obtain ⟨hk, hv⟩ := h k v List.mem_cons_self
    obtain ⟨c, hc⟩ := Option.isSome_iff_exists.mp (isSome_categoryNamed?_iff.mpr hk)
    rw [extraList, hc]
    refine (passes_strings_iff.mpr hv).bind fun tokens _ => ?_
    exact (ih fun k v hm => h k v (List.mem_cons_of_mem _ hm)).bind fun rest _ => passes_ok _

/-- Further keywords that were read have the right shape. -/
theorem shape_of_extraList {extra : List (Category × List LooseText)} (h : extraList fields = .ok extra) :
    ∀ k v, (k, v) ∈ fields → NamesCategory k ∧ v.IsStrings := by
  induction fields generalizing extra with
  | nil => simp
  | cons f fs ih =>
    obtain ⟨k, v⟩ := f
    obtain ⟨c, hc, ⟨tokens, hv⟩, rest, hrest⟩ := exists_extraList_cons_iff.mp ⟨extra, h⟩
    intro k' v' hm
    rcases List.mem_cons.mp hm with he | hm
    · obtain ⟨rfl, rfl⟩ := Prod.mk.inj he
      have hpasses : Passes (strings ("keywords.extend." ++ c.name) v') := hv ▸ passes_ok tokens
      exact ⟨isSome_categoryNamed?_iff.mp (by simp [hc]), passes_strings_iff.mp hpasses⟩
    · exact ih hrest k' v' hm

/-! ## The value of the file -/

/-- A value of the right shape meets with no objection. -/
theorem passes_ofValue (h : HasShape v) : Passes (ofValue root source v) := by
  obtain ⟨fields, rfl, h⟩ := h
  rw [ofValue]
  refine (passes_fieldsOf_iff.mpr h.format).bind fun format hformat => ?_
  obtain ⟨-, rfl⟩ := fieldsOf_eq_ok_iff.mp hformat
  refine (passes_tablePath_iff.mpr h.keywordTable).bind fun table _ => ?_
  refine (passes_extensionList_iff.mpr h.extensions).bind fun exts _ => ?_
  refine (passes_fieldsOf_iff.mpr h.keywords).bind fun keywords hkeywords => ?_
  obtain ⟨-, rfl⟩ := fieldsOf_eq_ok_iff.mp hkeywords
  refine (passes_fieldsOf_iff.mpr h.extend).bind fun extend hextend => ?_
  obtain ⟨-, rfl⟩ := fieldsOf_eq_ok_iff.mp hextend
  exact (passes_extraList h.listed).bind fun extra _ => passes_ok _

/-- What the settings of a file were read from. -/
theorem exists_of_ofValue (h : ofValue root source v = .ok s) : ∃ fields, v = .table fields ∧ WellShaped fields ∧
    tablePath root (setting? "keyword_table" (sectionIn "format" fields)) = .ok s.keywordTable ∧
    extensionList (setting? "extensions" (sectionIn "format" fields)) = .ok s.extensions := by
  cases v with
  | table fields =>
    simp only [ofValue, bind_eq_ok_iff, fieldsOf_eq_ok_iff] at h
    obtain ⟨_, ⟨hformat, rfl⟩, table, htable, exts, hexts, _, ⟨hkeywords, rfl⟩, _, ⟨hextend, rfl⟩, extra, hextra, h⟩ :=
      h
    obtain rfl := Except.ok.inj h
    refine ⟨fields, rfl, ?_, htable, hexts⟩
    exact {
      format := hformat
      keywordTable := passes_tablePath_iff.mp (by rw [htable]; exact passes_ok table)
      extensions := passes_extensionList_iff.mp (by rw [hexts]; exact passes_ok exts)
      keywords := hkeywords
      extend := hextend
      listed := shape_of_extraList hextra }
  | _ => cases h

/-- The path of a keyword table that was read is absolute. -/
theorem isAbsolute_of_tablePath {o : Option Value} {p : LoosePath} (h : tablePath root o = .ok (some p)) :
    p.isAbsolute = true := by
  rw [tablePath.eq_def] at h
  split at h
  · cases h
  · cases h
  · dsimp only at h
    split at h
    · next habs =>
      obtain rfl := Option.some.inj (Except.ok.inj h)
      exact habs
    · obtain ⟨q, hq, hp⟩ := map_eq_ok_iff.mp h
      obtain rfl := Option.some.inj hp
      obtain ⟨names, -, rfl⟩ := map_eq_ok_iff.mp (mapError_eq_ok_iff.mp hq)
      rfl
  · cases h

/-- Suffixes that were read begin with a dot. -/
theorem dot_of_extensionList {o : Option Value} {exts : List LooseText} (h : extensionList o = .ok exts)
    {e : LooseText} (he : e ∈ exts) : ∃ tail, e = .char '.' :: tail := by
  rw [extensionList.eq_def] at h
  split at h
  · obtain rfl := Except.ok.inj h
    obtain rfl := List.mem_singleton.mp he
    exact ⟨_, rfl⟩
  · obtain ⟨ts, -, rfl⟩ := map_eq_ok_iff.mp h
    obtain ⟨t, -, rfl⟩ := List.mem_map.mp he
    rw [withDot]
    split
    · next hdot => exact ⟨_, (List.eq_cons_of_mem_head? hdot)⟩
    · exact ⟨t, rfl⟩

end Settings

/-! ## Keywords under the names of categories -/

/-- The issue that there are no categories of some names. -/
def TableFault.IsUnknown (i : Issue) : Prop := ∃ names path, i = (unknownCategories names).issue path

theorem TableFault.not_isUnknown_issue {f : TableFault} (h : ∀ names, f ≠ .unknownCategories names)
    (path : Option String) : ¬IsUnknown (f.issue path) := by
  rintro ⟨names, path', he⟩
  have hhint : f.hint? = some ("Valid categories are: " ++ Category.listing) := congrArg Issue.hint he
  cases f with
  | unknownCategories names => exact h names rfl
  | invalidToken c entry => exact absurd (Option.some.inj hhint) (by decide)
  | overlap tokens => exact absurd (Option.some.inj hhint) (by decide)
  | _ => cases hhint

namespace Entries

theorem categoryFault?_ne_unknown {c : Category} {seen : List Text} {vs : List Value} {names : List String} :
    categoryFault? c seen vs ≠ some (.unknownCategories names) := by
  induction vs generalizing seen with
  | nil => simp [categoryFault?]
  | cons v vs ih =>
    rw [categoryFault?]
    split
    · simp
    · split
      · simp
      · exact ih

theorem fault?_ne_unknown {e : Entries} {names : List String} : e.fault? ≠ some (.unknownCategories names) := by
  rw [fault?]
  split
  · next f hf =>
    obtain ⟨c, -, hc⟩ := List.exists_of_findSome?_eq_some hf
    intro h
    rw [h] at hc
    exact categoryFault?_ne_unknown hc
  · split <;> simp

end Entries

namespace Table

variable {tree : Tree} {i : Issue} {names : List String}

theorem extend_ne_unknown {t : Table} {a : Extension} (h : ∀ n ∈ a.names, IsCategory n) :
    t.extend a ≠ .error (.unknownCategories names) := by
  have hnone : (a.map (·.1)).filter (fun n => (Category.ofName? n).isNone) = [] := by
    rw [List.filter_eq_nil_iff]
    intro n hn
    rw [← Option.not_isSome, isSome_ofName?_iff.mpr (h n hn)]
    simp
  rw [extend, sortedNames_eq_nil_iff.mpr hnone]
  intro he
  exact Entries.fault?_ne_unknown (ofEntries_eq_error_iff.mp he)

theorem ofDocument_ne_unknown {document : List (LooseText × Value)} {source : Option String} :
    ofDocument document source ≠ .error (.unknownCategories names) := by
  have hentries : ∀ fields c, entriesIn fields c ≠ .error (.unknownCategories names) := by
    intro fields c
    rcases entriesIn_eq fields c with ⟨-, h⟩ | ⟨-, h⟩ <;> simp [h]
  rw [ofDocument]
  split
  · intro h
    rcases bind_eq_error_iff.mp h with h | ⟨_, -, h⟩
    · exact hentries _ _ h
    rcases bind_eq_error_iff.mp h with h | ⟨_, -, h⟩
    · exact hentries _ _ h
    rcases bind_eq_error_iff.mp h with h | ⟨_, -, h⟩
    · exact hentries _ _ h
    rcases bind_eq_error_iff.mp h with h | ⟨_, -, h⟩
    · exact hentries _ _ h
    · exact Entries.fault?_ne_unknown (ofEntries_eq_error_iff.mp h)
  · rintro ⟨⟩

theorem not_isUnknown_of_failure {f : TableFault} {source : Option String} (hf : ∀ names, f ≠ .unknownCategories names)
    (h : failure source f = .issue i) : ¬TableFault.IsUnknown i := by
  rcases failure_cases source f with ⟨hi, -⟩ | ⟨hm, -⟩
  · obtain rfl := Failure.issue.inj (hi.symm.trans h)
    exact TableFault.not_isUnknown_issue hf source
  · cases hm.symm.trans h

theorem not_isUnknown_of_contentAt {path : LoosePath} (h : contentAt tree path = .error (.issue i)) :
    ¬TableFault.IsUnknown i := by
  rw [contentAt] at h
  split at h
  · cases h
  · obtain ⟨f, -, hi⟩ := mapError_eq_error_iff.mp h
    exact not_isUnknown_of_failure (by simp) hi

theorem not_isUnknown_of_ofText {content : Text} {path : String} (h : ofText content path = .error (.issue i)) :
    ¬TableFault.IsUnknown i := by
  rw [ofText] at h
  split at h
  · exact not_isUnknown_of_failure (by simp) (Except.error.inj h)
  · cases h
  · obtain ⟨f, hf, hi⟩ := mapError_eq_error_iff.mp h
    refine not_isUnknown_of_failure (fun names hn => ?_) hi
    exact ofDocument_ne_unknown (hn ▸ hf)

/-- Loading a table never ends with the issue about the names of categories. -/
theorem not_isUnknown_of_load {p : Option LoosePath} (h : (load tree p).collect.1 = .error (.issue i)) :
    ¬TableFault.IsUnknown i := by
  cases p with
  | none => cases h
  | some path =>
    rw [load, loadFrom] at h
    rcases hc : contentAt tree path with f | content
    · rw [hc] at h
      obtain rfl : f = .issue i := Except.error.inj h
      exact not_isUnknown_of_contentAt hc
    · rw [hc] at h
      rcases hd : Utf8.decode content with f | text
      · simp only [hd] at h
        cases h
      · simp only [hd] at h
        rcases ht : ofText text path.shown.text with f | t
        · simp only [ht] at h
          obtain rfl : f = .issue i := Except.error.inj h
          exact not_isUnknown_of_ofText ht
        · simp only [ht] at h
          cases h

end Table

namespace Settings

variable {root source : Path} {s : Settings} {v : Value}

/-- The keyword table of settings is one that was loaded and then extended. -/
theorem fst_collect_table (s : Settings) (tree : Tree) (override : Option Path) :
    (s.table tree override).collect.1 =
      (Table.load tree (s.tableAt override)).collect.1 >>= fun t =>
        if s.extraKeywords.isEmpty then .ok t
        else
          (t.extend (s.extraKeywords.map fun (c, ts) => (c.name, ts))).mapError fun f => .issue (f.issue t.source) := by
  rw [table]
  simp only [Logged.collect, ExceptT.run_bind, StateT.run_bind]
  rcases (Table.load tree (s.tableAt override)).run.run [] with ⟨f | t, log⟩
  · rfl
  · simp only [bind, Except.bind]
    split
    · rfl
    · generalize t.extend _ = extended
      rcases extended with f | u <;> rfl

/-- No keyword table refuses the further keywords of settings for the name of a category. -/
theorem not_isUnknown_of_table {tree : Tree} {override : Option Path} {i : Issue}
    (h : (s.table tree override).collect.1 = .error (.issue i)) : ¬TableFault.IsUnknown i := by
  rw [fst_collect_table, bind_eq_error_iff] at h
  rcases h with h | ⟨t, -, h⟩
  · exact Table.not_isUnknown_of_load h
  · split at h
    · cases h
    · obtain ⟨f, hf, hi⟩ := mapError_eq_error_iff.mp h
      obtain rfl := Failure.issue.inj hi
      refine TableFault.not_isUnknown_issue (fun names hn => ?_) _
      refine Table.extend_ne_unknown (fun n hn => ?_) (hn ▸ hf)
      obtain ⟨⟨c, ts⟩, -, rfl⟩ : ∃ x ∈ s.extraKeywords, x.1.name = n := by
        simpa [Extension.names, and_assoc] using hn
      exact ⟨c, rfl⟩

/-- A mishap with the value of a settings file. -/
def ValueEscapes (root : Path) (v : Value) (m : Mishap) : Prop :=
  ∃ fields, v = .table fields ∧ FieldsEscape root fields m

/-- The value of a settings file is read into settings just if it has the right shape, and is an issue of the
configuration otherwise, unless one of the mishaps that are listed in `FieldsEscape` comes first. Of settings that were
read, every suffix begins with a dot, the path of the keyword table is absolute, and no keyword table refuses the
further keywords for the name of a category. -/
theorem ofValue_settles_iff_shape (root source : Path) (v : Value) :
    let result := (ofValue root source v).mapError (SettingsFault.failure source)
    (∀ m, result = .error (.mishap m) ↔ ValueEscapes root v m) ∧
    ((∃ s, result = .ok s) ↔ HasShape v ∧ ∀ m, ¬ValueEscapes root v m) ∧
    ((∃ i, result = .error (.issue i)) ↔ ¬HasShape v ∧ ∀ m, ¬ValueEscapes root v m) ∧
    (∀ i, result = .error (.issue i) → i.kind = .configuration ∧ i.location.path = some source.text) ∧
    ∀ s, result = .ok s → (∀ e ∈ s.extensions, ∃ tail, e = .char '.' :: tail) ∧
      (∀ p, s.keywordTable = some p → p.isAbsolute = true) ∧
      ∀ tree override i, (s.table tree override).collect.1 = .error (.issue i) → ¬TableFault.IsUnknown i := by
  intro result
  have hmishap : ∀ m, result = .error (.mishap m) ↔ ValueEscapes root v m := by
    intro m
    have hvalue : ofValue root source v = .error (.mishap m) ↔ ValueEscapes root v m := ofValue_eq_mishap_iff
    rw [← hvalue, mapError_eq_error_iff]
    simp only [failure_eq_mishap_iff, exists_eq_right]
  have hok : ∀ s, result = .ok s → ofValue root source v = .ok s := fun s => mapError_eq_ok_iff.mp
  have hshape : ∀ s, result = .ok s → HasShape v := by
    intro s hs
    obtain ⟨fields, rfl, h, -⟩ := exists_of_ofValue (hok s hs)
    exact ⟨fields, rfl, h⟩
  have hissue : ∀ i, result = .error (.issue i) → ¬HasShape v := by
    intro i hi h
    obtain ⟨f, hf, hfi⟩ := mapError_eq_error_iff.mp hi
    obtain ⟨m, rfl⟩ := passes_ofValue h f hf
    cases hfi
  refine ⟨hmishap, ?_, ?_, ?_, ?_⟩
  · simp only [← hmishap]
    rcases hr : result with (i | m) | s
    · simp [hissue i hr]
    · simp
    · simp [hshape s hr]
  · simp only [← hmishap]
    rcases hr : result with (i | m) | s
    · simp [hissue i hr]
    · simp
    · simp [hshape s hr]
  · intro i hi
    obtain ⟨f, -, hf⟩ := mapError_eq_error_iff.mp hi
    exact issue_of_failure hf
  · intro s hs
    obtain ⟨fields, -, -, htable, hexts⟩ := exists_of_ofValue (hok s hs)
    refine ⟨fun e => dot_of_extensionList hexts, fun p hp => ?_, fun tree override i => not_isUnknown_of_table⟩
    exact isAbsolute_of_tablePath (hp ▸ htable)

/-- The suffixes of scripts are a list with the number 16 ^ 3573 of 4303 digits in it: the value has the right shape,
but it is read neither into settings nor into an issue. -/
theorem ofValue_unshown :
    let v : Value := .table [("format".toList, .table [("extensions".toList, .array [.int (16 ^ 3573)])])]
    HasShape v ∧ ∀ root source, ofValue root source v = .error (.mishap (.excess .unshownNumber)) := by
  intro v
  have hlong : (Value.int (16 ^ 3573)).isShowable = false := by decide +kernel
  refine ⟨⟨_, rfl, ?_⟩, fun root source => ofValue_eq_mishap_iff.mpr ⟨_, rfl, ?_⟩⟩
  · exact {
      format := fun w hw => .inr ⟨_, (Option.some.inj hw).symm⟩
      keywordTable := by rintro w ⟨⟩
      extensions := fun w hw => .inr (.inr ⟨_, (Option.some.inj hw).symm⟩)
      keywords := by rintro w ⟨⟩
      extend := by rintro w ⟨⟩
      listed := by rintro k w ⟨⟩ }
  · have htable : tablePath root none = .ok none := rfl
    exact .extensions rfl htable rfl ⟨_, rfl, _, List.mem_singleton_self _, hlong⟩

end Settings
end ScriptCase
