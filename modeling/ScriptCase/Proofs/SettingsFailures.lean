import ScriptCase.Command.Run
import ScriptCase.Editor.Workspace
import ScriptCase.Proofs.CommandLine
import ScriptCase.Proofs.LoosePaths

/-!
# How loading settings fails

Settings that cannot be loaded should be an issue of the configuration, which the command line and the editor both tell
their users. `Settings.Escapes` lists the mishaps that come instead: a root or a file name that no disk can have, a
settings file that is not UTF-8, a document that its reader gives up on, and inside a document a keyword table at an
impossible path or a number too long to be shown. Loading ends with such a mishap in just these cases
(`Settings.load_eq_mishap_iff`), and with an issue about a file that was looked for in all others that fail
(`Settings.issue_of_load`). `Settings.settles_iff_not_escapes` adds what becomes of the two kinds of failures: an issue
is told, a mishap ends the command line and the operation of the editor.
-/

namespace ScriptCase

/-- Looking at a path fails for one reason only. -/
theorem Tree.eq_nameTooLong_of_look {tree : Tree} {p : Path} {f : FileFault} (h : tree.look p = .error f) :
    f = .nameTooLong := by
  rw [look] at h
  split at h <;> cases h
  rfl

namespace Settings

/-! ## The file that is found -/

/-- The files that may hold the settings, in the order in which they are looked for. -/
def candidates (root : Path) : Option Path → List Path
  | some p => [p]
  | none => fileNames.map fun n => root.join ⟨0, [n]⟩

/-- The path is one of those looked for, and nothing stands at those before it. -/
def Reached (tree : Tree) (ps : List Path) (p : Path) : Prop :=
  ∃ before after, ps = before ++ p :: after ∧ ∀ q ∈ before, tree.look q = .ok none

variable {tree : Tree} {root path p q : Path} {explicit : Option Path} {ps : List Path} {m : Mishap}

theorem reached_cons : Reached tree (q :: ps) p ↔ p = q ∨ (tree.look q = .ok none ∧ Reached tree ps p) := by
  constructor
  · rintro ⟨_ | ⟨q', before⟩, after, hps, hbefore⟩
    · exact .inl (List.cons.inj hps).1.symm
    · obtain ⟨rfl, rfl⟩ := List.cons.inj hps
      obtain ⟨hq, hbefore⟩ := List.forall_mem_cons.mp hbefore
      exact .inr ⟨hq, before, after, rfl, hbefore⟩
  · rintro (rfl | ⟨hq, before, after, rfl, hbefore⟩)
    · exact ⟨[], ps, rfl, by simp⟩
    · exact ⟨q :: before, after, rfl, List.forall_mem_cons.mpr ⟨hq, hbefore⟩⟩

theorem Reached.mem (h : Reached tree ps p) : p ∈ ps := by
  obtain ⟨before, after, rfl, -⟩ := h
  exact List.mem_append_right _ List.mem_cons_self

theorem firstThere_cons (tree : Tree) (q : Path) (ps : List Path) :
    firstThere tree (q :: ps) = match tree.look q with
      | .error f => .error (.unreachable f q)
      | .ok none => firstThere tree ps
      | .ok (some _) => .ok (some q) := by
  rw [firstThere, isThere]
  rcases tree.look q with f | _ | n <;> rfl

theorem firstThere_eq_some_iff :
    firstThere tree ps = .ok (some p) ↔ Reached tree ps p ∧ ∃ n, tree.look p = .ok (some n) := by
  induction ps with
  | nil => simp [firstThere, Reached]
  | cons q ps ih =>
    rw [firstThere_cons, reached_cons]
    rcases hq : tree.look q with f | _ | n
    · simp only [reduceCtorEq, false_and, or_false, false_iff]
      rintro ⟨rfl, n, hn⟩
      cases hq.symm.trans hn
    · simp only [true_and, ih]
      refine ⟨fun h => ⟨.inr h.1, h.2⟩, ?_⟩
      rintro ⟨rfl | h, n, hn⟩
      · cases hq.symm.trans hn
      · exact ⟨h, n, hn⟩
    · simp only [Except.ok.injEq, reduceCtorEq, false_and, or_false, Option.some.injEq]
      refine ⟨?_, fun h => h.1.symm⟩
      rintro rfl
      exact ⟨rfl, n, hq⟩

theorem firstThere_eq_error_iff :
    firstThere tree ps = .error m ↔
      ∃ p, m = .unreachable .nameTooLong p ∧ Reached tree ps p ∧ tree.look p = .error .nameTooLong := by
  induction ps with
  | nil => simp [firstThere, Reached]
  | cons q ps ih =>
    simp only [firstThere_cons, reached_cons]
    rcases hq : tree.look q with f | _ | n
    · obtain rfl := Tree.eq_nameTooLong_of_look hq
      simp only [reduceCtorEq, false_and, or_false, Except.error.injEq]
      refine ⟨fun h => ⟨q, h.symm, rfl, hq⟩, ?_⟩
      rintro ⟨p, rfl, rfl, -⟩
      rfl
    · simp only [true_and, ih]
      refine exists_congr fun p => and_congr_right fun _ => ⟨fun h => ⟨.inr h.1, h.2⟩, ?_⟩
      rintro ⟨rfl | h, hp⟩
      · cases hq.symm.trans hp
      · exact ⟨h, hp⟩
    · simp only [Except.ok.injEq, reduceCtorEq, false_and, or_false, false_iff]
      rintro ⟨p, -, rfl, hp⟩
      cases hq.symm.trans hp

theorem locate?_eq : locate? tree root explicit = firstThere tree (candidates root explicit) := by
  cases explicit <;> rfl

/-! ## The value of the file -/

/-- The value is a list with a number that is too long to be shown. -/
def Unshown (v : Value) : Prop := ∃ items, v = .array items ∧ ∃ w ∈ items, w.isShowable = false

theorem strings_eq_mishap_iff {key : String} {v : Value} :
    strings key v = .error (.mishap m) ↔ m = .excess .unshownNumber ∧ Unshown v := by
  cases v with
  | array items =>
    simp only [strings, Unshown, Value.array.injEq, exists_eq_left']
    split
    · next h => simpa using fun _ => List.all_eq_true.mp h
    · next h =>
      have hw : ∃ w ∈ items, w.isShowable = false := by simpa using h
      simpa [hw] using eq_comm
  | _ => simp [strings, Unshown]

theorem extensionList_eq_mishap_iff {o : Option Value} :
    extensionList o = .error (.mishap m) ↔ m = .excess .unshownNumber ∧ ∃ v, o = some v ∧ Unshown v := by
  cases o with
  | none => simp [extensionList]
  | some v => simp [extensionList, map_eq_error_iff, strings_eq_mishap_iff]

theorem fieldsOf_ne_mishap {key : String} {o : Option Value} : fieldsOf key o ≠ .error (.mishap m) := by
  rw [fieldsOf.eq_def]
  split <;> simp

theorem tablePath_eq_mishap_iff {o : Option Value} :
    tablePath root o = .error (.mishap m) ↔ ∃ t, o = some (.string t) ∧ t ≠ [] ∧
      (LoosePath.ofText t).isAbsolute = false ∧
      LoosePath.Stumbles ((LoosePath.ofPath root).join (LoosePath.ofText t)).names m := by
  rw [tablePath.eq_def]
  split
  · simp
  · simp
  · next t hne =>
    have hne : t ≠ [] := hne
    simp only [Option.some.injEq, Value.string.injEq, exists_eq_left', ne_eq, hne, not_false_eq_true, true_and]
    split
    · next h => simp [h]
    · next h =>
      rw [map_eq_error_iff, mapError_eq_error_iff]
      simp [h, LoosePath.resolve?_eq_error_iff]
  · next v hn hs =>
    refine iff_of_false (by simp) ?_
    rintro ⟨t, ht, -⟩
    exact hs t (Option.some.inj ht)

theorem exists_extraList_cons_iff {k : LooseText} {v : Value} {fs : List (LooseText × Value)} :
    (∃ ts, extraList ((k, v) :: fs) = .ok ts) ↔ ∃ c, categoryNamed? k = some c ∧
      (∃ tokens, strings ("keywords.extend." ++ c.name) v = .ok tokens) ∧ ∃ ts, extraList fs = .ok ts := by
  rw [extraList]
  cases hk : categoryNamed? k with
  | none => simp
  | some c =>
    simp only [bind_eq_ok_iff, Option.some.injEq, exists_eq_left']
    constructor
    · rintro ⟨_, tokens, hv, ts, hts, -⟩
      exact ⟨⟨tokens, hv⟩, ts, hts⟩
    · rintro ⟨⟨tokens, hv⟩, ts, hts⟩
      exact ⟨_, tokens, hv, ts, hts, rfl⟩

/-- The further keywords end with a mishap at the first category that lists a number too long to be shown. -/
theorem extraList_eq_mishap_iff {fields : List (LooseText × Value)} :
    extraList fields = .error (.mishap m) ↔ m = .excess .unshownNumber ∧ ∃ pre k v post,
      fields = pre ++ (k, v) :: post ∧ (∃ ts, extraList pre = .ok ts) ∧
        (categoryNamed? k).isSome = true ∧ Unshown v := by
  induction fields with
  | nil => simp [extraList]
  | cons f fs ih =>
    obtain ⟨k, v⟩ := f
    rw [extraList]
    cases hk : categoryNamed? k with
    | none =>
      refine iff_of_false (by simp) ?_
      rintro ⟨-, _ | ⟨f, pre⟩, k', v', post, hfs, hpre, hc, -⟩
      · obtain ⟨⟨⟩, -⟩ := List.cons.inj hfs
        simp [hk] at hc
      · obtain ⟨rfl, -⟩ := List.cons.inj hfs
        simp [exists_extraList_cons_iff, hk] at hpre
    | some c =>
      simp only [bind_eq_error_iff, strings_eq_mishap_iff, ih]
      constructor
      · rintro (⟨rfl, hv⟩ | ⟨tokens, hv, ⟨rfl, pre, k', v', post, rfl, hpre, hc, hu⟩ | ⟨_, -, h⟩⟩)
        · exact ⟨rfl, [], k, v, fs, rfl, ⟨[], rfl⟩, by simp [hk], hv⟩
        · exact ⟨rfl, (k, v) :: pre, k', v', post, rfl,
            exists_extraList_cons_iff.mpr ⟨c, hk, ⟨tokens, hv⟩, hpre⟩, hc, hu⟩
        · cases h
      · rintro ⟨rfl, _ | ⟨f, pre⟩, k', v', post, hfs, hpre, hc, hu⟩
        · obtain ⟨⟨⟩, -⟩ := List.cons.inj hfs
          exact .inl ⟨rfl, hu⟩
        · obtain ⟨rfl, rfl⟩ := List.cons.inj hfs
          obtain ⟨c', hc', ⟨tokens, hv⟩, hpre⟩ := exists_extraList_cons_iff.mp hpre
          obtain rfl := Option.some.inj (hk.symm.trans hc')
          exact .inr ⟨tokens, hv, .inl ⟨rfl, pre, k', v', post, rfl, hpre, hc, hu⟩⟩

/-- The mishaps in the fields of a settings file. Each comes only if everything checked before it is in order. -/
inductive FieldsEscape (root : Path) (fields : List (LooseText × Value)) : Mishap → Prop
  /-- The path of the keyword table is relative, and on the way along it comes a name that is that of no file. -/
  | table {format : List (LooseText × Value)} {t : LooseText} {m : Mishap}
      (hformat : fieldsOf "format" (Value.setting? "format" fields) = .ok format)
      (htable : Value.setting? "keyword_table" format = some (.string t))
      (hne : t ≠ []) (hrelative : (LoosePath.ofText t).isAbsolute = false)
      (hnames : LoosePath.Stumbles ((LoosePath.ofPath root).join (LoosePath.ofText t)).names m) :
      FieldsEscape root fields m
  /-- A number among the suffixes of scripts is too long to be shown. -/
  | extensions {format : List (LooseText × Value)} {table : Option LoosePath} {v : Value}
      (hformat : fieldsOf "format" (Value.setting? "format" fields) = .ok format)
      (htable : tablePath root (Value.setting? "keyword_table" format) = .ok table)
      (hext : Value.setting? "extensions" format = some v) (hv : Unshown v) :
      FieldsEscape root fields (.excess .unshownNumber)
  /-- A number among the further keywords is too long to be shown. -/
  | keywords {format keywords extend pre post : List (LooseText × Value)} {table : Option LoosePath}
      {exts : List LooseText} {k : LooseText} {v : Value}
      (hformat : fieldsOf "format" (Value.setting? "format" fields) = .ok format)
      (htable : tablePath root (Value.setting? "keyword_table" format) = .ok table)
      (hext : extensionList (Value.setting? "extensions" format) = .ok exts)
      (hkeywords : fieldsOf "keywords" (Value.setting? "keywords" fields) = .ok keywords)
      (hextend : fieldsOf "keywords.extend" (Value.setting? "extend" keywords) = .ok extend)
      (hsplit : extend = pre ++ (k, v) :: post) (hpre : ∃ ts, extraList pre = .ok ts)
      (hk : (categoryNamed? k).isSome = true) (hv : Unshown v) :
      FieldsEscape root fields (.excess .unshownNumber)

theorem ofValue_eq_mishap_iff {v : Value} :
    ofValue root path v = .error (.mishap m) ↔ ∃ fields, v = .table fields ∧ FieldsEscape root fields m := by
  cases v with
  | table fields =>
    simp only [ofValue, bind_eq_error_iff, fieldsOf_ne_mishap, false_or, tablePath_eq_mishap_iff,
      extensionList_eq_mishap_iff, extraList_eq_mishap_iff, Value.table.injEq, exists_eq_left']
    constructor
    · rintro ⟨format, hformat, ⟨t, htable, hne, hrelative, hnames⟩ | ⟨table, htable, ⟨rfl, v, hext, hv⟩ |
        ⟨exts, hext, keywords, hkeywords, extend, hextend, ⟨rfl, pre, k, v, post, hsplit, hpre, hk, hv⟩ | ⟨_, -, h⟩⟩⟩⟩
      · exact .table hformat htable hne hrelative hnames
      · exact .extensions hformat htable hext hv
      · exact .keywords hformat htable hext hkeywords hextend hsplit hpre hk hv
      · cases h
    · intro h
      cases h with
      | table hformat htable hne hrelative hnames => exact ⟨_, hformat, .inl ⟨_, htable, hne, hrelative, hnames⟩⟩
      | extensions hformat htable hext hv => exact ⟨_, hformat, .inr ⟨_, htable, .inl ⟨rfl, _, hext, hv⟩⟩⟩
      | keywords hformat htable hext hkeywords hextend hsplit hpre hk hv =>
        exact ⟨_, hformat, .inr ⟨_, htable, .inr ⟨_, hext, _, hkeywords, _, hextend,
          .inl ⟨rfl, _, _, _, _, hsplit, hpre, hk, hv⟩⟩⟩⟩
  | _ => simp [ofValue]

/-! ## Loading -/

theorem failure_eq_mishap_iff {f : SettingsFault} : f.failure path = .mishap m ↔ f = .mishap m := by
  cases f <;> simp [SettingsFault.failure]

theorem issue_of_failure {f : SettingsFault} {i : Issue} (h : f.failure path = .issue i) :
    i.kind = .configuration ∧ i.location.path = some path.text := by
  cases f <;> simp only [SettingsFault.failure, Failure.issue.injEq, reduceCtorEq] at h <;> exact h ▸ ⟨rfl, rfl⟩

/-- The settings file that is found, and its bytes. -/
structure Found (tree : Tree) (root : Path) (explicit : Option Path) (path : Path) (content : Bytes) : Prop where
  noNull : root.hasNull = false
  reached : Reached tree (candidates (tree.cwd.resolve root) explicit) path
  read : tree.read path = .ok content

/-- The mishaps with which loading the settings of a workspace ends. -/
inductive Escapes (tree : Tree) (root : Path) (explicit : Option Path) : Mishap → Prop
  /-- The root holds a null character. -/
  | root (h : root.hasNull = true) : Escapes tree root explicit (.unreachable .nullByte root)
  /-- The name of a file that is looked for is too long for any file. -/
  | name {p : Path} (hroot : root.hasNull = false)
      (hp : Reached tree (candidates (tree.cwd.resolve root) explicit) p)
      (hlook : tree.look p = .error .nameTooLong) : Escapes tree root explicit (.unreachable .nameTooLong p)
  /-- The settings file is not UTF-8. -/
  | encoding {path : Path} {content : Bytes} {f : DecodeFault} (hfound : Found tree root explicit path content)
      (hdecode : Utf8.decode content = .error f) : Escapes tree root explicit (.undecodable f)
  /-- The reader of the settings file gives up on it. -/
  | reader {path : Path} {content : Bytes} {text : Text} {e : Excess} (hfound : Found tree root explicit path content)
      (hdecode : Utf8.decode content = .ok text) (hparse : parse path text = .error (.excess e)) :
      Escapes tree root explicit (.excess e)
  /-- The settings file holds a table with a mishap in its fields. -/
  | fields {path : Path} {content : Bytes} {text : Text} {fields : List (LooseText × Value)} {m : Mishap}
      (hfound : Found tree root explicit path content) (hdecode : Utf8.decode content = .ok text)
      (hparse : parse path text = .ok (.table fields)) (hfields : FieldsEscape (tree.cwd.resolve root) fields m) :
      Escapes tree root explicit m

theorem documentFault_eq_mishap_iff {f : DocumentFault} :
    documentFault f = .mishap m ↔ ∃ e, f = .excess e ∧ m = .excess e := by
  cases f <;> simp [documentFault, eq_comm]

theorem readValue_eq_ok_iff {v : Value} :
    readValue tree path = .ok v ↔ ∃ content text, tree.read path = .ok content ∧ Utf8.decode content = .ok text ∧
      parse path text = .ok v := by
  rw [readValue]
  cases tree.read path with
  | error f => simp
  | ok content =>
    cases hd : Utf8.decode content with
    | error f => simp [hd]
    | ok text => simp [hd, mapError_eq_ok_iff]

theorem readValue_eq_mishap_iff :
    readValue tree path = .error (.mishap m) ↔ ∃ content, tree.read path = .ok content ∧
      ((∃ f, Utf8.decode content = .error f ∧ m = .undecodable f) ∨
        ∃ text e, Utf8.decode content = .ok text ∧ parse path text = .error (.excess e) ∧ m = .excess e) := by
  rw [readValue]
  cases tree.read path with
  | error f => simp [failure_eq_mishap_iff]
  | ok content =>
    cases hd : Utf8.decode content with
    | error f => simp [hd, eq_comm]
    | ok text => simp [hd, mapError_eq_error_iff, failure_eq_mishap_iff, documentFault_eq_mishap_iff]

/-- The settings of a file are those in its value. -/
theorem fst_collect_loadFrom (tree : Tree) (root path : Path) (explicit : Option Path) :
    (loadFrom tree root explicit (some path)).collect.1 =
      readValue tree path >>= fun v => (ofValue root path v).mapError (SettingsFault.failure path) := by
  rw [loadFrom]
  rcases readValue tree path with f | v
  · rfl
  · simp only [bind, Except.bind]
    rcases ofValue root path v with f | s <;> rfl

theorem fst_collect_load_of_null (h : root.hasNull = true) :
    (load tree root explicit).collect.1 = .error (.mishap (.unreachable .nullByte root)) := by
  rw [load, Path.resolve?, if_pos h]
  rfl

theorem fst_collect_load (h : root.hasNull = false) :
    (load tree root explicit).collect.1 =
      (firstThere tree (candidates (tree.cwd.resolve root) explicit)).mapError Failure.mishap >>= fun located =>
        (loadFrom tree (tree.cwd.resolve root) explicit located).collect.1 := by
  rw [load, Path.resolve?, if_neg (by simp [h]), ← locate?_eq]
  dsimp only
  rcases locate? tree (tree.cwd.resolve root) explicit with m | located <;> rfl

/-- A file that can be read is there. -/
theorem look_of_read {content : Bytes} (h : tree.read path = .ok content) :
    tree.look path = .ok (some (.file content)) := by
  rw [Tree.read] at h
  rw [Tree.look]
  split at h <;> simp_all

/-- The settings of a workspace are those in the value of the file that is found. -/
theorem Found.fst_collect_load {content : Bytes} (h : Found tree root explicit path content) :
    (load tree root explicit).collect.1 = readValue tree path >>= fun v =>
      (ofValue (tree.cwd.resolve root) path v).mapError (SettingsFault.failure path) := by
  have hthere := firstThere_eq_some_iff.mpr ⟨h.reached, _, look_of_read h.read⟩
  rw [Settings.fst_collect_load h.noNull, hthere]
  exact fst_collect_loadFrom tree _ path explicit

theorem Escapes.fst_collect_load (h : Escapes tree root explicit m) :
    (load tree root explicit).collect.1 = .error (.mishap m) := by
  cases h with
  | root h => exact fst_collect_load_of_null h
  | name hroot hp hlook =>
    rw [Settings.fst_collect_load hroot, firstThere_eq_error_iff.mpr ⟨_, rfl, hp, hlook⟩]
    rfl
  | encoding hfound hdecode =>
    rw [hfound.fst_collect_load, readValue_eq_mishap_iff.mpr ⟨_, hfound.read, .inl ⟨_, hdecode, rfl⟩⟩]
    rfl
  | reader hfound hdecode hparse =>
    rw [hfound.fst_collect_load, readValue_eq_mishap_iff.mpr ⟨_, hfound.read, .inr ⟨_, _, hdecode, hparse, rfl⟩⟩]
    rfl
  | fields hfound hdecode hparse hfields =>
    rw [hfound.fst_collect_load, readValue_eq_ok_iff.mpr ⟨_, _, hfound.read, hdecode, hparse⟩]
    exact mapError_eq_error_iff.mpr ⟨_, ofValue_eq_mishap_iff.mpr ⟨_, rfl, hfields⟩, rfl⟩

theorem escapes_of_load (h : (load tree root explicit).collect.1 = .error (.mishap m)) :
    Escapes tree root explicit m := by
  cases hroot : root.hasNull with
  | true =>
    obtain rfl : .unreachable .nullByte root = m := by simpa [fst_collect_load_of_null hroot] using h
    exact .root hroot
  | false =>
    rw [fst_collect_load hroot, bind_eq_error_iff] at h
    rcases h with h | ⟨located, hlocated, h⟩
    · obtain ⟨_, hlocated, ⟨⟩⟩ := mapError_eq_error_iff.mp h
      obtain ⟨p, rfl, hp, hlook⟩ := firstThere_eq_error_iff.mp hlocated
      exact .name hroot hp hlook
    · cases located with
      | none => cases explicit <;> cases h
      | some path =>
        obtain ⟨hreached, -⟩ := firstThere_eq_some_iff.mp (mapError_eq_ok_iff.mp hlocated)
        rw [fst_collect_loadFrom, bind_eq_error_iff] at h
        rcases h with h | ⟨v, hvalue, h⟩
        · obtain ⟨content, hread, ⟨f, hdecode, rfl⟩ | ⟨text, e, hdecode, hparse, rfl⟩⟩ := readValue_eq_mishap_iff.mp h
          · exact .encoding ⟨hroot, hreached, hread⟩ hdecode
          · exact .reader ⟨hroot, hreached, hread⟩ hdecode hparse
        · obtain ⟨f, hsettings, hf⟩ := mapError_eq_error_iff.mp h
          obtain rfl := failure_eq_mishap_iff.mp hf
          obtain ⟨fields, rfl, hfields⟩ := ofValue_eq_mishap_iff.mp hsettings
          obtain ⟨content, text, hread, hdecode, hparse⟩ := readValue_eq_ok_iff.mp hvalue
          exact .fields ⟨hroot, hreached, hread⟩ hdecode hparse hfields

theorem issue_of_readValue {i : Issue} (h : readValue tree path = .error (.issue i)) :
    ∃ f : SettingsFault, f.failure path = .issue i := by
  rw [readValue] at h
  cases hr : tree.read path with
  | error f => simp only [hr, Except.error.injEq] at h; exact ⟨_, h⟩
  | ok content =>
    cases hd : Utf8.decode content with
    | error f => simp [hr, hd] at h
    | ok text =>
      simp only [hr, hd] at h
      obtain ⟨f, -, hf⟩ := mapError_eq_error_iff.mp h
      exact ⟨_, hf⟩

/-- An issue with settings is one of the configuration, about a file that was looked for. -/
theorem issue_of_load {i : Issue} (h : (load tree root explicit).collect.1 = .error (.issue i)) :
    i.kind = .configuration ∧
      ∃ p ∈ candidates (tree.cwd.resolve root) explicit, i.location.path = some p.text := by
  have hfault : ∃ p ∈ candidates (tree.cwd.resolve root) explicit, ∃ f : SettingsFault, f.failure p = .issue i := by
    cases hroot : root.hasNull with
    | true => simp [fst_collect_load_of_null hroot] at h
    | false =>
      rw [fst_collect_load hroot, bind_eq_error_iff] at h
      rcases h with h | ⟨located, hlocated, h⟩
      · obtain ⟨_, -, ⟨⟩⟩ := mapError_eq_error_iff.mp h
      · cases located with
        | none =>
          cases explicit with
          | none => cases h
          | some p => exact ⟨p, List.mem_singleton_self p, _, Except.error.inj h⟩
        | some path =>
          obtain ⟨hreached, -⟩ := firstThere_eq_some_iff.mp (mapError_eq_ok_iff.mp hlocated)
          refine ⟨path, hreached.mem, ?_⟩
          rw [fst_collect_loadFrom, bind_eq_error_iff] at h
          rcases h with h | ⟨v, -, h⟩
          · exact issue_of_readValue h
          · obtain ⟨f, -, hf⟩ := mapError_eq_error_iff.mp h
            exact ⟨f, hf⟩
  obtain ⟨p, hp, f, hf⟩ := hfault
  obtain ⟨hkind, hpath⟩ := issue_of_failure hf
  exact ⟨hkind, p, hp, hpath⟩

/-- Loading settings ends with a mishap in the cases that are listed and in no others. -/
theorem load_eq_mishap_iff :
    (load tree root explicit).collect.1 = .error (.mishap m) ↔ Escapes tree root explicit m :=
  ⟨escapes_of_load, Escapes.fst_collect_load⟩

end Settings

/-! ## Telling users -/

namespace World

variable {w : World} {making : Making} {serving : Serving} {place : Place} {i : Invocation} {r : Request}

theorem ending_conclude (served : Option (Path × Option Path)) (x : Console × Except Trouble Int) (m : Mishap) :
    (w.conclude i served x).ending ≠ .escaped m := by
  rcases x with ⟨c, t | status⟩ <;> simp [conclude]

/-- Before a command begins, nothing but a mishap with the settings goes unreported. -/
theorem runIn_escaped_iff {m : Mishap} :
    (w.runIn making serving place i r).ending = .escaped m ↔
      (Settings.load w.tree place.root place.config).collect.1 = .error (.mishap m) := by
  rw [runIn]
  rcases (Settings.load w.tree place.root place.config).collect with ⟨(issue | m') | s, records⟩
  · simp [ending_conclude]
  · simp
  · cases r <;> simp [carryOut, ending_conclude]

/-- An issue with the settings is shown, and the command line fails. -/
theorem runIn_of_issue {issue : Issue}
    (h : (Settings.load w.tree place.root place.config).collect.1 = .error (.issue issue)) :
    let verbose := w.environment.isVerbose i.verbose
    let outcome := w.runIn making serving place i r
    outcome.ending = .status 1 ∧
      .trouble ((Trouble.ofSettings issue).text verbose verbose) ∈ outcome.console.notices := by
  intro verbose outcome
  change (w.runIn making serving place i r).ending = _ ∧ _ ∈ (w.runIn making serving place i r).console.notices
  rw [runIn]
  generalize (Settings.load w.tree place.root place.config).collect = loaded at h
  obtain ⟨result, records⟩ := loaded
  obtain rfl : result = .error (.issue issue) := h
  exact ⟨rfl, List.mem_append_right _ List.mem_cons_self⟩

end World

namespace Workspace

variable {tree : Tree} {w : Workspace}

/-- A mishap with the settings ends the operation. -/
theorem reload_of_mishap {m : Mishap} (h : (Settings.load tree w.root w.configPath).collect.1 = .error (.mishap m)) :
    (w.reload tree).result = .error m := by
  rw [reload]
  generalize (Settings.load tree w.root w.configPath).collect = loaded at h
  obtain ⟨result, loading⟩ := loaded
  obtain rfl : result = .error (.mishap m) := h
  rfl

/-- An issue with the settings is logged, and the operation goes on without them. -/
theorem reload_of_issue {issue : Issue}
    (h : (Settings.load tree w.root w.configPath).collect.1 = .error (.issue issue)) :
    (w.reload tree).result = .ok () ∧
      ⟨.error, .workspace, "Rejected workspace configuration, using bundled keywords: " ++ issue.format⟩ ∈
        (w.reload tree).records := by
  rw [reload]
  generalize (Settings.load tree w.root w.configPath).collect = loaded at h
  obtain ⟨result, loading⟩ := loaded
  obtain rfl : result = .error (.issue issue) := h
  exact ⟨rfl, List.mem_append_left _ (List.mem_append_right _ List.mem_cons_self)⟩

end Workspace

namespace Settings

/-- Loading ends with settings or with an issue of the configuration, which names a file that was looked for, unless one
of the mishaps listed in `Escapes` comes first. The command line shows an issue and fails, and the editor logs it and
goes on; a mishap escapes from both. -/
theorem settles_iff_not_escapes (tree : Tree) (root : Path) (explicit : Option Path) :
    let result := (load tree root explicit).collect.1
    (((∃ s, result = .ok s) ∨ ∃ i, result = .error (.issue i) ∧ i.kind = .configuration) ↔
      ∀ m, ¬Escapes tree root explicit m) ∧
    (∀ m, result = .error (.mishap m) ↔ Escapes tree root explicit m) ∧
    (∀ i, result = .error (.issue i) → i.kind = .configuration ∧
      ∃ p ∈ candidates (tree.cwd.resolve root) explicit, i.location.path = some p.text) ∧
    (∀ (input : Bytes) (environment : Environment) (codecs : Codecs) (making : World.Making) (serving : Serving)
        (i : Invocation) (r : Request),
      let verbose := environment.isVerbose i.verbose
      let outcome := (⟨tree, input, environment, codecs⟩ : World).runIn making serving ⟨root, explicit⟩ i r
      (∀ m, outcome.ending = .escaped m ↔ Escapes tree root explicit m) ∧
      ∀ issue, result = .error (.issue issue) → outcome.ending = .status 1 ∧
        .trouble ((Trouble.ofSettings issue).text verbose verbose) ∈ outcome.console.notices) ∧
    ∀ w : Workspace, w.root = root → w.configPath = explicit →
      (∀ m, Escapes tree root explicit m → (w.reload tree).result = .error m) ∧
      ∀ issue, result = .error (.issue issue) → (w.reload tree).result = .ok () ∧
        ⟨.error, .workspace, "Rejected workspace configuration, using bundled keywords: " ++ issue.format⟩ ∈
          (w.reload tree).records := by
  intro result
  refine ⟨?_, fun m => load_eq_mishap_iff, fun i => issue_of_load, ?_, ?_⟩
  · simp only [← load_eq_mishap_iff]
    change _ ↔ ∀ m, ¬result = .error (.mishap m)
    have hissue : ∀ i, result = .error (.issue i) → i.kind = .configuration := fun i h => (issue_of_load h).1
    rcases hresult : result with (i | m) | s
    · exact iff_of_true (.inr ⟨i, rfl, hissue i hresult⟩) (by simp)
    · simp
    · exact iff_of_true (.inl ⟨s, rfl⟩) (by simp)
  · intro input environment codecs making serving i r
    exact ⟨fun m => World.runIn_escaped_iff.trans load_eq_mishap_iff, fun issue h => World.runIn_of_issue h⟩
  · rintro w rfl rfl
    exact ⟨fun m h => Workspace.reload_of_mishap h.fst_collect_load, fun issue h => Workspace.reload_of_issue h⟩

/-- The settings file in the working directory is one byte that is not UTF-8: loading it gives neither settings nor an
issue. -/
theorem load_undecodable :
    let tree : Tree := ⟨[(["scpfmt.toml"], .file [0xff])], ⟨1, []⟩⟩
    ¬((∃ s, (load tree tree.cwd none).collect.1 = .ok s) ∨
      ∃ i, (load tree tree.cwd none).collect.1 = .error (.issue i) ∧ i.kind = .configuration) := by
  intro tree
  have hescapes : Escapes tree tree.cwd none (.undecodable _) :=
    .encoding ⟨rfl, ⟨[], _, rfl, by simp⟩, rfl⟩ rfl
  rw [hescapes.fst_collect_load]
  simp

end Settings
end ScriptCase
