import ScriptCase.Proofs.CommandLine
import ScriptCase.Proofs.Fates

/-!
# Trees of the same shape

Formatting scripts changes what files hold and nothing else: the tree keeps its shape (`Tree.SameShape`). Where a path
leads to and which files targets stand for depends on the shape alone (`Tree.SameShape.locate`,
`Settings.collect_of_sameShape`). Settings and keyword tables depend on the content of one more file each
(`Settings.load_of_sameShape`, `Settings.table_of_sameShape`).
-/

namespace ScriptCase

/-- A file, whatever it holds. -/
def Node.isFile : Node → Bool
  | .directory => false
  | .file _ => true

namespace Tree

/-- The trees differ in nothing but the content of files. -/
structure SameShape (t t' : Tree) : Prop where
  cwd : t'.cwd = t.cwd
  node : ∀ names, (t'.node? names).map Node.isFile = (t.node? names).map Node.isFile
  listed : ∀ names, (∃ b, (names, Node.file b) ∈ t'.nodes) ↔ ∃ b, (names, Node.file b) ∈ t.nodes

variable {t t' t'' : Tree} {p : Path} {names : List String} {b : Bytes}

theorem SameShape.refl (t : Tree) : t.SameShape t := ⟨rfl, fun _ => rfl, fun _ => Iff.rfl⟩

theorem SameShape.symm (h : t.SameShape t') : t'.SameShape t :=
  ⟨h.cwd.symm, fun names => (h.node names).symm, fun names => (h.listed names).symm⟩

theorem SameShape.trans (h : t.SameShape t') (h' : t'.SameShape t'') : t.SameShape t'' :=
  ⟨h'.cwd.trans h.cwd, fun names => (h'.node names).trans (h.node names),
    fun names => (h'.listed names).trans (h.listed names)⟩

theorem mem_nodes_of_node? {n : Node} (hne : names ≠ []) (h : t.node? names = some n) : (names, n) ∈ t.nodes := by
  rw [node?, if_neg (by simpa using hne)] at h
  obtain ⟨⟨names', n⟩, hfind, rfl⟩ := Option.map_eq_some_iff.mp h
  have hkey : names' = names := by simpa using List.find?_some hfind
  exact hkey ▸ List.mem_of_find?_eq_some hfind

/-- A write keeps the shape. -/
theorem SameShape.put (h : t.node? names = some (.file b)) (content : Bytes) :
    t.SameShape (t.put names content) := by
  refine ⟨rfl, fun names' => ?_, fun names' => ?_⟩
  · rw [node?_put h]
    split
    · next he => rw [he, h]; rfl
    · rfl
  · constructor
    · rintro ⟨b', hb'⟩
      obtain ⟨e, he, heq⟩ := List.mem_map.mp hb'
      split at heq
      · next hkey =>
        obtain ⟨rfl, -⟩ := Prod.mk.inj heq
        exact ⟨b, hkey ▸ mem_nodes_of_node? (ne_nil_of_node?_file h) h⟩
      · exact ⟨b', heq ▸ he⟩
    · rintro ⟨b', hb'⟩
      by_cases hkey : names' = names
      · exact ⟨content, List.mem_map.mpr ⟨_, hb', if_pos hkey⟩⟩
      · exact ⟨b', List.mem_map.mpr ⟨_, hb', if_neg hkey⟩⟩

/-! ## Where paths lead to -/

/-- The place that a path leads to, and whether a file stands there. -/
def spot (x : List String × Node) : List String × Bool := (x.1, x.2.isFile)

theorem SameShape.follow (h : t.SameShape t') (place ns : List String) :
    (t'.follow place ns).map spot = (t.follow place ns).map spot := by
  induction ns generalizing place with
  | nil =>
    have hnode := h.node place
    rw [Tree.follow, Tree.follow]
    cases hn : t.node? place with
    | none =>
      rw [hn] at hnode
      rw [Option.map_eq_none_iff.mp hnode]
    | some n =>
      rw [hn] at hnode
      obtain ⟨n', hn', hkind⟩ := Option.map_eq_some_iff.mp hnode
      rw [hn']
      exact congrArg (fun k => Except.ok (place, k)) hkind
  | cons m ns ih =>
    have hnode := h.node place
    rw [Tree.follow, Tree.follow]
    cases hn : t.node? place with
    | none =>
      rw [hn] at hnode
      rw [Option.map_eq_none_iff.mp hnode]
    | some n =>
      rw [hn] at hnode
      obtain ⟨n', hn', hkind⟩ := Option.map_eq_some_iff.mp hnode
      rw [hn']
      cases n with
      | file b =>
        cases n' with
        | file b' => rfl
        | directory => cases hkind
      | directory =>
        cases n' with
        | file b' => cases hkind
        | directory =>
          dsimp only
          split
          · rfl
          · split
            · exact ih _
            · exact ih _

theorem SameShape.locate (h : t.SameShape t') (p : Path) : (t'.locate p).map spot = (t.locate p).map spot := by
  rw [Tree.locate, Tree.locate, h.cwd]
  split
  · rfl
  · split
    · rfl
    · exact h.follow [] _

theorem SameShape.locate_error {f : FileFault} (h : t.SameShape t') (hp : t.locate p = .error f) :
    t'.locate p = .error f := by
  have hspot := h.locate p
  rw [hp] at hspot
  cases hp' : t'.locate p with
  | error f' => rw [hp'] at hspot; exact congrArg _ (Except.error.inj hspot)
  | ok x => rw [hp'] at hspot; cases hspot

theorem SameShape.locate_ok {n : Node} (h : t.SameShape t') (hp : t.locate p = .ok (names, n)) :
    ∃ n', t'.locate p = .ok (names, n') ∧ n'.isFile = n.isFile := by
  have hspot := h.locate p
  rw [hp] at hspot
  cases hp' : t'.locate p with
  | error f' => rw [hp'] at hspot; cases hspot
  | ok x =>
    obtain ⟨names', n'⟩ := x
    rw [hp'] at hspot
    obtain ⟨rfl, hkind⟩ := Prod.mk.inj (Except.ok.inj hspot)
    exact ⟨n', rfl, hkind⟩

theorem SameShape.locate_file (h : t.SameShape t') (hp : t.locate p = .ok (names, .file b)) :
    ∃ b', t'.locate p = .ok (names, .file b') := by
  obtain ⟨n', hn', hkind⟩ := h.locate_ok hp
  cases n' with
  | directory => cases hkind
  | file b' => exact ⟨b', hn'⟩

theorem SameShape.locate_directory (h : t.SameShape t') (hp : t.locate p = .ok (names, .directory)) :
    t'.locate p = .ok (names, .directory) := by
  obtain ⟨n', hn', hkind⟩ := h.locate_ok hp
  cases n' with
  | directory => exact hn'
  | file b' => cases hkind

/-- A file whose own content is the same is read as before. -/
theorem SameShape.read (h : t.SameShape t')
    (hsame : ∀ names b, t.locate p = .ok (names, .file b) → t'.node? names = some (.file b)) :
    t'.read p = t.read p := by
  rw [Tree.read, Tree.read]
  cases hp : t.locate p with
  | error f => rw [h.locate_error hp]
  | ok x =>
    obtain ⟨names, n⟩ := x
    cases n with
    | directory => rw [h.locate_directory hp]
    | file b =>
      obtain ⟨b', hb'⟩ := h.locate_file hp
      have hnode := (node?_of_locate hb').symm.trans (hsame names b hp)
      obtain rfl : b' = b := by simpa using hnode
      rw [hb']

/-- A path that is not UTF-8 leads as far as before. -/
theorem SameShape.lostFault (h : t.SameShape t') (p : LoosePath) : t'.lostFault p = t.lostFault p := by
  rw [Tree.lostFault, Tree.lostFault, h.cwd]
  generalize (((LoosePath.ofPath t.cwd).join p).names.takeWhile fun n => n.spelled?.isSome).filterMap
    LooseText.spelled? = before
  have hspot := h.follow [] before
  cases hf : t.follow [] before with
  | error f =>
    rw [hf] at hspot
    rw [map_eq_error_iff.mp hspot]
  | ok x =>
    rw [hf] at hspot
    obtain ⟨⟨_, n'⟩, hf', hx⟩ := map_eq_ok_iff.mp hspot
    have hkind : n'.isFile = x.2.isFile := (Prod.mk.inj hx).2
    rw [hf']
    rcases x with ⟨_, _ | b⟩
    · cases n' with
      | directory => rfl
      | file b' => cases hkind
    · cases n' with
      | directory => cases hkind
      | file b' => rfl

theorem SameShape.readLoose (h : t.SameShape t') {p : LoosePath}
    (hsame : ∀ q, p.onDisk? = some q → t'.read q = t.read q) : t'.readLoose p = t.readLoose p := by
  rw [Tree.readLoose, Tree.readLoose]
  cases hq : p.onDisk? with
  | none => rw [h.lostFault]
  | some q => exact hsame q hq

theorem exists_locate_of_look {n : Node} (h : t.look p = .ok (some n)) : ∃ names, t.locate p = .ok (names, n) := by
  rw [look] at h
  split at h
  · next names n' hloc =>
    obtain rfl := Option.some.inj (Except.ok.inj h)
    exact ⟨names, hloc⟩
  · cases h
  · cases h

/-- What stands at a path is of the same kind. -/
theorem SameShape.look (h : t.SameShape t') (p : Path) :
    (t'.look p).map (Option.map Node.isFile) = (t.look p).map (Option.map Node.isFile) := by
  rw [Tree.look, Tree.look]
  cases hp : t.locate p with
  | error f => rw [h.locate_error hp]
  | ok x =>
    obtain ⟨n', hn', hkind⟩ := h.locate_ok hp
    rw [hn']
    exact congrArg (fun k => Except.ok (some k)) hkind

theorem mem_below_iff {place rel : List String} : rel ∈ t.below place ↔
    ∃ names b, (names, Node.file b) ∈ t.nodes ∧ (place.isPrefixOf names && place.length < names.length) = true ∧
      names.drop place.length = rel := by
  rw [below, List.mem_filterMap]
  constructor
  · rintro ⟨⟨names, n⟩, hmem, h⟩
    cases n with
    | directory => cases h
    | file b =>
      dsimp only at h
      split at h
      · next hp => exact ⟨names, b, hmem, hp, Option.some.inj h⟩
      · cases h
  · rintro ⟨names, b, hmem, hp, rfl⟩
    exact ⟨_, hmem, if_pos hp⟩

theorem SameShape.mem_filesBelow (h : t.SameShape t') {q : Path} : q ∈ t'.filesBelow p ↔ q ∈ t.filesBelow p := by
  have hbelow : ∀ place rel, rel ∈ t'.below place ↔ rel ∈ t.below place := by
    intro place rel
    rw [mem_below_iff, mem_below_iff]
    refine exists_congr fun names => ?_
    simp only [exists_and_right, h.listed]
  rw [filesBelow, filesBelow]
  cases hp : t.locate p with
  | error f => rw [h.locate_error hp]
  | ok x =>
    obtain ⟨names, n⟩ := x
    cases n with
    | directory =>
      rw [h.locate_directory hp]
      simp only [List.mem_mergeSort, List.mem_map, hbelow]
    | file b =>
      obtain ⟨b', hb'⟩ := h.locate_file hp
      rw [hb']

theorem mem_entriesBelow_iff {place rel : List String} :
    rel ∈ t.entriesBelow place ↔ rel ≠ [] ∧ t.node? (place ++ rel) ≠ none := by
  have hnode : rel ≠ [] → (t.node? (place ++ rel) ≠ none ↔ ∃ n, (place ++ rel, n) ∈ t.nodes) := by
    intro hrel
    rw [node?, if_neg (by simp [hrel]), ne_eq, Option.map_eq_none_iff, List.find?_eq_none]
    simp
  rw [entriesBelow, List.mem_filterMap]
  constructor
  · rintro ⟨⟨names, n⟩, hmem, h⟩
    dsimp only at h
    split at h
    · next hp =>
      obtain ⟨hpre, hlen⟩ := Bool.and_eq_true_iff.mp hp
      obtain ⟨rel', rfl⟩ := List.isPrefixOf_iff_prefix.mp hpre
      obtain rfl : rel' = rel := by simpa using h
      have hrel : rel' ≠ [] := by
        rintro rfl
        simp at hlen
      exact ⟨hrel, (hnode hrel).mpr ⟨n, hmem⟩⟩
    · cases h
  · rintro ⟨hrel, h⟩
    obtain ⟨n, hmem⟩ := (hnode hrel).mp h
    have hlen : 0 < rel.length := List.length_pos_iff.mpr hrel
    refine ⟨_, hmem, (if_pos (by simpa using hlen)).trans ?_⟩
    rw [List.drop_left]

/-- A directory can be searched unless the path of something below it is too long. -/
theorem overlong?_eq_none_iff (hp : t.locate p = .ok (names, .directory)) : t.overlong? p = none ↔
    ∀ rel, rel ≠ [] → t.node? (names ++ rel) ≠ none →
      (⟨p.slashes, p.names ++ rel⟩ : Path).text.utf8ByteSize ≤ pathLimit := by
  rw [overlong?, hp]
  simp only [List.find?_eq_none, List.mem_mergeSort, List.mem_map, mem_entriesBelow_iff, decide_eq_true_eq, Nat.not_lt]
  constructor
  · intro h rel hrel hnode
    exact h _ ⟨rel, ⟨hrel, hnode⟩, rfl⟩
  · rintro h _ ⟨rel, ⟨hrel, hnode⟩, rfl⟩
    exact h rel hrel hnode

theorem SameShape.overlong?_eq_none (h : t.SameShape t') (hp : t.locate p = .ok (names, .directory))
    (hnone : t.overlong? p = none) : t'.overlong? p = none := by
  rw [overlong?_eq_none_iff (h.locate_directory hp)]
  rw [overlong?_eq_none_iff hp] at hnone
  intro rel hrel hnode
  refine hnone rel hrel fun hn => hnode ?_
  have hkind := h.node (names ++ rel)
  rw [hn] at hkind
  exact Option.map_eq_none_iff.mp hkind

end Tree

/-! ## What is found in a tree -/

namespace Settings

variable {s : Settings} {t t' : Tree}

theorem mem_discover_of_sameShape (h : t.SameShape t') {directory q : Path} :
    q ∈ s.discover t' directory ↔ q ∈ s.discover t directory := by
  rw [discover, discover, List.mem_filter, List.mem_filter, h.mem_filesBelow]

theorem filesOf_of_sameShape (h : t.SameShape t') {target : String} {found : Option (List Path)}
    (hf : s.filesOf t target = .ok found) : ∃ found', s.filesOf t' target = .ok found' ∧
      ((found = none ∧ found' = none) ∨ ∃ ps ps', found = some ps ∧ found' = some ps' ∧ ∀ p, p ∈ ps' ↔ p ∈ ps) := by
  delta filesOf at hf ⊢
  dsimp only at hf ⊢
  have hlook := h.look (s.root.join (Path.ofString target))
  cases hl : t.look (s.root.join (Path.ofString target)) with
  | error f => rw [hl] at hf; cases hf
  | ok n =>
    rw [hl] at hf hlook
    obtain ⟨n', hl', hkind⟩ := map_eq_ok_iff.mp hlook
    rw [hl']
    cases n with
    | none =>
      obtain rfl := Option.map_eq_none_iff.mp hkind
      exact ⟨none, rfl, Or.inl ⟨(Except.ok.inj hf).symm, rfl⟩⟩
    | some n =>
      obtain ⟨n', rfl, hkind⟩ := Option.map_eq_some_iff.mp hkind
      cases n with
      | directory =>
        cases n' with
        | directory =>
          obtain ⟨names, hloc⟩ := Tree.exists_locate_of_look hl
          cases hlong : t.overlong? (s.root.join (Path.ofString target)) with
          | some q => simp [hlong] at hf
          | none =>
            simp only [hlong] at hf
            simp only [h.overlong?_eq_none hloc hlong]
            refine ⟨_, rfl, Or.inr ⟨_, _, (Except.ok.inj hf).symm, rfl, fun p => ?_⟩⟩
            exact mem_discover_of_sameShape h
        | file b' => cases hkind
      | file b =>
        cases n' with
        | directory => cases hkind
        | file b' => exact ⟨_, rfl, Or.inr ⟨_, _, (Except.ok.inj hf).symm, rfl, fun p => Iff.rfl⟩⟩

/-- The same files are found in trees of the same shape. -/
theorem collect_of_sameShape (h : t.SameShape t') {targets : List String} {files : List Path}
    {records : List Log.Record} (hc : s.collect t targets = (.ok files, records)) :
    ∃ files', s.collect t' targets = (.ok files', records) ∧ ∀ p, p ∈ files' ↔ p ∈ files := by
  induction targets generalizing files records with
  | nil =>
    obtain ⟨hfiles, rfl⟩ := Prod.mk.inj hc
    exact ⟨files, by rw [← hfiles]; rfl, fun p => Iff.rfl⟩
  | cons target targets ih =>
    rw [collect.eq_def] at hc
    cases hf : s.filesOf t target with
    | error m => simp only [hf] at hc; cases hc
    | ok found =>
      obtain ⟨found', hf', hfound⟩ := filesOf_of_sameShape h hf
      simp only [hf] at hc
      rcases hrest : s.collect t targets with ⟨m | rest, records'⟩
      · rw [hrest] at hc
        cases found with
        | none => cases hc
        | some ps => cases hc
      · obtain ⟨rest', hrest', hmem⟩ := ih hrest
        rw [hrest] at hc
        rw [collect.eq_def]
        simp only [hf', hrest']
        rcases hfound with ⟨rfl, rfl⟩ | ⟨ps, ps', rfl, rfl, hps⟩
        · obtain ⟨hfiles, rfl⟩ := Prod.mk.inj hc
          obtain rfl := Except.ok.inj hfiles
          exact ⟨rest', rfl, hmem⟩
        · obtain ⟨hfiles, rfl⟩ := Prod.mk.inj hc
          obtain rfl := Except.ok.inj hfiles
          exact ⟨ps' ++ rest', rfl, fun p => by rw [List.mem_append, List.mem_append, hps, hmem]⟩

/-! ## Settings and tables -/

theorem isThere_of_sameShape (h : t.SameShape t') (p : Path) : isThere t' p = isThere t p := by
  have hlook := h.look p
  rw [isThere, isThere]
  cases hl : t.look p with
  | error f =>
    cases hl' : t'.look p with
    | error f' => rw [hl, hl'] at hlook; rw [Except.error.inj hlook]
    | ok n' => rw [hl, hl'] at hlook; cases hlook
  | ok n =>
    rw [hl] at hlook
    obtain ⟨n', hl', hkind⟩ := map_eq_ok_iff.mp hlook
    have hsome : n'.isSome = n.isSome := by simpa using congrArg Option.isSome hkind
    rw [hl']
    exact congrArg Except.ok hsome

theorem firstThere_of_sameShape (h : t.SameShape t') (ps : List Path) : firstThere t' ps = firstThere t ps := by
  induction ps with
  | nil => rfl
  | cons p ps ih => rw [firstThere, firstThere, isThere_of_sameShape h, ih]

theorem locate?_of_sameShape (h : t.SameShape t') (root : Path) (explicit : Option Path) :
    locate? t' root explicit = locate? t root explicit := by
  cases explicit <;> exact firstThere_of_sameShape h _

theorem source_ofValue {root source : Path} {v : Value} (h : ofValue root source v = .ok s) :
    s.source = some source := by
  cases v with
  | table fields =>
    simp only [ofValue, bind_eq_ok_iff] at h
    obtain ⟨_, -, _, -, _, -, _, -, _, -, _, -, h⟩ := h
    exact (Except.ok.inj h) ▸ rfl
  | _ => cases h

/-- Settings that were read from a file name it as their source. -/
theorem source_of_loadFrom {root path : Path} {explicit : Option Path} {records : List Log.Record}
    (h : (loadFrom t root explicit (some path)).collect = (.ok s, records)) : s.source = some path := by
  rw [loadFrom] at h
  split at h
  · cases h
  · next v _ =>
    cases hs : ofValue root path v with
    | error f => rw [hs] at h; cases h
    | ok s' =>
      rw [hs] at h
      obtain rfl : s' = s := Except.ok.inj (congrArg Prod.fst h)
      exact source_ofValue hs

/-- Settings are read from one file, if from any. -/
theorem load_of_sameShape (h : t.SameShape t') {root : Path} {explicit : Option Path} {records : List Log.Record}
    (hload : (load t root explicit).collect = (.ok s, records))
    (hread : ∀ q, s.source = some q → t'.read q = t.read q) :
    (load t' root explicit).collect = (.ok s, records) := by
  rw [load] at hload ⊢
  rw [h.cwd]
  cases hroot : t.cwd.resolve? root with
  | error m => rw [hroot] at hload; cases hload
  | ok root =>
    rw [hroot] at hload
    dsimp only at hload ⊢
    rw [locate?_of_sameShape h]
    cases hlocated : locate? t root explicit with
    | error m => rw [hlocated] at hload; cases hload
    | ok located =>
      rw [hlocated] at hload
      dsimp only at hload ⊢
      cases located with
      | none => cases explicit <;> exact hload
      | some path =>
        have hvalue : readValue t' path = readValue t path := by
          rw [readValue, readValue, hread path (source_of_loadFrom hload)]
        rw [← hload, loadFrom, loadFrom, hvalue]

/-- A keyword table is read from one file, if from any. -/
theorem table_of_sameShape (h : t.SameShape t') {override : Option Path}
    (hread : ∀ p q, s.tableAt override = some p → p.onDisk? = some q → t'.read q = t.read q) :
    s.table t' override = s.table t override := by
  have hload : Table.load t' (s.tableAt override) = Table.load t (s.tableAt override) := by
    cases hp : s.tableAt override with
    | none => rfl
    | some p =>
      have hcontent : Table.contentAt t' p = Table.contentAt t p := by
        rw [Table.contentAt, Table.contentAt, h.readLoose fun q hq => hread p q hp hq]
      rw [Table.load, Table.load, Table.loadFrom, Table.loadFrom, hcontent]
  rw [table, table, hload]

end Settings
end ScriptCase
