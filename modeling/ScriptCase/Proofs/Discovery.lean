import Mathlib.Data.String.Basic
import ScriptCase.Proofs.SettingsShape
import ScriptCase.Proofs.Shape

/-!
# Finding scripts

Targets stand for files: a directory for the scripts at any depth below it, in the order of their names, a file for
itself, and a path at which nothing stands for nothing but a record in the log. `Settings.StandsFor` says this about one
target, on the disk as paths lead through it, and `Settings.collect_finds` about the search for all of them.

The search goes through a list of everything on the disk instead. That both come to the same rests on what every disk
satisfies (`Tree.Proper`): a place that is listed is one that its names lead to (`Tree.Proper.follow_eq_ok_iff`), and no
place is listed twice, so that sorted paths increase (`Tree.Proper.pairwise_filesBelow`). A name or a path may be too
long for any file. The search ends with a mishap if it meets with one (`Settings.Unsearchable`), be it a target or below
one.
-/

namespace ScriptCase

open Text

/-! ## Suffixes and the order of paths -/

namespace Path

/-- The suffix of a name begins with its last dot, if something stands before that dot and something behind it. -/
def HasSuffix (name : String) (suffix : Text) : Prop :=
  ∃ stem tail, name.toList = stem ++ suffix ∧ suffix = '.' :: tail ∧ stem ≠ [] ∧ tail ≠ [] ∧ '.' ∉ tail

theorem forall_ne_dot {t : Text} (h : '.' ∉ t) : ∀ c ∈ t.reverse, (c != '.') = true := by
  intro c hc
  rw [bne_iff_ne]
  rintro rfl
  exact h (List.mem_reverse.mp hc)

theorem suffixOf_of_not_mem {name : String} (h : '.' ∉ name.toList) : suffixOf name = "" := by
  have htake : name.toList.reverse.takeWhile (· != '.') = name.toList.reverse :=
    List.takeWhile_eq_self_iff.mpr (forall_ne_dot h)
  rw [suffixOf]
  simp [htake]

theorem suffixOf_of_split {name : String} {stem tail : Text} (h : name.toList = stem ++ '.' :: tail) (ht : '.' ∉ tail) :
    suffixOf name = if stem ≠ [] ∧ tail ≠ [] then String.ofList ('.' :: tail) else "" := by
  have htake : name.toList.reverse.takeWhile (· != '.') = tail.reverse := by
    rw [h, List.reverse_append, List.reverse_cons, List.append_assoc, List.takeWhile_append_of_pos (forall_ne_dot ht)]
    simp
  have hlen : name.toList.length = stem.length + 1 + tail.length := by
    rw [h, List.length_append, List.length_cons]
    omega
  have hstem : stem ≠ [] ↔ 0 < stem.length := List.length_pos_iff.symm
  rw [suffixOf]
  simp only [htake, List.reverse_reverse, hlen]
  refine if_congr ?_ rfl rfl
  rw [hstem]
  constructor
  · rintro ⟨-, hdot, htail⟩
    exact ⟨by omega, htail⟩
  · rintro ⟨hdot, htail⟩
    exact ⟨by omega, by omega, htail⟩

theorem hasSuffix_iff {name : String} {suffix : Text} :
    HasSuffix name suffix ↔ suffix ≠ [] ∧ (suffixOf name).toList = suffix := by
  constructor
  · rintro ⟨stem, tail, hname, rfl, hstem, htail, hdot⟩
    rw [suffixOf_of_split hname hdot, if_pos ⟨hstem, htail⟩]
    simp
  · rintro ⟨hne, rfl⟩
    by_cases hmem : '.' ∈ name.toList
    · -- the last dot is the first one from behind
      obtain ⟨before, after, hrev, hdot⟩ := List.eq_append_cons_of_mem (List.mem_reverse.mpr hmem)
      have hname : name.toList = after.reverse ++ '.' :: before.reverse := by
        rw [← List.reverse_reverse name.toList, hrev]
        simp
      rw [suffixOf_of_split hname (by simpa using hdot)] at hne ⊢
      split at hne
      · next h =>
        rw [if_pos h]
        exact ⟨_, _, by simpa using hname, by simp, h.1, h.2, by simpa using hdot⟩
      · exact absurd rfl hne
    · rw [suffixOf_of_not_mem hmem] at hne
      exact absurd rfl hne

/-- A string is split at its slashes: `before` is behind, `name` has been read since the last slash. -/
theorem splitOnAux_slash (before name rest : List Char) (acc : List String) :
    (String.ofList (before ++ name ++ rest)).splitOnAux "/" ⟨String.utf8Len before⟩
        ⟨String.utf8Len before + String.utf8Len name⟩ 0 acc =
      acc.reverse ++ (List.splitOnPPrepend (· == '/') rest name.reverse).map String.ofList := by
  have hslash : String.Pos.Raw.get "/" 0 = '/' := rfl
  have hnext : String.Pos.Raw.next "/" 0 = ⟨1⟩ := rfl
  have hend : String.Pos.Raw.atEnd "/" ⟨1⟩ = true := rfl
  induction rest generalizing before name acc with
  | nil =>
    rw [String.splitOnAux, if_pos (by simpa using String.atEnd_of_valid (before ++ name) [])]
    simpa using String.extract_of_valid before name []
  | cons c rest ih =>
    have hget := String.get_of_valid (before ++ name) (c :: rest)
    have hc := String.next_of_valid (before ++ name) c rest
    have hextract := String.extract_of_valid before name (c :: rest)
    rw [String.utf8Len_append] at hget hc
    rw [String.splitOnAux, if_neg (by simpa using String.atEnd_of_valid (before ++ name) (c :: rest)), hget, hslash,
      List.headD_cons, hc, hnext, List.splitOnPPrepend_cons_eq_if]
    split
    · next h =>
      obtain rfl : c = '/' := by simpa using h
      have hih := ih (before ++ name ++ ['/']) [] (String.ofList name :: acc)
      have hback : (⟨String.utf8Len before + String.utf8Len name + Char.utf8Size '/'⟩ : String.Pos.Raw).unoffsetBy ⟨1⟩ =
        ⟨String.utf8Len before + String.utf8Len name⟩ := rfl
      dsimp only
      rw [hend, if_pos rfl, hback, hextract]
      simpa [Nat.add_assoc] using hih
    · next h =>
      have hih := ih before (name ++ [c]) acc
      have hstay : (⟨String.utf8Len before + String.utf8Len name⟩ : String.Pos.Raw).unoffsetBy 0 =
        ⟨String.utf8Len before + String.utf8Len name⟩ := rfl
      rw [hstay, hc]
      simpa [Nat.add_assoc] using hih

theorem splitOn_slash (s : String) : s.splitOn "/" = (s.toList.splitOnP (· == '/')).map String.ofList := by
  have h := splitOnAux_slash [] [] s.toList []
  simpa [String.splitOn] using h

/-- A path is read off the pieces between its slashes. -/
theorem ofString_eq (s : String) : ofString s = ⟨slashesFor (s.toList.takeWhile (· == '/')).length,
    ((s.toList.splitOnP (· == '/')).map String.ofList).filter fun n => n != "" && n != "."⟩ := by
  rw [ofString, splitOn_slash]

theorem ofString_of_not_mem {n : String} (hslash : '/' ∉ n.toList) (hempty : n ≠ "") (hdot : n ≠ ".") :
    ofString n = ⟨0, [n]⟩ := by
  have hall : ∀ c ∈ n.toList, (c == '/') = false := fun c hc => beq_eq_false_iff_ne.mpr fun he => hslash (he ▸ hc)
  have hnone : n.toList.takeWhile (· == '/') = [] := by
    rw [List.takeWhile_eq_nil_iff]
    exact fun hlen => by simp [hall _ (List.getElem_mem hlen)]
  rw [ofString_eq, hnone, List.splitOnP_eq_singleton hall, List.map_singleton, String.ofList_toList]
  simp [slashesFor, hempty, hdot]

theorem namesLe_iff {as bs : List String} : namesLe as bs = true ↔ as = bs ∨ as < bs := by
  induction as generalizing bs with
  | nil => cases bs <;> simp [namesLe]
  | cons a as ih =>
    cases bs with
    | nil => simp [namesLe]
    | cons b bs =>
      rw [namesLe, List.cons_lt_cons_iff, List.cons.injEq]
      by_cases h : a = b
      · subst h
        simp [ih]
      · simp [h]

theorem namesLe_trans {as bs cs : List String} (h : namesLe as bs = true) (h' : namesLe bs cs = true) :
    namesLe as cs = true := by
  rw [namesLe_iff] at h h' ⊢
  rcases h with rfl | h
  · exact h'
  · rcases h' with rfl | h'
    · exact .inr h
    · exact .inr (List.lt_trans h h')

theorem namesLe_total (as bs : List String) : (namesLe as bs || namesLe bs as) = true := by
  rw [Bool.or_eq_true, namesLe_iff, namesLe_iff]
  rcases Std.lt_trichotomy as bs with h | h | h
  · exact .inl (.inr h)
  · exact .inl (.inl h)
  · exact .inr (.inr h)

end Path

/-! ## Disks -/

/-- A name that a file can have. -/
def IsName (name : String) : Prop :=
  name ∉ ["", ".", ".."] ∧ '/' ∉ name.toList ∧ '\x00' ∉ name.toList ∧ name.utf8ByteSize ≤ Tree.nameLimit

instance (name : String) : Decidable (IsName name) := inferInstanceAs (Decidable (_ ∧ _))

namespace Tree

/-- What holds of every disk: its names are names of files, no place is listed twice, and everything stands in a
directory. -/
structure Proper (t : Tree) : Prop where
  name : ∀ e ∈ t.nodes, ∀ m ∈ e.1, IsName m
  nodup : (t.nodes.map (·.1)).Nodup
  parent : ∀ e ∈ t.nodes, t.node? e.1.dropLast = some .directory

variable {t : Tree} {p q : Path} {place rel names : List String} {n : Node}

theorem Proper.node?_of_mem (h : t.Proper) (hne : names ≠ []) (hm : (names, n) ∈ t.nodes) :
    t.node? names = some n := by
  cases hn : t.node? names with
  | none =>
    rw [node?, if_neg (by simpa using hne), Option.map_eq_none_iff, List.find?_eq_none] at hn
    exact absurd (hn _ hm) (by simp)
  | some n' =>
    -- both entries have the same names, and no names are listed twice
    have hsame := List.inj_on_of_nodup_map h.nodup hm (mem_nodes_of_node? hne hn) rfl
    rw [(Prod.mk.inj hsame).2]

/-- Whatever stands below a place stands in a directory there. -/
theorem Proper.directory_of_node? (h : t.Proper) (hrel : rel ≠ []) (hn : t.node? (place ++ rel) = some n) :
    t.node? place = some .directory := by
  induction rel using List.reverseRecOn generalizing n with
  | nil => exact absurd rfl hrel
  | append_singleton rel m ih =>
    have hmem := mem_nodes_of_node? (by simp) hn
    have hparent := h.parent _ hmem
    rw [← List.append_assoc, List.dropLast_concat] at hparent
    by_cases hnil : rel = []
    · simpa [hnil] using hparent
    · exact ih hnil hparent

theorem follow_append (t : Tree) (place a b : List String) :
    t.follow place (a ++ b) = t.follow place a >>= fun x => t.follow x.1 b := by
  induction a generalizing place with
  | nil =>
    rw [List.nil_append, follow.eq_1 t place]
    cases hn : t.node? place with
    | some n => rfl
    | none => cases b <;> simp [follow, hn, bind, Except.bind]
  | cons m a ih =>
    rw [List.cons_append, follow, follow]
    split
    · split
      · rfl
      · split
        · exact ih _
        · exact ih _
    · rfl
    · rfl

/-- Names lead from a directory to what is listed under them. -/
theorem Proper.follow_eq_ok_iff (h : t.Proper) (hrel : rel ≠ []) (hup : ".." ∉ rel) :
    t.follow place rel = .ok (names, n) ↔ names = place ++ rel ∧ t.node? (place ++ rel) = some n := by
  induction rel generalizing place with
  | nil => exact absurd rfl hrel
  | cons m rel ih =>
    have hm : m ≠ ".." := fun he => hup (he ▸ List.mem_cons_self)
    have hstep : t.follow (place ++ [m]) rel = .ok (names, n) ↔
        names = place ++ m :: rel ∧ t.node? (place ++ m :: rel) = some n := by
      cases rel with
      | nil =>
        rw [follow]
        cases hn : t.node? (place ++ [m]) <;> simp [eq_comm]
      | cons m' rel =>
        have hih := @ih (place ++ [m]) (by simp) (fun hu => hup (List.mem_cons_of_mem _ hu))
        simpa using hih
    rw [follow]
    split
    · split
      · next hlong =>
        refine iff_of_false (by simp) ?_
        rintro ⟨-, hn⟩
        have hname := h.name _ (mem_nodes_of_node? (by simp) hn) m (by simp)
        exact absurd hname.2.2.2 (Nat.not_le.mpr hlong)
      · exact hstep
    · next hfile =>
      refine iff_of_false (by simp) ?_
      rintro ⟨-, hn⟩
      cases hfile.symm.trans (h.directory_of_node? hrel hn)
    · next hnone =>
      refine iff_of_false (by simp) ?_
      rintro ⟨-, hn⟩
      cases hnone.symm.trans (h.directory_of_node? hrel hn)

/-! ## What stands below a directory -/

/-- A file stands at `q`, at some depth below `p`: names that never go back up lead on to it. -/
def IsFileBelow (t : Tree) (p q : Path) : Prop :=
  ∃ rel, rel ≠ [] ∧ ".." ∉ rel ∧ q = ⟨p.slashes, p.names ++ rel⟩ ∧ ∃ b, t.look q = .ok (some (.file b))

/-- Something stands below the directory at `p`, and `q`, its path, is too long for any file. -/
def IsOverlongBelow (t : Tree) (p q : Path) : Prop :=
  ∃ place rel, t.locate p = .ok (place, .directory) ∧ rel ≠ [] ∧ t.node? (place ++ rel) ≠ none ∧
    q = ⟨p.slashes, p.names ++ rel⟩ ∧ pathLimit < q.text.utf8ByteSize

theorem look_eq_some_iff : t.look p = .ok (some n) ↔ ∃ names, t.locate p = .ok (names, n) := by
  refine ⟨exists_locate_of_look, ?_⟩
  rintro ⟨names, h⟩
  rw [look, h]

theorem locate_eq_ok (h : t.locate p = .ok (names, n)) : p.hasNull = false ∧ p.text.utf8ByteSize ≤ pathLimit ∧
    t.follow [] (t.cwd.join p).names = .ok (names, n) := by
  rw [locate] at h
  split at h
  · cases h
  · next hnull =>
    split at h
    · cases h
    · next hlong => exact ⟨by simpa using hnull, Nat.not_lt.mp hlong, h⟩

/-- A path that leads on from a directory is followed from there. -/
theorem follow_below (hp : t.locate p = .ok (place, .directory)) (rel : List String) :
    t.follow [] (t.cwd.join ⟨p.slashes, p.names ++ rel⟩).names = t.follow place rel := by
  have hjoin : (t.cwd.join ⟨p.slashes, p.names ++ rel⟩).names = (t.cwd.join p).names ++ rel := by
    rw [Path.join, Path.join, Path.isAbsolute, Path.isAbsolute]
    split
    · rfl
    · exact (List.append_assoc _ _ _).symm
  rw [hjoin, follow_append, (locate_eq_ok hp).2.2]
  rfl

/-- A search of a directory fails on a path below it that is too long, and only then. -/
theorem overlong?_ne_none_iff (hp : t.locate p = .ok (place, .directory)) :
    t.overlong? p ≠ none ↔ ∃ q, t.IsOverlongBelow p q := by
  rw [ne_eq, overlong?_eq_none_iff hp]
  push Not
  constructor
  · rintro ⟨rel, hrel, hn, hlong⟩
    exact ⟨_, place, rel, hp, hrel, hn, rfl, hlong⟩
  · rintro ⟨_, place', rel, hp', hrel, hn, rfl, hlong⟩
    obtain rfl := congrArg Prod.fst (Except.ok.inj (hp.symm.trans hp'))
    exact ⟨rel, hrel, hn, hlong⟩

/-- No file has a name that is too long, and a path with one in the root is not even looked up. -/
theorem look_of_nameLimit_lt {name : String} (hnull : '\x00' ∉ name.toList) (hlong : nameLimit < name.utf8ByteSize) :
    t.look ⟨1, [name]⟩ = .error .nameTooLong := by
  have hloc : t.locate ⟨1, [name]⟩ = .error .nameTooLong := by
    rw [locate, if_neg (by simpa [Path.hasNull] using hnull)]
    split
    · rfl
    · exact if_pos hlong
  rw [look, hloc]

theorem Proper.isFileBelow_iff (h : t.Proper) (hp : t.locate p = .ok (place, .directory))
    (hshort : t.overlong? p = none) : t.IsFileBelow p q ↔
      ∃ rel b, rel ≠ [] ∧ q = ⟨p.slashes, p.names ++ rel⟩ ∧ t.node? (place ++ rel) = some (.file b) := by
  constructor
  · rintro ⟨rel, hrel, hup, rfl, b, hlook⟩
    obtain ⟨names, hloc⟩ := exists_locate_of_look hlook
    have hfollow := (locate_eq_ok hloc).2.2
    rw [follow_below hp, h.follow_eq_ok_iff hrel hup] at hfollow
    exact ⟨rel, b, hrel, rfl, hfollow.2⟩
  · rintro ⟨rel, b, hrel, rfl, hn⟩
    have hnames : ∀ m ∈ rel, IsName m := fun m hm =>
      h.name _ (mem_nodes_of_node? (by simp [hrel]) hn) m (List.mem_append_right _ hm)
    have hup : ".." ∉ rel := fun hm => (hnames _ hm).1 (by simp)
    have hnull : (⟨p.slashes, p.names ++ rel⟩ : Path).hasNull = false := by
      have hpnull : (p.names.any fun m => m.toList.contains '\x00') = false := (locate_eq_ok hp).1
      rw [Path.hasNull, List.any_append, hpnull, Bool.false_or, List.any_eq_false]
      exact fun m hm => by simpa using (hnames m hm).2.2.1
    have hlen := (overlong?_eq_none_iff hp).mp hshort rel hrel (by simp [hn])
    refine ⟨rel, hrel, hup, rfl, b, look_eq_some_iff.mpr ⟨place ++ rel, ?_⟩⟩
    rw [locate, hnull, if_neg (by simp), if_neg (Nat.not_lt.mpr hlen), follow_below hp]
    exact (h.follow_eq_ok_iff hrel hup).mpr ⟨rfl, hn⟩

theorem Proper.mem_below_iff (h : t.Proper) :
    rel ∈ t.below place ↔ rel ≠ [] ∧ ∃ b, t.node? (place ++ rel) = some (.file b) := by
  rw [Tree.mem_below_iff]
  constructor
  · rintro ⟨names, b, hm, hpre, rfl⟩
    obtain ⟨hpre, hlen⟩ := Bool.and_eq_true_iff.mp hpre
    obtain ⟨rel, rfl⟩ := List.isPrefixOf_iff_prefix.mp hpre
    have hrel : rel ≠ [] := by
      rintro rfl
      simp at hlen
    rw [List.drop_left]
    exact ⟨hrel, b, h.node?_of_mem (by simp [hrel]) hm⟩
  · rintro ⟨hrel, b, hn⟩
    have hlen : 0 < rel.length := List.length_pos_iff.mpr hrel
    exact ⟨_, b, mem_nodes_of_node? (by simp [hrel]) hn, by simpa using hlen, by simp⟩

/-- The files that are listed below a directory are those that paths lead to. -/
theorem Proper.mem_filesBelow_iff (h : t.Proper) (hp : t.locate p = .ok (place, .directory))
    (hshort : t.overlong? p = none) : q ∈ t.filesBelow p ↔ t.IsFileBelow p q := by
  rw [h.isFileBelow_iff hp hshort, filesBelow, hp]
  simp only [List.mem_mergeSort, List.mem_map, h.mem_below_iff]
  constructor
  · rintro ⟨rel, ⟨hrel, b, hn⟩, rfl⟩
    exact ⟨rel, b, hrel, rfl, hn⟩
  · rintro ⟨rel, b, hrel, rfl, hn⟩
    exact ⟨rel, ⟨hrel, b, hn⟩, rfl⟩

theorem Proper.nodup_below (h : t.Proper) (place : List String) : (t.below place).Nodup := by
  have hkeys := List.pairwise_map.mp h.nodup
  refine hkeys.filterMap _ ?_
  rintro ⟨names, n⟩ ⟨names', n'⟩ hne rel hrel rel' hrel' he
  cases n with
  | directory => cases hrel
  | file b =>
    cases n' with
    | directory => cases hrel'
    | file b' =>
      dsimp only at hrel hrel' hne
      split at hrel
      · split at hrel'
        · next hpre hpre' =>
          obtain ⟨hpre, -⟩ := Bool.and_eq_true_iff.mp hpre
          obtain ⟨hpre', -⟩ := Bool.and_eq_true_iff.mp hpre'
          obtain ⟨r, rfl⟩ := List.isPrefixOf_iff_prefix.mp hpre
          obtain ⟨r', rfl⟩ := List.isPrefixOf_iff_prefix.mp hpre'
          rw [List.drop_left, Option.some.injEq] at hrel hrel'
          exact hne (by rw [hrel, hrel', he])
        · cases hrel'
      · cases hrel

/-- The files below a directory are listed in increasing order of their names. -/
theorem Proper.pairwise_filesBelow (h : t.Proper) (p : Path) :
    (t.filesBelow p).Pairwise fun a b => a.names < b.names := by
  rw [filesBelow]
  split
  · next place _ =>
    have hinj : Function.Injective fun names => (⟨p.slashes, p.names ++ names⟩ : Path) := fun a b he =>
      List.append_cancel_left (congrArg Path.names he)
    have hnodup := (List.mergeSort_perm ((t.below place).map fun names => (⟨p.slashes, p.names ++ names⟩ : Path))
      Path.le).nodup_iff.mpr ((List.nodup_map_iff hinj).mpr (h.nodup_below place))
    have hsorted := @List.pairwise_mergeSort _ Path.le (fun a b c => Path.namesLe_trans)
      (fun a b => Path.namesLe_total _ _) ((t.below place).map fun names => ⟨p.slashes, p.names ++ names⟩)
    have hslashes : ∀ q ∈ ((t.below place).map fun names => (⟨p.slashes, p.names ++ names⟩ : Path)).mergeSort Path.le,
        q.slashes = p.slashes := by
      intro q hq
      obtain ⟨names, -, rfl⟩ := List.mem_map.mp (List.mem_mergeSort.mp hq)
      rfl
    -- paths of one list have the same slashes, so those with the same names are equal
    refine (hsorted.and hnodup).imp_of_mem fun {a b} ha hb hab => ?_
    refine (Path.namesLe_iff.mp hab.1).resolve_left fun he => hab.2 ?_
    obtain ⟨slashes, names⟩ := a
    obtain ⟨slashes', names'⟩ := b
    obtain rfl : names = names' := he
    obtain rfl : slashes = slashes' := (hslashes _ ha).trans (hslashes _ hb).symm
    rfl
  · exact .nil

end Tree

/-! ## Targets -/

namespace Settings

variable {t : Tree} {s : Settings} {targets : List String}

/-- Settings that a workspace can have: some disk holds them. -/
def Accepted (s : Settings) : Prop := ∃ tree root explicit, (load tree root explicit).collect.1 = .ok s

/-- The name of the file has a suffix, which is a suffix of scripts whatever their case. -/
def HasScriptSuffix (s : Settings) (q : Path) : Prop :=
  ∃ suffix, Path.HasSuffix q.name suffix ∧ ∃ e ∈ s.extensions, (LooseText.ofText suffix).lower = e.lower

/-- The suffixes of scripts begin with a dot. -/
theorem Accepted.dot (h : s.Accepted) {e : LooseText} (he : e ∈ s.extensions) : ∃ tail, e = .char '.' :: tail := by
  have hdefault : e ∈ defaultExtensions → ∃ tail, e = .char '.' :: tail := fun hm => ⟨_, List.mem_singleton.mp hm⟩
  obtain ⟨tree, root, explicit, hload⟩ := h
  cases hroot : root.hasNull with
  | true => simp [fst_collect_load_of_null hroot] at hload
  | false =>
    rw [fst_collect_load hroot, bind_eq_ok_iff] at hload
    obtain ⟨located, -, hfrom⟩ := hload
    cases located with
    | none =>
      cases explicit with
      | none =>
        obtain rfl := Except.ok.inj hfrom
        exact hdefault he
      | some p => cases hfrom
    | some path =>
      rw [fst_collect_loadFrom, bind_eq_ok_iff] at hfrom
      obtain ⟨v, -, hvalue⟩ := hfrom
      obtain ⟨_, -, -, -, hexts⟩ := exists_of_ofValue (mapError_eq_ok_iff.mp hvalue)
      exact dot_of_extensionList hexts he

/-- Without a settings file, there are settings all the same. -/
theorem accepted_default : (default ⟨1, []⟩).Accepted := by
  refine ⟨⟨[], ⟨1, []⟩⟩, ⟨1, []⟩, none, ?_⟩
  have hnone : firstThere ⟨[], ⟨1, []⟩⟩ (candidates ((⟨1, []⟩ : Path).resolve ⟨1, []⟩) none) = .ok none := by
    decide +kernel
  rw [fst_collect_load rfl, hnone]
  rfl

theorem isScript_iff (hs : s.Accepted) (q : Path) : s.isScript q = true ↔ s.HasScriptSuffix q := by
  rw [isScript, List.contains_iff_mem, List.mem_map, HasScriptSuffix]
  simp only [Path.hasSuffix_iff, LooseText.lower_ofText]
  constructor
  · rintro ⟨e, he, hlower⟩
    refine ⟨_, ⟨?_, rfl⟩, e, he, hlower.symm⟩
    -- a name without a suffix would have to match an empty one
    intro hnil
    obtain ⟨tail, rfl⟩ := hs.dot he
    rw [Path.suffix, hnil] at hlower
    exact absurd (LooseText.eq_nil_of_lower hlower) (by simp)
  · rintro ⟨_, ⟨-, rfl⟩, e, he, hlower⟩
    exact ⟨e, he, hlower.symm⟩

/-- What one target stands for: files, and records about them. -/
inductive StandsFor (s : Settings) (t : Tree) (target : String) : List Path × List Log.Record → Prop
  | directory {files : List Path} (hlook : t.look (s.root.join (Path.ofString target)) = .ok (some .directory))
      (hfiles : ∀ q, q ∈ files ↔ t.IsFileBelow (s.root.join (Path.ofString target)) q ∧ s.HasScriptSuffix q)
      (hsorted : files.Pairwise fun a b => a.names < b.names) : StandsFor s t target (files, [])
  | file {content : Bytes} (hlook : t.look (s.root.join (Path.ofString target)) = .ok (some (.file content))) :
      StandsFor s t target ([s.root.join (Path.ofString target)], [])
  | absent (hlook : t.look (s.root.join (Path.ofString target)) = .ok none) :
      StandsFor s t target ([], [skippedRecord target])

/-- The search meets with a name or a path that is too long for any file, in the target or below it. -/
def Unsearchable (s : Settings) (t : Tree) (target : String) : Prop :=
  t.look (s.root.join (Path.ofString target)) = .error .nameTooLong ∨
    ∃ q, t.IsOverlongBelow (s.root.join (Path.ofString target)) q

/-- The files and the records of a target that could be searched. -/
def part (target : String) (found : Option (List Path)) : List Path × List Log.Record :=
  match found with
  | none => ([], [skippedRecord target])
  | some files => (files, [])

theorem discover_stands (hp : t.Proper) (hs : s.Accepted) {target : String}
    (hlook : t.look (s.root.join (Path.ofString target)) = .ok (some .directory))
    (hshort : t.overlong? (s.root.join (Path.ofString target)) = none) :
    StandsFor s t target (s.discover t (s.root.join (Path.ofString target)), []) := by
  obtain ⟨place, hloc⟩ := Tree.exists_locate_of_look hlook
  refine .directory hlook (fun q => ?_) ((hp.pairwise_filesBelow _).filter _)
  rw [discover, List.mem_filter, hp.mem_filesBelow_iff hloc hshort, isScript_iff hs]

/-- One target: what it stands for is found, unless it cannot be searched. -/
theorem filesOf_finds (hp : t.Proper) (hs : s.Accepted) (target : String) :
    (∃ found, s.filesOf t target = .ok found ∧ ¬Unsearchable s t target ∧ StandsFor s t target (part target found)) ∨
      ∃ q, s.filesOf t target = .error (.unreachable .nameTooLong q) ∧ Unsearchable s t target := by
  have hnone : ∀ {n}, t.look (s.root.join (Path.ofString target)) = .ok n → n ≠ some .directory →
      ¬Unsearchable s t target := by
    rintro n hlook hn (h | ⟨q, place, _, hloc, -⟩)
    · cases hlook.symm.trans h
    · exact hn (Except.ok.inj (hlook.symm.trans (Tree.look_eq_some_iff.mpr ⟨place, hloc⟩)))
  delta filesOf
  dsimp only
  cases hlook : t.look (s.root.join (Path.ofString target)) with
  | error f =>
    obtain rfl := Tree.eq_nameTooLong_of_look hlook
    exact .inr ⟨_, rfl, .inl hlook⟩
  | ok n =>
    cases n with
    | none => exact .inl ⟨none, rfl, hnone hlook (by simp), .absent hlook⟩
    | some n =>
      cases n with
      | file content => exact .inl ⟨some [_], rfl, hnone hlook (by simp), .file hlook⟩
      | directory =>
        obtain ⟨place, hloc⟩ := Tree.exists_locate_of_look hlook
        have hbelow := Tree.overlong?_ne_none_iff hloc
        cases hshort : t.overlong? (s.root.join (Path.ofString target)) with
        | none =>
          rw [hshort] at hbelow
          refine .inl ⟨some _, rfl, ?_, discover_stands hp hs hlook hshort⟩
          rintro (h | h)
          · cases hlook.symm.trans h
          · exact hbelow.mpr h rfl
        | some q =>
          rw [hshort] at hbelow
          exact .inr ⟨q, rfl, .inr (hbelow.mp (by simp))⟩

/-- One more target, if it could be searched. -/
theorem collect_cons {target : String} {found : Option (List Path)} (hf : s.filesOf t target = .ok found) :
    s.collect t (target :: targets) = ((s.collect t targets).1.map ((part target found).1 ++ ·),
      (part target found).2 ++ (s.collect t targets).2) := by
  rw [collect.eq_def]
  dsimp only
  rw [hf]
  cases found with
  | none => cases hrest : (s.collect t targets).1 <;> simp [part, Except.map]
  | some files => simp [part]

/-- A target that cannot be searched is the last one that counts. -/
theorem collect_cons_error {target : String} {m : Mishap} (hf : s.filesOf t target = .error m) :
    s.collect t (target :: targets) = (.error m, []) := by
  rw [collect.eq_def]
  dsimp only
  rw [hf]

/-- The files that are found are those that the targets stand for, one target after another, and so are the records.
The search ends early only at a name or a path that is too long for any file. -/
theorem collect_finds (hp : t.Proper) (hs : s.Accepted) (targets : List String) :
    ((∃ files, (s.collect t targets).1 = .ok files) ↔ ∀ target ∈ targets, ¬Unsearchable s t target) ∧
      (∀ files records, s.collect t targets = (.ok files, records) → ∃ parts,
        List.Forall₂ (StandsFor s t) targets parts ∧ files = parts.flatMap (·.1) ∧ records = parts.flatMap (·.2)) ∧
      ∀ m, (s.collect t targets).1 = .error m → ∃ q, m = .unreachable .nameTooLong q := by
  induction targets with
  | nil =>
    refine ⟨iff_of_true ⟨[], rfl⟩ (by simp), ?_, fun m h => by cases h⟩
    rintro files records h
    obtain ⟨hfiles, rfl⟩ := Prod.mk.inj h
    obtain rfl := Except.ok.inj hfiles
    exact ⟨[], .nil, rfl, rfl⟩
  | cons target targets ih =>
    obtain ⟨hiff, hok, herror⟩ := ih
    rcases filesOf_finds hp hs target with ⟨found, hf, hsearch, hstands⟩ | ⟨q, hf, hsearch⟩
    · rw [collect_cons hf]
      refine ⟨?_, ?_, ?_⟩
      · simp only [map_eq_ok_iff, List.forall_mem_cons, ← hiff]
        exact ⟨fun ⟨_, files, h, _⟩ => ⟨hsearch, files, h⟩, fun ⟨_, files, h⟩ => ⟨_, files, h, rfl⟩⟩
      · rintro files records h
        obtain ⟨hfiles, rfl⟩ := Prod.mk.inj h
        obtain ⟨rest, hrest, rfl⟩ := map_eq_ok_iff.mp hfiles
        obtain ⟨parts, hparts, rfl, hrecords⟩ := hok rest _ (Prod.ext hrest rfl)
        exact ⟨part target found :: parts, .cons hstands hparts, rfl,
          congrArg ((part target found).2 ++ ·) hrecords⟩
      · rintro m h
        refine herror m ?_
        cases hrest : (s.collect t targets).1 with
        | error m' => simpa [hrest, Except.map] using h
        | ok files => simp [hrest, Except.map] at h
    · rw [collect_cons_error hf]
      refine ⟨?_, by simp, ?_⟩
      · simp [hsearch]
      · rintro m h
        exact ⟨q, (Except.error.inj h).symm⟩

/-- Found below the root: two scripts, one of them with a suffix in capitals, ordered by their names and not by the
characters of their paths. A name that is nothing but a dot and a suffix has none. -/
theorem collect_finds_workspace :
    let t : Tree := ⟨[([".scp"], .file []), (["a"], .directory), (["a", "b.SCP"], .file []), (["a", "c.txt"], .file []),
      (["a-b.scp"], .file [])], ⟨1, []⟩⟩
    let s : Settings := .default ⟨1, []⟩
    let targets := [".", "a/c.txt", "missing"]
    let files : List Path := [⟨1, ["a", "b.SCP"]⟩, ⟨1, ["a-b.scp"]⟩, ⟨1, ["a", "c.txt"]⟩]
    t.Proper ∧ s.Accepted ∧ s.collect t targets = (.ok files, [skippedRecord "missing"]) ∧
      ∃ parts, List.Forall₂ (StandsFor s t) targets parts ∧ files = parts.flatMap (·.1) := by
  intro t s targets files
  have hproper : t.Proper := ⟨by decide +kernel, by decide +kernel, by decide +kernel⟩
  have hloc : t.locate ⟨1, []⟩ = .ok ([], .directory) := by decide +kernel
  have hshort : t.overlong? ⟨1, []⟩ = none := by
    rw [Tree.overlong?, hloc]
    simp only [List.find?_eq_none, List.mem_mergeSort]
    decide +kernel
  have hbelow : t.filesBelow ⟨1, []⟩ =
      [⟨1, [".scp"]⟩, ⟨1, ["a", "b.SCP"]⟩, ⟨1, ["a", "c.txt"]⟩, ⟨1, ["a-b.scp"]⟩] := by
    rw [Tree.filesBelow, hloc]
    exact List.mergeSort_of_pairwise (by decide +kernel)
  have hroot : s.filesOf t "." = .ok (some [⟨1, ["a", "b.SCP"]⟩, ⟨1, ["a-b.scp"]⟩]) := by
    have hpath : s.root.join (Path.ofString ".") = ⟨1, []⟩ := by
      rw [Path.ofString_eq]
      decide +kernel
    have hlook : t.look ⟨1, []⟩ = .ok (some .directory) := by decide +kernel
    simp only [filesOf, hpath, hlook, hshort, discover, hbelow]
    decide +kernel
  have hfile : s.filesOf t "a/c.txt" = .ok (some [⟨1, ["a", "c.txt"]⟩]) := by
    rw [filesOf, Path.ofString_eq]
    decide +kernel
  have hmissing : s.filesOf t "missing" = .ok none := by
    rw [filesOf, Path.ofString_eq]
    decide +kernel
  have hcollect : s.collect t targets = (.ok files, [skippedRecord "missing"]) := by
    rw [collect_cons hroot, collect_cons hfile, collect_cons hmissing]
    rfl
  obtain ⟨-, hok, -⟩ := collect_finds hproper accepted_default targets
  obtain ⟨parts, hparts, hfiles, -⟩ := hok _ _ hcollect
  exact ⟨hproper, accepted_default, hcollect, parts, hparts, hfiles⟩

/-- Nothing stands at a name of 256 bytes, but the search ends there: the script behind it is not found, and no record
tells about the name. -/
theorem collect_overlong :
    let t : Tree := ⟨[(["b.scp"], .file [])], ⟨1, []⟩⟩
    let s : Settings := .default ⟨1, []⟩
    let target := String.ofList (List.replicate 256 'a')
    t.Proper ∧ s.Accepted ∧ s.collect t ["b.scp"] = (.ok [⟨1, ["b.scp"]⟩], []) ∧
      s.collect t [target, "b.scp"] = (.error (.unreachable .nameTooLong ⟨1, [target]⟩), []) := by
  intro t s target
  have hproper : t.Proper := ⟨by decide +kernel, by decide +kernel, by decide +kernel⟩
  have hchars : target.toList = List.replicate 256 'a' := String.toList_ofList
  have hnot : ∀ c ∈ target.toList, c = 'a' := by
    rw [hchars]
    exact fun c hc => List.eq_of_mem_replicate hc
  have hlong : Tree.nameLimit < target.utf8ByteSize := by
    rw [String.utf8ByteSize_ofList]
    decide +kernel
  have hpath : s.root.join (Path.ofString target) = ⟨1, [target]⟩ := by
    rw [Path.ofString_of_not_mem]
    · rfl
    · exact fun hc => absurd (hnot _ hc) (by decide)
    · exact fun he => absurd (he ▸ hlong) (by decide)
    · exact fun he => absurd (he ▸ hlong) (by decide)
  have hscript : s.filesOf t "b.scp" = .ok (some [⟨1, ["b.scp"]⟩]) := by
    rw [filesOf, Path.ofString_eq]
    decide +kernel
  have herror : s.filesOf t target = .error (.unreachable .nameTooLong ⟨1, [target]⟩) := by
    rw [filesOf, hpath, Tree.look_of_nameLimit_lt (fun hc => absurd (hnot _ hc) (by decide)) hlong]
  refine ⟨hproper, accepted_default, ?_, collect_cons_error herror⟩
  rw [collect_cons hscript]
  rfl

end Settings

end ScriptCase
