import Mathlib.Data.List.TakeWhile
import ScriptCase.Codec.ReadBack
import ScriptCase.Files.LoosePath

/-!
# The way along a loose path

A path without halves is shown as it is and leads where it always did (`Tree.readLoose_ofPath`). Any path may be refused
for its names alone: no file has a name with a stray half or a null character in it (`LoosePath.mishap?_eq_none_iff`).
Paths are resolved name by name, so that the first such name ends the way even if double dots come behind it
(`LoosePath.walk_eq_error_iff`), and a path without such names is resolved (`LoosePath.exists_resolve?_iff`).
-/

namespace ScriptCase

namespace LooseText

/-- Some file may have the name: no half in it is stray, and there is no null character. -/
def IsNameable (n : LooseText) : Prop := (∀ c ∈ n, c.isStray = false) ∧ .char '\x00' ∉ n

theorem spelled?_ofText (t : Text) : (ofText t).spelled? = some (String.ofList t) := by
  have hbytes : (ofText t).bytes = Utf8.encode t := by
    rw [bytes, ofText, List.flatMap_map]
    rfl
  rw [spelled?, hbytes, Utf8.decode_encode]

theorem strayFault?_eq_none_iff {t : LooseText} : t.strayFault? = none ↔ ∀ c ∈ t, c.isStray = false := by
  have hdrop : (t.dropWhile fun p => !p.isStray) = [] ↔ ∀ c ∈ t, c.isStray = false := by
    rw [List.dropWhile_eq_nil_iff]
    simp
  rw [strayFault?, ← hdrop]
  cases t.dropWhile fun p => !p.isStray <;> simp

theorem mem_intercalate_iff {sep c : CodePoint} (hc : c ≠ sep) {ns : List LooseText} :
    c ∈ List.intercalate [sep] ns ↔ ∃ n ∈ ns, c ∈ n := by
  induction ns with
  | nil => simp
  | cons n ns ih =>
    cases ns with
    | nil => simp
    | cons n' ns =>
      rw [List.intercalate_cons_cons, List.mem_append, List.mem_append, ih]
      simp [hc]

end LooseText

namespace LoosePath

theorem isNameable_above : above.IsNameable := by
  simp [LooseText.IsNameable, above, CodePoint.isStray]

@[simp] theorem onDisk?_ofPath (p : Path) : (ofPath p).onDisk? = some p := by
  have hnames : (p.names.map fun n => LooseText.ofText n.toList).mapM LooseText.spelled? = some p.names := by
    induction p.names with
    | nil => rfl
    | cons n ns ih => simp [LooseText.spelled?_ofText, ih]
  rw [onDisk?, ofPath, hnames]
  rfl

@[simp] theorem shown_ofPath (p : Path) : (ofPath p).shown = p := by
  simp [shown, ofPath, Function.comp_def]

/-- A path may be that of a file if all its names may be. -/
theorem mishap?_eq_none_iff {p : LoosePath} : p.mishap? = none ↔ ∀ n ∈ p.names, n.IsNameable := by
  have hstray : p.text.strayFault? = none ↔ ∀ n ∈ p.names, ∀ c ∈ n, c.isStray = false := by
    have hslash : (CodePoint.char '/').isStray = false := rfl
    rw [LooseText.strayFault?_eq_none_iff, text]
    split
    · next h => simp [h.2, CodePoint.isStray]
    · constructor
      · intro h n hn c hc
        by_cases hs : c = .char '/'
        · rw [hs, hslash]
        · exact h c (List.mem_append_right _ ((LooseText.mem_intercalate_iff hs).mpr ⟨n, hn, hc⟩))
      · intro h c hc
        by_cases hs : c = .char '/'
        · rw [hs, hslash]
        · rcases List.mem_append.mp hc with hc | hc
          · exact absurd (List.mem_replicate.mp hc).2 hs
          · obtain ⟨n, hn, hc⟩ := (LooseText.mem_intercalate_iff hs).mp hc
            exact h n hn c hc
  have hnull : p.hasNull = false ↔ ∀ n ∈ p.names, .char '\x00' ∉ n := by
    simp [hasNull]
  simp only [LooseText.IsNameable, imp_and, forall_and, ← hstray, ← hnull]
  rw [mishap?]
  cases p.text.strayFault? <;> cases p.hasNull <;> simp

/-! ## Resolving -/

/-- The mishap that ends the way along names from the root of the disk: the names before some name are passed, and the
path up to that name cannot be that of a file. -/
def Stumbles (names : List LooseText) (m : Mishap) : Prop :=
  ∃ before n after done, names = before ++ n :: after ∧ walk [] before = .ok done ∧ n ≠ above ∧
    (⟨1, done ++ [n]⟩ : LoosePath).mishap? = some m

/-- A list is divided at its first element or behind it. -/
theorem exists_divided_cons_iff {n : LooseText} {ns : List LooseText} {P : List LooseText → LooseText → Prop} :
    (∃ before m after, n :: ns = before ++ m :: after ∧ P before m) ↔
      P [] n ∨ ∃ before m after, ns = before ++ m :: after ∧ P (n :: before) m := by
  constructor
  · rintro ⟨_ | ⟨n', before⟩, m, after, hns, hp⟩
    · obtain ⟨rfl, rfl⟩ := List.cons.inj hns
      exact Or.inl hp
    · obtain ⟨rfl, rfl⟩ := List.cons.inj hns
      exact Or.inr ⟨before, m, after, rfl, hp⟩
  · rintro (hp | ⟨before, m, after, rfl, hp⟩)
    · exact ⟨[], n, ns, rfl, hp⟩
    · exact ⟨n :: before, m, after, rfl, hp⟩

theorem walk_eq_error_iff {names : List LooseText} {m : Mishap} : walk [] names = .error m ↔ Stumbles names m := by
  -- the way may have begun before
  suffices ∀ done, walk done names = .error m ↔ ∃ before n after, names = before ++ n :: after ∧
      ∃ passed, walk done before = .ok passed ∧ n ≠ above ∧ (⟨1, passed ++ [n]⟩ : LoosePath).mishap? = some m by
    rw [this, Stumbles]
    simp only [exists_and_left]
  induction names with
  | nil => simp [walk]
  | cons n ns ih =>
    intro done
    rw [exists_divided_cons_iff]
    by_cases hn : n = above
    · simp [walk, hn, ih]
    · cases hp : (⟨1, done.reverse ++ [n]⟩ : LoosePath).mishap? with
      | some m' => simp [walk, hn, hp]
      | none => simp [walk, hn, hp, ih]

theorem resolve?_eq_error_iff {root : Path} {p : LoosePath} {m : Mishap} :
    p.resolve? root = .error m ↔ Stumbles ((ofPath root).join p).names m := by
  rw [resolve?, ← walk_eq_error_iff]
  cases walk [] ((ofPath root).join p).names <;> simp [Except.map]

/-- The way along names comes to its end just if some file may have each of them. The names that it begins with are
such names. -/
theorem exists_walk_iff {done names : List LooseText} (hdone : ∀ n ∈ done, n.IsNameable) :
    (∃ passed, walk done names = .ok passed) ↔ ∀ n ∈ names, n.IsNameable := by
  induction names generalizing done with
  | nil => simp [walk]
  | cons n ns ih =>
    rw [walk, List.forall_mem_cons]
    by_cases hn : n = above
    · rw [if_pos hn, ih fun m hm => hdone m (List.mem_of_mem_tail hm)]
      exact (and_iff_right (hn ▸ isNameable_above)).symm
    · have hpath : (⟨1, (n :: done).reverse⟩ : LoosePath).mishap? = none ↔ n.IsNameable := by
        rw [mishap?_eq_none_iff]
        simpa [or_imp, forall_and] using fun _ => hdone
      rw [if_neg hn]
      cases hp : (⟨1, (n :: done).reverse⟩ : LoosePath).mishap? with
      | some m =>
        rw [hp] at hpath
        simpa using fun h => absurd (hpath.mpr h) (by simp)
      | none =>
        have hname := hpath.mp hp
        rw [ih (List.forall_mem_cons.mpr ⟨hname, hdone⟩)]
        exact (and_iff_right hname).symm

/-- A path is resolved just if some file may have each of its names. -/
theorem exists_resolve?_iff {root : Path} {p : LoosePath} :
    (∃ q, p.resolve? root = .ok q) ↔ ∀ n ∈ ((ofPath root).join p).names, n.IsNameable := by
  rw [← exists_walk_iff (List.forall_mem_nil LooseText.IsNameable), resolve?]
  cases walk [] ((ofPath root).join p).names <;> simp [Except.map]

end LoosePath

theorem Tree.readLoose_ofPath (t : Tree) (p : Path) : t.readLoose (.ofPath p) = t.read p := by
  rw [readLoose, LoosePath.onDisk?_ofPath]

end ScriptCase
