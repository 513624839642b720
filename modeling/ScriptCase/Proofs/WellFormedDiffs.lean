import ScriptCase.Proofs.Patches

/-!
# Well-formed diffs

Whoever reads a diff splits it into lines. After the names of the two texts these must be hunks: a header that tells how
many lines there are of either text, and just as many lines (`Diff.WellFormed`).

A diff is printed with its lines one right after the other, so a line without an end runs into the next one. Only the
last line of either text can lack its end. If other lines take the place of that of the old text, they are printed
behind it, and the first of them is missing from its hunk (`Diff.not_areHunks_glue`). In all other cases a line without
an end is the last one of the diff, since scripts are tidy (`EditScript.isTidy_align`): before the last change lies a
line that is kept, thus whole. Hence that is the one way in which a diff is not well formed
(`Diff.wellFormed_unified_iff`).
-/

namespace ScriptCase
namespace Diff

/-! ## What hunks end with -/

/-- The same change, or a part of what is kept. -/
inductive IsPart : Segment Text → Segment Text → Prop
  | keep {part ls : List Text} (h : part <:+: ls) : IsPart (.keep part) (.keep ls)
  | change (o n : List Text) : IsPart (.change o n) (.change o n)

theorem IsPart.refl (x : Segment Text) : IsPart x x := by
  cases x with
  | keep ls => exact .keep (List.infix_refl ls)
  | change o n => exact .change o n

theorem IsPart.trans {x y z : Segment Text} (hxy : IsPart x y) (hyz : IsPart y z) : IsPart x z := by
  cases hyz with
  | keep hyz =>
    cases hxy with
    | keep hxy => exact .keep (hxy.trans hyz)
  | change o n => exact hxy

theorem exists_trimFirst {init : EditScript Text} (hinit : IsWhole init) (x : Segment Text) :
    ∃ init' x', (trimFirst (init ++ [x])).2 = init' ++ [x'] ∧ IsWhole init' ∧ IsPart x' x := by
  cases init with
  | nil =>
    cases x with
    | keep ls => exact ⟨[], _, rfl, hinit, .keep (List.drop_suffix _ ls).isInfix⟩
    | change o n => exact ⟨[], _, rfl, hinit, .change o n⟩
  | cons y init =>
    obtain ⟨hy, hrest⟩ := isWhole_cons.mp hinit
    cases y with
    | keep ls =>
      have hcut := isWhole_keep_sublist hy (List.drop_sublist (ls.length - context) ls)
      exact ⟨_ :: init, x, rfl, isWhole_cons.mpr ⟨hcut, hrest⟩, .refl x⟩
    | change o n => exact ⟨_ :: init, x, rfl, hinit, .refl x⟩

theorem exists_trimLast (init : EditScript Text) (x : Segment Text) :
    ∃ x', trimLast (init ++ [x]) = init ++ [x'] ∧ IsPart x' x := by
  unfold trimLast
  rw [List.reverse_concat]
  cases x with
  | keep ls => exact ⟨.keep (ls.take context), by simp, .keep (List.take_prefix _ ls).isInfix⟩
  | change o n => exact ⟨_, rfl, .change o n⟩

/-- A line that is whole and does not join the one before it. -/
def StandsAlone (l : Text) : Prop := IsLine l ∧ l.head? ≠ some '\n'

theorem exists_hunkLines {h : Hunk} (hbody : IsWhole h.body) (x : Segment Text) :
    ∃ front, (∀ l ∈ front, StandsAlone l) ∧ hunkLines { h with body := h.body ++ [x] } = front ++ segmentLines x := by
  refine ⟨headerLine ⟨h.oldStart, (h.body ++ [x]).old.length⟩ ⟨h.newStart, (h.body ++ [x]).new.length⟩ ::
    h.body.flatMap segmentLines, ?_, by simp [hunkLines, headerLine]⟩
  have hlines : ∀ l ∈ hunkLines h, StandsAlone l := fun l hl => isLine_of_mem_hunkLines hbody hl
  refine List.forall_mem_cons.mpr ⟨⟨isLine_headerLine _ _, by simp [toList_headerLine]⟩, ?_⟩
  exact (List.forall_mem_cons.mp hlines).2

theorem isIdle_concat_change (s : EditScript Text) (o n : List Text) : isIdle (s ++ [.change o n]) = false := by
  cases s with
  | nil => rfl
  | cons x s => cases x <;> cases s <;> rfl

/-- The last lines of the last hunk are those of the last stretch, as far as that is shown. -/
theorem exists_hunksFrom {h : Hunk} (hbody : IsWhole h.body) {init : EditScript Text} (hinit : IsWhole init)
    (x : Segment Text) (i j : Nat) :
    ∃ front x', (∀ l ∈ front, StandsAlone l) ∧ IsPart x' x ∧
      (hunksFrom h i j (init ++ [x])).flatMap hunkLines = front ++ segmentLines x' := by
  induction init generalizing h i j with
  | nil =>
    cases x with
    | keep ls =>
      rw [List.nil_append, hunksFrom]
      split
      · obtain ⟨front, hfront, hlines⟩ := exists_hunkLines hbody (.keep (ls.take context))
        exact ⟨front, _, hfront, .keep (List.take_prefix _ ls).isInfix, by simpa [hunksFrom, isIdle] using hlines⟩
      · rw [hunksFrom]
        split
        · exact ⟨[], .keep [], by simp, .keep (List.nil_infix), rfl⟩
        · obtain ⟨front, hfront, hlines⟩ := exists_hunkLines hbody (.keep ls)
          exact ⟨front, _, hfront, .refl _, by simpa using hlines⟩
    | change o n =>
      obtain ⟨front, hfront, hlines⟩ := exists_hunkLines hbody (.change o n)
      exact ⟨front, _, hfront, .refl _, by simpa [hunksFrom, isIdle_concat_change] using hlines⟩
  | cons y init ih =>
    obtain ⟨hy, hrest⟩ := isWhole_cons.mp hinit
    cases y with
    | keep ls =>
      rw [List.cons_append, hunksFrom]
      split
      · have hfirst : IsWhole (h.body ++ [.keep (ls.take context)]) :=
          isWhole_append.mpr ⟨hbody, isWhole_keep_sublist hy (List.take_sublist _ _)⟩
        have hnext : IsWhole [.keep (ls.drop (ls.length - context))] :=
          isWhole_keep_sublist hy (List.drop_sublist _ _)
        obtain ⟨front, x', hfront, hpart, hlines⟩ := ih (h := ⟨i + ls.length - context, j + ls.length - context, _⟩)
          hnext hrest (i + ls.length) (j + ls.length)
        refine ⟨hunkLines ⟨h.oldStart, h.newStart, h.body ++ [.keep (ls.take context)]⟩ ++ front, x',
          List.forall_mem_append.mpr ⟨?_, hfront⟩, hpart, ?_⟩
        · exact fun l hl => isLine_of_mem_hunkLines hfirst hl
        · rw [List.flatMap_cons, hlines, List.append_assoc]
      · exact ih (isWhole_append.mpr ⟨hbody, hy⟩) hrest _ _
    | change o n => exact ih (isWhole_append.mpr ⟨hbody, hy⟩) hrest _ _

theorem exists_hunks {init : EditScript Text} (hinit : IsWhole init) (x : Segment Text) :
    ∃ front x', (∀ l ∈ front, StandsAlone l) ∧ IsPart x' x ∧
      (hunks (init ++ [x])).flatMap hunkLines = front ++ segmentLines x' := by
  obtain ⟨init', y, hfirst, hinit', hy⟩ := exists_trimFirst hinit x
  obtain ⟨z, hlast, hz⟩ := exists_trimLast init' y
  obtain ⟨front, x', hfront, hpart, hlines⟩ := exists_hunksFrom
    (h := ⟨(trimFirst (init ++ [x])).1, (trimFirst (init ++ [x])).1, []⟩) (by simp [IsWhole]) hinit' z
    (trimFirst (init ++ [x])).1 (trimFirst (init ++ [x])).1
  refine ⟨front, x', hfront, hpart.trans (hz.trans hy), ?_⟩
  rw [hunks, ← hlines, ← hlast, ← hfirst]

/-! ## Counting the lines of hunks -/

/-- The line stands for one of the old text. -/
def isOldLine (l : Text) : Bool := l.head? == some ' ' || l.head? == some '-'

/-- The line stands for one of the new text. -/
def isNewLine (l : Text) : Bool := l.head? == some ' ' || l.head? == some '+'

/-- Hunks, one after another: each is a header, and as many lines of either text as the header tells. -/
inductive AreHunks : List Text → Prop
  | nil : AreHunks []
  | hunk {header : Text} {o n : Extent} {body rest : List Text} (hheader : header? header = some (o, n))
      (hbody : ∀ l ∈ body, isOldLine l = true ∨ isNewLine l = true) (hold : body.countP isOldLine = o.length)
      (hnew : body.countP isNewLine = n.length) (hrest : AreHunks rest) : AreHunks (header :: (body ++ rest))

/-- The diff is empty, or the lines that it is split into are the names of the two texts and hunks. -/
def WellFormed (diff : Text) : Prop :=
  lines diff = [] ∨ ∃ a b hunks, lines diff = a :: b :: hunks ∧ ['-', '-', '-', ' '] <+: a ∧
    ['+', '+', '+', ' '] <+: b ∧ AreHunks hunks

theorem countP_segmentLines (x : Segment Text) :
    (segmentLines x).countP isOldLine = x.old.length ∧ (segmentLines x).countP isNewLine = x.new.length := by
  cases x <;> simp [segmentLines, List.countP_map, Function.comp_def, isOldLine, isNewLine, Segment.old, Segment.new]

theorem countP_body (s : EditScript Text) : (s.flatMap segmentLines).countP isOldLine = s.old.length ∧
    (s.flatMap segmentLines).countP isNewLine = s.new.length := by
  induction s with
  | nil => simp
  | cons x s ih =>
    obtain ⟨hold, hnew⟩ := countP_segmentLines x
    simp [hold, hnew, ih]

/-- The hunks that are printed are hunks line by line. -/
theorem areHunks_hunkLines (hs : List Hunk) : AreHunks (hs.flatMap hunkLines) := by
  induction hs with
  | nil => exact .nil
  | cons h hs ih =>
    obtain ⟨hold, hnew⟩ := countP_body h.body
    refine .hunk (header?_headerLine ⟨h.oldStart, h.body.old.length⟩ ⟨h.newStart, h.body.new.length⟩) ?_ hold hnew ih
    intro l hl
    obtain ⟨x, -, hl⟩ := List.mem_flatMap.mp hl
    obtain ⟨mark, l', rfl, hmark, -⟩ := mem_segmentLines hl
    simp only [List.mem_cons, List.not_mem_nil, or_false] at hmark
    rcases hmark with rfl | rfl | rfl
    · exact .inl rfl
    · exact .inl rfl
    · exact .inr rfl

theorem head?_of_header? {l : Text} {p : Extent × Extent} (h : header? l = some p) : l.head? = some '@' := by
  unfold header? at h
  split at h
  · rfl
  · cases h

/-- How many lines of the new text the headers among the lines announce. -/
def announced : List Text → Nat
  | [] => 0
  | l :: ls => ((header? l).map fun p => p.2.length).getD 0 + announced ls

theorem announced_append (ls ls' : List Text) : announced (ls ++ ls') = announced ls + announced ls' := by
  induction ls with
  | nil => exact (Nat.zero_add _).symm
  | cons l ls ih => rw [List.cons_append, announced, announced, ih, Nat.add_assoc]

theorem announced_cons_of_head? {l : Text} (h : l.head? ≠ some '@') (ls : List Text) :
    announced (l :: ls) = announced ls := by
  have hnone : header? l = none := Option.eq_none_iff_forall_ne_some.mpr fun p hp => h (head?_of_header? hp)
  rw [announced, hnone]
  exact Nat.zero_add _

theorem announced_body {body : List Text} (h : ∀ l ∈ body, isOldLine l = true ∨ isNewLine l = true) :
    announced body = 0 := by
  induction body with
  | nil => rfl
  | cons l body ih =>
    obtain ⟨hl, hbody⟩ := List.forall_mem_cons.mp h
    have hhead : l.head? ≠ some '@' := by
      intro hat
      simp [isOldLine, isNewLine, hat] at hl
    rw [announced_cons_of_head? hhead, ih hbody]

/-- In hunks there are as many lines of the new text as are announced. -/
theorem AreHunks.announced_eq {ls : List Text} (h : AreHunks ls) : announced ls = ls.countP isNewLine := by
  induction h with
  | nil => rfl
  | @hunk header o n body rest hheader hbody hold hnew hrest ih =>
    have hother : isNewLine header = false := by
      rw [isNewLine, head?_of_header? hheader]
      rfl
    rw [announced, announced_append, announced_body hbody, hheader, ih, List.countP_cons, List.countP_append, hother,
      hnew]
    simp

/-- A line of the new text that is printed on the line of an old one is missing. -/
theorem not_areHunks_glue {front rest : List Text} {l l' : Text}
    (h : AreHunks (front ++ ('-' :: l) :: ('+' :: l') :: rest)) :
    ¬AreHunks (front ++ ('-' :: l ++ '+' :: l') :: rest) := by
  intro hglue
  have hcount := h.announced_eq
  have hcount' := hglue.announced_eq
  have hold : ∀ t, isNewLine ('-' :: t) = false := fun _ => rfl
  have hnew : isNewLine ('+' :: l') = true := rfl
  rw [announced_append, announced_cons_of_head? (by simp), announced_cons_of_head? (by simp)] at hcount
  rw [announced_append, List.cons_append, announced_cons_of_head? (by simp)] at hcount'
  simp only [List.countP_append, List.countP_cons, hold, hnew, Bool.false_eq_true, if_false, if_true]
    at hcount hcount'
  omega

/-! ## The diff between two texts -/

/-- The last line of the old text lacks its end, and other lines take its place. -/
def ReplacesOpenEnd (old new : Text) : Prop :=
  ¬Terminated old ∧ ∃ before o n, EditScript.align (lines old) (lines new) = before ++ [.change o n] ∧ o ≠ [] ∧ n ≠ []

variable {old new : Text} {name : String}

theorem lines_eq_of_align_eq {init : EditScript Text} {x : Segment Text}
    (h : EditScript.align (lines old) (lines new) = init ++ [x]) :
    lines old = EditScript.old init ++ x.old ∧ lines new = EditScript.new init ++ x.new := by
  have hold := EditScript.old_align (lines old) (lines new)
  have hnew := EditScript.new_align (lines old) (lines new)
  rw [h] at hold hnew
  simp [← hold, ← hnew]

/-- Only the last stretch of a script can hold a line without an end. -/
theorem isWhole_of_align_eq {init : EditScript Text} {x : Segment Text}
    (h : EditScript.align (lines old) (lines new) = init ++ [x]) : IsWhole init := by
  have htidy : EditScript.IsTidy (init ++ [x]) := h ▸ EditScript.isTidy_align (lines old) (lines new)
  obtain ⟨hlines, hlines'⟩ := lines_eq_of_align_eq h
  have hold := hlines ▸ mayEndOpen_lines old
  have hnew := hlines' ▸ mayEndOpen_lines new
  have hfull : x.old ≠ [] ∨ x.new ≠ [] := htidy.full x (by simp)
  cases x with
  | keep ls =>
    have hls : ls ≠ [] := by simpa [Segment.old, Segment.new] using hfull
    exact ⟨hold.isLine_of_mem hls, hnew.isLine_of_mem hls⟩
  | change o n =>
    rcases htidy.exists_keep rfl with rfl | ⟨before, ls, rfl, hls⟩
    · simp [IsWhole]
    · simp only [EditScript.old_concat, EditScript.new_concat, EditScript.old_cons, EditScript.new_cons,
        EditScript.old_nil, EditScript.new_nil, List.append_nil, Segment.old, Segment.new] at hold hnew
      refine isWhole_append.mpr ⟨⟨?_, ?_⟩, isWhole_keep.mpr ?_⟩
      · exact hold.left.isLine_of_mem hls
      · exact hnew.left.isLine_of_mem hls
      · -- a line that is kept is in both texts, and in one of them others come behind it
        intro l hl
        rcases hfull with ho | hn
        · exact hold.isLine_of_mem ho l (List.mem_append_right _ hl)
        · exact hnew.isLine_of_mem hn l (List.mem_append_right _ hl)

/-- Two texts that both lack their last end are such texts if they differ in the last line. -/
theorem replacesOpenEnd_of_getLast?_ne (hold : ¬Terminated old) (hnew : ¬Terminated new)
    (hne : (lines old).getLast? ≠ (lines new).getLast?) : ReplacesOpenEnd old new := by
  rcases List.eq_nil_or_concat' (EditScript.align (lines old) (lines new)) with hnil | ⟨before, x, halign⟩
  · have ho := EditScript.old_align (lines old) (lines new)
    have hn := EditScript.new_align (lines old) (lines new)
    rw [hnil] at ho hn
    exact absurd (congrArg List.getLast? (ho.symm.trans hn)) hne
  · obtain ⟨hlines, hlines'⟩ := lines_eq_of_align_eq halign
    obtain ⟨hbefore, hbefore'⟩ := isWhole_of_align_eq halign
    have ho : x.old ≠ [] := by
      intro hnil
      rw [hnil, List.append_nil] at hlines
      exact hold (terminated_of_isLine fun l hl => hbefore l (hlines ▸ hl))
    have hn : x.new ≠ [] := by
      intro hnil
      rw [hnil, List.append_nil] at hlines'
      exact hnew (terminated_of_isLine fun l hl => hbefore' l (hlines' ▸ hl))
    cases x with
    | keep ls =>
      rw [hlines, hlines', List.getLast?_append_of_ne_nil _ ho, List.getLast?_append_of_ne_nil _ hn] at hne
      exact absurd rfl hne
    | change o n => exact ⟨hold, before, o, n, halign, ho, hn⟩

theorem head?_of_mem_segmentLines {x : Segment Text} {l : Text} (hl : l ∈ segmentLines x) : l.head? ≠ some '\n' := by
  obtain ⟨mark, l', rfl, hmark, -⟩ := mem_segmentLines hl
  simp only [List.mem_cons, List.not_mem_nil, or_false] at hmark
  rcases hmark with rfl | rfl | rfl <;> simp

/-- The names come back as the first two lines, and what is printed behind them as it is split by itself. -/
theorem lines_named (hname : ∀ c ∈ name.toList, endsLine c = false) {ls : List Text} (hls : MayEndOpen ls)
    (hhead : ∀ l ∈ ls, l.head? ≠ some '\n') :
    lines (("--- a/" ++ name ++ "\n").toList :: ("+++ b/" ++ name ++ "\n").toList :: ls).flatten =
      ("--- a/" ++ name ++ "\n").toList :: ("+++ b/" ++ name ++ "\n").toList :: ls := by
  have hlines : MayEndOpen (("--- a/" ++ name ++ "\n").toList :: ("+++ b/" ++ name ++ "\n").toList :: ls) :=
    .cons (isLine_name hname "--- a/" (by decide)) (.cons (isLine_name hname "+++ b/" (by decide)) hls)
  apply hlines.lines_flatten
  exact List.forall_mem_cons.mpr ⟨by simp, List.forall_mem_cons.mpr ⟨by simp, hhead⟩⟩

theorem unifiedLines_of_ne_nil (h : (hunks (.align (lines old) (lines new))).flatMap hunkLines ≠ []) :
    unifiedLines old new name = ("--- a/" ++ name ++ "\n").toList :: ("+++ b/" ++ name ++ "\n").toList ::
      (hunks (.align (lines old) (lines new))).flatMap hunkLines := by
  unfold unifiedLines
  split
  · next hnil =>
    rw [hnil] at h
    exact absurd rfl h
  · rfl

/-- Where lines take the place of one without an end, the first of them runs on from it. -/
theorem exists_glue (hname : ∀ c ∈ name.toList, endsLine c = false) (h : ReplacesOpenEnd old new) :
    ∃ front l l' rest, (hunks (.align (lines old) (lines new))).flatMap hunkLines =
        front ++ ('-' :: l) :: ('+' :: l') :: rest ∧
      lines (unified old new name) = ("--- a/" ++ name ++ "\n").toList :: ("+++ b/" ++ name ++ "\n").toList ::
        (front ++ ('-' :: l ++ '+' :: l') :: rest) := by
  obtain ⟨hopen, before, o, n, halign, ho, hn⟩ := h
  obtain ⟨o, l, rfl⟩ := (List.eq_nil_or_concat' o).resolve_left ho
  obtain ⟨l', n, rfl⟩ := List.exists_cons_of_ne_nil hn
  obtain ⟨hlines, hlines'⟩ := lines_eq_of_align_eq halign
  rw [Segment.old, ← List.append_assoc] at hlines
  have hl : IsOpen l := isOpen_of_lines_eq hopen hlines
  have ho : ∀ l ∈ EditScript.old before ++ o, IsLine l :=
    (hlines ▸ mayEndOpen_lines old).isLine_of_mem (List.cons_ne_nil l [])
  have hn : MayEndOpen (l' :: n) := (hlines' ▸ mayEndOpen_lines new).right
  obtain ⟨front, x, hfront, hpart, hprinted⟩ := exists_hunks (isWhole_of_align_eq halign) (.change (o ++ [l]) (l' :: n))
  cases hpart
  rw [← halign] at hprinted
  refine ⟨front ++ o.map ('-' :: ·), l, l', n.map ('+' :: ·), by simp [hprinted, segmentLines], ?_⟩
  have hfront' : ∀ t ∈ front ++ o.map ('-' :: ·), StandsAlone t := by
    refine List.forall_mem_append.mpr ⟨hfront, List.forall_mem_map.mpr fun t ht => ⟨?_, by simp⟩⟩
    exact (ho t (List.mem_append_right _ ht)).cons (by decide)
  have hglue : MayEndOpen (('-' :: l ++ '+' :: l') :: n.map ('+' :: ·)) :=
    (hn.map_cons (show endsLine '+' = false by decide)).glue (List.forall_mem_cons.mpr ⟨by decide, hl.2⟩)
  rw [← lines_named hname (hglue.append fun t ht => (hfront' t ht).1), unified, unifiedLines_of_ne_nil, hprinted]
  · simp [segmentLines]
  · simp [hprinted, segmentLines]
  · refine List.forall_mem_append.mpr ⟨fun t ht => (hfront' t ht).2, ?_⟩
    simp

theorem not_wellFormed_of_replacesOpenEnd (hname : ∀ c ∈ name.toList, endsLine c = false)
    (h : ReplacesOpenEnd old new) : ¬WellFormed (unified old new name) := by
  obtain ⟨front, l, l', rest, hprinted, hlines⟩ := exists_glue hname h
  have hhunks := areHunks_hunkLines (hunks (.align (lines old) (lines new)))
  rw [hprinted] at hhunks
  rintro (hnil | ⟨a, b, hs, hcons, -, -, hread⟩)
  · rw [hlines] at hnil
    cases hnil
  · rw [hlines] at hcons
    obtain ⟨-, -, rfl⟩ : _ ∧ _ ∧ _ := by simpa only [List.cons.injEq] using hcons
    exact not_areHunks_glue hhunks hread

/-- Otherwise only the last line that is printed may lack its end. -/
theorem mayEndOpen_hunkLines (h : ¬ReplacesOpenEnd old new) :
    MayEndOpen ((hunks (.align (lines old) (lines new))).flatMap hunkLines) ∧
      ∀ l ∈ (hunks (.align (lines old) (lines new))).flatMap hunkLines, l.head? ≠ some '\n' := by
  rcases List.eq_nil_or_concat' (EditScript.align (lines old) (lines new)) with hnil | ⟨before, x, halign⟩
  · rw [hnil]
    exact ⟨.nil, by simp [hunks, trimFirst, trimLast, hunksFrom, isIdle]⟩
  · obtain ⟨hlines, hlines'⟩ := lines_eq_of_align_eq halign
    obtain ⟨front, x', hfront, hpart, hprinted⟩ := exists_hunks (isWhole_of_align_eq halign) x
    rw [halign, hprinted]
    refine ⟨.append (fun l hl => (hfront l hl).1) ?_, List.forall_mem_append.mpr
      ⟨fun l hl => (hfront l hl).2, fun l hl => head?_of_mem_segmentLines hl⟩⟩
    have hold : MayEndOpen x.old := (hlines ▸ mayEndOpen_lines old).right
    have hnew : MayEndOpen x.new := (hlines' ▸ mayEndOpen_lines new).right
    cases hpart with
    | keep hpart => exact (hold.of_infix hpart).map_cons (by decide)
    | change o n =>
      by_cases hn : n = []
      · subst hn
        rw [segmentLines, List.map_nil, List.append_nil]
        exact hold.map_cons (by decide)
      · have ho : ∀ l ∈ o, IsLine l := by
          by_cases hterminated : Terminated old
          · intro l hl
            apply isLine_of_mem_lines hterminated
            rw [hlines]
            exact List.mem_append_right _ hl
          · have ho : o = [] := not_not.mp fun ho => h ⟨hterminated, before, o, n, halign, ho, hn⟩
            simp [ho]
        refine .append ?_ (hnew.map_cons (by decide))
        exact List.forall_mem_map.mpr fun l hl => (ho l hl).cons (by decide)

/-- **A diff is well formed unless lines take the place of a last line without an end.** -/
theorem wellFormed_unified_iff (hname : ∀ c ∈ name.toList, endsLine c = false) :
    WellFormed (unified old new name) ↔ ¬ReplacesOpenEnd old new := by
  constructor
  · exact fun h hreplaces => not_wellFormed_of_replacesOpenEnd hname hreplaces h
  · intro h
    obtain ⟨hlines, hhead⟩ := mayEndOpen_hunkLines h
    unfold unified unifiedLines
    split
    · exact .inl rfl
    · exact .inr ⟨_, _, _, lines_named hname hlines hhead, by simp, by simp, areHunks_hunkLines _⟩

/-- A last line without an end that stays, below one that is replaced. -/
theorem wellFormed_unified_open_end :
    (∀ c ∈ "a.scp".toList, endsLine c = false) ∧ ¬Terminated "if\nend".toList ∧
      WellFormed (unified "if\nend".toList "IF\nend".toList "a.scp") := by
  have hname : ∀ c ∈ "a.scp".toList, endsLine c = false := by simp [endsLine]
  refine ⟨hname, ?_, (wellFormed_unified_iff hname).mpr ?_⟩
  · intro h
    exact absurd (h 'd' (by decide)) (by decide)
  · rintro ⟨-, before, o, n, halign, -, -⟩
    have hscript : EditScript.align (lines "if\nend".toList) (lines "IF\nend".toList) =
        [.change ["if\n".toList] ["IF\n".toList], .keep ["end".toList]] := by rfl
    have hlast := congrArg List.getLast? (hscript.symm.trans halign)
    simp at hlast

/-- The one line of a text lacks its end and is replaced: both are printed as one line. -/
theorem unified_glues_lines :
    (∀ c ∈ "a.scp".toList, endsLine c = false) ∧ ¬WellFormed (unified "begin".toList "BEGIN".toList "a.scp") := by
  have hname : ∀ c ∈ "a.scp".toList, endsLine c = false := by simp [endsLine]
  have hold : ¬Terminated "begin".toList := fun h => absurd (h 'n' (by decide)) (by decide)
  have hnew : ¬Terminated "BEGIN".toList := fun h => absurd (h 'N' (by decide)) (by decide)
  have hne : (lines "begin".toList).getLast? ≠ (lines "BEGIN".toList).getLast? := by decide
  exact ⟨hname, not_wellFormed_of_replacesOpenEnd hname (replacesOpenEnd_of_getLast?_ne hold hnew hne)⟩

/-- This is what is printed. -/
example : unified "begin".toList "BEGIN".toList "a.scp" =
    "--- a/a.scp\n+++ b/a.scp\n@@ -1 +1 @@\n-begin+BEGIN".toList := by
  decide +kernel

end Diff
end ScriptCase
