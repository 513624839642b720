import ScriptCase.Proofs.DiffLines
import ScriptCase.Proofs.EditScripts

/-!
# Applying diffs

A diff between two texts is a patch: applied to the old text it gives the new one (`Diff.patch?_unified`), and it is
empty only between equal texts. `Diff.patch?` is how such a patch is applied. It reads nothing but the diff and the old
text, takes the places and the lengths of hunks from their headers, and fails where a line is not what the diff says.

Line by line, applying is a machine (`Patching.step?`). A hunk brings it from the end of the hunk before to its own end
(`Patching.run_hunk`). The run over all hunks (`Patching.run_hunksFrom`) follows the function that cuts a script into
hunks: what was cut off in between is copied from the old text, and is the same in the new one.
-/

namespace ScriptCase
namespace Diff

/-! ## Reading a diff -/

/-- Reads a number. -/
def number? (t : Text) : Option Nat :=
  if t ≠ [] ∧ t.all Char.isDigit = true then some (Nat.ofDigitChars 10 t 0) else none

/-- The lines that a hunk covers on one side: how many are before them, and how many they are. -/
structure Extent where
  start : Nat
  length : Nat
  deriving DecidableEq

/-- Reads a range of lines. A length of one is left out. The first line is counted from one, but if there are no lines
the line before them is given instead. -/
def extent? (t : Text) : Option Extent := do
  let first ← number? (t.takeWhile (· != ','))
  let length ← match t.dropWhile (· != ',') with
    | [] => some 1
    | _ :: cs => number? cs
  if length = 0 then some ⟨first, 0⟩
  else if first = 0 then none
  else some ⟨first - 1, length⟩

/-- Reads the first line of a hunk. -/
def header? : Text → Option (Extent × Extent)
  | '@' :: '@' :: ' ' :: '-' :: t =>
    match t.dropWhile (· != ' ') with
    | ' ' :: '+' :: t' =>
      if t'.dropWhile (· != ' ') = [' ', '@', '@', '\n'] then do
        let old ← extent? (t.takeWhile (· != ' '))
        let new ← extent? (t'.takeWhile (· != ' '))
        return (old, new)
      else none
    | _ => none
  | _ => none

/-- How far a patch has been applied: the number of lines of the old text that were read, the lines that were written,
and how many lines of either kind are still to come in the present hunk. -/
structure Patching where
  read : Nat
  written : List Text
  oldLeft : Nat
  newLeft : Nat

namespace Patching

/-- No hunk is open. -/
def IsIdle (s : Patching) : Prop := s.oldLeft = 0 ∧ s.newLeft = 0

instance (s : Patching) : Decidable s.IsIdle := inferInstanceAs (Decidable (_ ∧ _))

/-- Begins a hunk. The lines before it are copied, and must lead to the same place on both sides. -/
def enter? (old : List Text) (s : Patching) (o n : Extent) : Option Patching :=
  let gap := o.start - s.read
  if s.read ≤ o.start ∧ o.start + o.length ≤ old.length ∧ n.start = s.written.length + gap then
    some ⟨o.start, s.written ++ (old.drop s.read).take gap, o.length, n.length⟩
  else none

/-- Applies a line of a hunk. One that is kept or taken away must be the next one of the old text. -/
def move? (old : List Text) (s : Patching) : Text → Option Patching
  | ' ' :: l =>
    if 0 < s.oldLeft ∧ 0 < s.newLeft ∧ old[s.read]? = some l then
      some ⟨s.read + 1, s.written ++ [l], s.oldLeft - 1, s.newLeft - 1⟩
    else none
  | '-' :: l =>
    if 0 < s.oldLeft ∧ old[s.read]? = some l then some ⟨s.read + 1, s.written, s.oldLeft - 1, s.newLeft⟩ else none
  | '+' :: l => if 0 < s.newLeft then some ⟨s.read, s.written ++ [l], s.oldLeft, s.newLeft - 1⟩ else none
  | _ => none

/-- Applies one line of a patch. -/
def step? (old : List Text) (s : Patching) (line : Text) : Option Patching :=
  if s.IsIdle then (header? line).bind fun (o, n) => s.enter? old o n else s.move? old line

/-- Ends a patch: the rest of the old text is copied. -/
def finish? (old : List Text) (s : Patching) : Option (List Text) :=
  if s.IsIdle then some (s.written ++ old.drop s.read) else none

end Patching

/-- Applies the lines of a patch to those of a text. -/
def patchLines? (old diff : List Text) : Option (List Text) := do
  let s ← diff.foldlM (Patching.step? old) ⟨0, [], 0, 0⟩
  s.finish? old

/-- Applies a patch to a text. An empty patch changes nothing, any other one begins with the names of the two texts. -/
def patch? (old diff : Text) : Option Text :=
  match lines diff with
  | [] => some old
  | a :: b :: hunks =>
    if ['-', '-', '-', ' '] <+: a ∧ ['+', '+', '+', ' '] <+: b then (patchLines? (lines old) hunks).map List.flatten
    else none
  | _ => none

/-! ## Headers -/

theorem isDigit_of_mem_toDigits {n : Nat} {c : Char} (h : c ∈ Nat.toDigits 10 n) : c.isDigit = true :=
  Nat.isDigit_of_mem_toDigits (by decide) (by decide) h

theorem number?_toDigits (n : Nat) : number? (Nat.toDigits 10 n) = some n := by
  have hdigits : (Nat.toDigits 10 n).all Char.isDigit = true := List.all_eq_true.mpr fun c => isDigit_of_mem_toDigits
  rw [number?, if_pos ⟨Nat.toDigits_ne_nil, hdigits⟩, Nat.ofDigitChars_ten_toDigits]

theorem toList_rangeText (start length : Nat) : (rangeText start length).toList =
    if length = 1 then Nat.toDigits 10 (start + 1)
    else if length = 0 then Nat.toDigits 10 start ++ ',' :: Nat.toDigits 10 0
    else Nat.toDigits 10 (start + 1) ++ ',' :: Nat.toDigits 10 length := by
  unfold rangeText
  split
  · simp
  · split <;> simp

theorem mem_rangeText {start length : Nat} {c : Char} (h : c ∈ (rangeText start length).toList) :
    c.isDigit = true ∨ c = ',' := by
  have hpair : ∀ {n m : Nat}, c ∈ Nat.toDigits 10 n ++ ',' :: Nat.toDigits 10 m → c.isDigit = true ∨ c = ',' := by
    intro n m hc
    rcases List.mem_append.mp hc with hc | hc
    · exact .inl (isDigit_of_mem_toDigits hc)
    · rcases List.mem_cons.mp hc with rfl | hc
      · exact .inr rfl
      · exact .inl (isDigit_of_mem_toDigits hc)
  rw [toList_rangeText] at h
  split at h
  · exact .inl (isDigit_of_mem_toDigits h)
  · split at h
    · exact hpair h
    · exact hpair h

/-- A number is read up to a comma. -/
theorem span_toDigits (n : Nat) {rest : Text} (hrest : ∀ c, rest.head? = some c → c = ',') :
    (Nat.toDigits 10 n ++ rest).takeWhile (· != ',') = Nat.toDigits 10 n ∧
      (Nat.toDigits 10 n ++ rest).dropWhile (· != ',') = rest := by
  have hdigits : ∀ c ∈ Nat.toDigits 10 n, (c != ',') = true := by
    intro c hc
    rw [bne_iff_ne]
    rintro rfl
    exact absurd (isDigit_of_mem_toDigits hc) (by decide)
  rw [List.takeWhile_append_of_pos hdigits, List.dropWhile_append_of_pos hdigits]
  cases rest with
  | nil => simp
  | cons c cs =>
    obtain rfl := hrest c rfl
    simp

theorem extent?_number (n : Nat) : extent? (Nat.toDigits 10 n) = if n = 0 then none else some ⟨n - 1, 1⟩ := by
  have hspan := @span_toDigits n [] (by simp)
  rw [List.append_nil] at hspan
  simp [extent?, hspan, number?_toDigits]

theorem extent?_numbers (n m : Nat) : extent? (Nat.toDigits 10 n ++ ',' :: Nat.toDigits 10 m) =
    if m = 0 then some ⟨n, 0⟩ else if n = 0 then none else some ⟨n - 1, m⟩ := by
  have hspan := @span_toDigits n (',' :: Nat.toDigits 10 m) (by simp)
  simp [extent?, hspan, number?_toDigits]

/-- Ranges are read as they were printed. -/
theorem extent?_rangeText (start length : Nat) : extent? (rangeText start length).toList = some ⟨start, length⟩ := by
  rw [toList_rangeText]
  split
  · next h =>
    rw [h, extent?_number, if_neg (by omega), Nat.add_sub_cancel]
  · split
    · next h => rw [h, extent?_numbers, if_pos rfl]
    · next h => rw [extent?_numbers, if_neg h, if_neg (by omega), Nat.add_sub_cancel]

/-- The first line of a hunk. -/
def headerLine (o n : Extent) : Text :=
  ("@@ -" ++ rangeText o.start o.length ++ " +" ++ rangeText n.start n.length ++ " @@\n").toList

theorem toList_headerLine (o n : Extent) : headerLine o n = '@' :: '@' :: ' ' :: '-' ::
    ((rangeText o.start o.length).toList ++ ' ' :: '+' ::
      ((rangeText n.start n.length).toList ++ [' ', '@', '@', '\n'])) := by
  simp [headerLine]

/-- A range is read up to a blank. -/
theorem span_rangeText (start length : Nat) (cs : Text) :
    ((rangeText start length).toList ++ ' ' :: cs).takeWhile (· != ' ') = (rangeText start length).toList ∧
      ((rangeText start length).toList ++ ' ' :: cs).dropWhile (· != ' ') = ' ' :: cs := by
  have hrange : ∀ c ∈ (rangeText start length).toList, (c != ' ') = true := by
    intro c hc
    rw [bne_iff_ne]
    rintro rfl
    exact absurd (mem_rangeText hc) (by decide)
  rw [List.takeWhile_append_of_pos hrange, List.dropWhile_append_of_pos hrange]
  simp

/-- Headers are read as they were printed. -/
theorem header?_headerLine (o n : Extent) : header? (headerLine o n) = some (o, n) := by
  have ho := span_rangeText o.start o.length ('+' :: ((rangeText n.start n.length).toList ++ [' ', '@', '@', '\n']))
  have hn := span_rangeText n.start n.length ['@', '@', '\n']
  rw [toList_headerLine]
  simp only [header?, ho, hn, if_pos, extent?_rangeText]
  rfl

theorem isDigit_of_endsLine {c : Char} (h : endsLine c = true) : c.isDigit = false := by
  simp only [endsLine, Bool.or_eq_true, beq_iff_eq] at h
  rcases h with ((((((((rfl | rfl) | rfl) | rfl) | rfl) | rfl) | rfl) | rfl) | rfl) | rfl <;> decide

theorem isLine_headerLine (o n : Extent) : IsLine (headerLine o n) := by
  have hrange : ∀ start length, ∀ c ∈ (rangeText start length).toList, endsLine c = false := by
    intro start length c hc
    rcases mem_rangeText hc with hc | rfl
    · refine Bool.eq_false_iff.mpr fun h => ?_
      rw [isDigit_of_endsLine h] at hc
      cases hc
    · decide
  have hbody : ∀ c ∈ '@' :: '@' :: ' ' :: '-' :: ((rangeText o.start o.length).toList ++ ' ' :: '+' ::
      ((rangeText n.start n.length).toList ++ [' ', '@', '@'])), endsLine c = false := by
    simp only [List.forall_mem_cons, List.forall_mem_append, List.not_mem_nil, false_implies, implies_true, and_true]
    exact ⟨by decide, by decide, by decide, by decide, hrange _ _, by decide, by decide, hrange _ _, by decide,
      by decide, by decide⟩
  have hline := IsLine.one hbody (show endsLine '\n' = true by decide)
  rw [toList_headerLine]
  simpa using hline

/-! ## Applying hunks -/

namespace Patching

variable {old : List Text} {read : Nat}

/-- A line that is kept. -/
theorem step?_keep {l : Text} (hl : old[read]? = some l) (written : List Text) (m n : Nat) :
    step? old ⟨read, written, m + 1, n + 1⟩ (' ' :: l) = some ⟨read + 1, written ++ [l], m, n⟩ := by
  have hidle : ¬IsIdle ⟨read, written, m + 1, n + 1⟩ := fun h => absurd h.1 (Nat.succ_ne_zero m)
  rw [step?, if_neg hidle, move?, if_pos ⟨Nat.succ_pos m, Nat.succ_pos n, hl⟩]
  rfl

/-- A line that is taken away. -/
theorem step?_old {l : Text} (hl : old[read]? = some l) (written : List Text) (m n : Nat) :
    step? old ⟨read, written, m + 1, n⟩ ('-' :: l) = some ⟨read + 1, written, m, n⟩ := by
  have hidle : ¬IsIdle ⟨read, written, m + 1, n⟩ := fun h => absurd h.1 (Nat.succ_ne_zero m)
  rw [step?, if_neg hidle, move?, if_pos ⟨Nat.succ_pos m, hl⟩]
  rfl

/-- A line that is put in. -/
theorem step?_new (old : List Text) (read : Nat) (l : Text) (written : List Text) (m n : Nat) :
    step? old ⟨read, written, m, n + 1⟩ ('+' :: l) = some ⟨read, written ++ [l], m, n⟩ := by
  have hidle : ¬IsIdle ⟨read, written, m, n + 1⟩ := fun h => absurd h.2 (Nat.succ_ne_zero n)
  rw [step?, if_neg hidle, move?, if_pos (Nat.succ_pos n)]
  rfl

theorem cons_prefix_drop {l : Text} {ls : List Text} (h : l :: ls <+: old.drop read) :
    old[read]? = some l ∧ ls <+: old.drop (read + 1) := by
  obtain ⟨rest, hrest⟩ := h
  obtain ⟨hl, hdrop⟩ := getElem?_of_drop_eq_cons hrest.symm
  exact ⟨hl, rest, hdrop.symm⟩

theorem run_keep {ls : List Text} (h : ls <+: old.drop read) (written : List Text) (m n : Nat) :
    (ls.map (' ' :: ·)).foldlM (step? old) ⟨read, written, ls.length + m, ls.length + n⟩ =
      some ⟨read + ls.length, written ++ ls, m, n⟩ := by
  induction ls generalizing read written with
  | nil => simp
  | cons l ls ih =>
    obtain ⟨hl, htail⟩ := cons_prefix_drop h
    rw [List.map_cons, List.foldlM_cons, List.length_cons, Nat.add_right_comm, Nat.add_right_comm _ 1 n, step?_keep hl]
    show (ls.map (' ' :: ·)).foldlM (step? old) _ = _
    rw [ih htail, Nat.add_right_comm, List.append_assoc]
    rfl

theorem run_old {ls : List Text} (h : ls <+: old.drop read) (written : List Text) (m n : Nat) :
    (ls.map ('-' :: ·)).foldlM (step? old) ⟨read, written, ls.length + m, n⟩ =
      some ⟨read + ls.length, written, m, n⟩ := by
  induction ls generalizing read with
  | nil => simp
  | cons l ls ih =>
    obtain ⟨hl, htail⟩ := cons_prefix_drop h
    rw [List.map_cons, List.foldlM_cons, List.length_cons, Nat.add_right_comm, step?_old hl]
    show (ls.map ('-' :: ·)).foldlM (step? old) _ = _
    rw [ih htail, Nat.add_right_comm]
    rfl

theorem run_new (old : List Text) (read : Nat) (ls written : List Text) (m n : Nat) :
    (ls.map ('+' :: ·)).foldlM (step? old) ⟨read, written, m, ls.length + n⟩ = some ⟨read, written ++ ls, m, n⟩ := by
  induction ls generalizing written with
  | nil => simp
  | cons l ls ih =>
    rw [List.map_cons, List.foldlM_cons, List.length_cons, Nat.add_right_comm, step?_new]
    show (ls.map ('+' :: ·)).foldlM (step? old) _ = _
    rw [ih, List.append_assoc]
    rfl

theorem append_prefix_drop {a b : List Text} (h : a ++ b <+: old.drop read) :
    a <+: old.drop read ∧ b <+: old.drop (read + a.length) := by
  obtain ⟨rest, hrest⟩ := h
  constructor
  · exact ⟨b ++ rest, by rw [← hrest, List.append_assoc]⟩
  · refine ⟨rest, ?_⟩
    rw [← List.drop_drop, ← hrest, List.append_assoc, List.drop_left]

/-- The lines of a stretch are applied as the stretch says. -/
theorem run_segment (x : Segment Text) (h : x.old <+: old.drop read) (written : List Text) (m n : Nat) :
    (segmentLines x).foldlM (step? old) ⟨read, written, x.old.length + m, x.new.length + n⟩ =
      some ⟨read + x.old.length, written ++ x.new, m, n⟩ := by
  cases x with
  | keep ls => exact run_keep h written m n
  | change o n' =>
    have hold := run_old (show o <+: old.drop read from h) written m (n'.length + n)
    rw [segmentLines, List.foldlM_append]
    exact (congrArg (· >>= _) hold).trans (run_new old _ n' written m n)

/-- And so are those of a script. -/
theorem run_body (body : EditScript Text) (h : body.old <+: old.drop read) (written : List Text) :
    (body.flatMap segmentLines).foldlM (step? old) ⟨read, written, body.old.length, body.new.length⟩ =
      some ⟨read + body.old.length, written ++ body.new, 0, 0⟩ := by
  induction body generalizing read written with
  | nil => simp
  | cons x body ih =>
    obtain ⟨hx, hbody⟩ := append_prefix_drop h
    rw [List.flatMap_cons, List.foldlM_append, EditScript.old_cons, EditScript.new_cons, List.length_append,
      List.length_append, run_segment x hx]
    show (body.flatMap segmentLines).foldlM (step? old) _ = _
    rw [ih hbody, Nat.add_assoc, List.append_assoc]

/-- A hunk leads from the end of the hunk before to its own end. -/
theorem run_hunk (h : Hunk) {gap written : List Text} (hread : read + gap.length ≤ old.length)
    (hleft : gap ++ h.body.old <+: old.drop read) (hold : h.oldStart = read + gap.length)
    (hnew : h.newStart = written.length + gap.length) :
    (hunkLines h).foldlM (step? old) ⟨read, written, 0, 0⟩ =
      some ⟨h.oldStart + h.body.old.length, written ++ gap ++ h.body.new, 0, 0⟩ := by
  obtain ⟨hgap, hbody⟩ := append_prefix_drop hleft
  have hlen := hbody.length_le
  rw [List.length_drop] at hlen
  have hsub : h.oldStart - read = gap.length := by omega
  have henter : enter? old ⟨read, written, 0, 0⟩ ⟨h.oldStart, h.body.old.length⟩ ⟨h.newStart, h.body.new.length⟩ =
      some ⟨h.oldStart, written ++ gap, h.body.old.length, h.body.new.length⟩ := by
    unfold enter?
    dsimp only
    rw [if_pos ⟨by omega, by omega, by omega⟩, hsub, List.prefix_iff_eq_take.mp hgap]
    simp
  have hstep : step? old ⟨read, written, 0, 0⟩ (headerLine ⟨h.oldStart, h.body.old.length⟩
      ⟨h.newStart, h.body.new.length⟩) = some ⟨h.oldStart, written ++ gap, h.body.old.length, h.body.new.length⟩ := by
    rw [step?, if_pos ⟨rfl, rfl⟩, header?_headerLine]
    exact henter
  show (headerLine ⟨h.oldStart, h.body.old.length⟩ ⟨h.newStart, h.body.new.length⟩ ::
    h.body.flatMap segmentLines).foldlM (step? old) _ = _
  rw [List.foldlM_cons, hstep]
  show (h.body.flatMap segmentLines).foldlM (step? old) _ = _
  rw [run_body h.body (by rw [hold]; exact hbody)]

/-- A hunk in the making, and the rest of a script, fit what is left of the old text: `gap` lies before the hunk and
`tail` behind the script. -/
structure Fits (old : List Text) (read : Nat) (written gap : List Text) (h : Hunk) (i j : Nat)
    (rest : EditScript Text) (tail : List Text) : Prop where
  read_le : read ≤ old.length
  left : old.drop read = gap ++ (h.body.old ++ (rest.old ++ tail))
  oldStart : h.oldStart = read + gap.length
  newStart : h.newStart = written.length + gap.length
  oldEnd : i = h.oldStart + h.body.old.length
  newEnd : j = h.newStart + h.body.new.length

namespace Fits

variable {written gap tail : List Text} {h : Hunk} {i j : Nat} {rest rest' : EditScript Text}

theorem le (hfits : Fits old read written gap h i j rest tail) : i + rest.old.length ≤ old.length := by
  have hlen := congrArg List.length hfits.left
  have hread := hfits.read_le
  have hstart := hfits.oldStart
  have hend := hfits.oldEnd
  simp only [List.length_append, List.length_drop] at hlen
  omega

theorem drop_end (hfits : Fits old read written gap h i j rest tail) : old.drop i = rest.old ++ tail := by
  rw [hfits.oldEnd, hfits.oldStart, ← List.drop_drop, ← List.drop_drop, hfits.left, List.drop_left, List.drop_left]

/-- The rest of the script matters by what it covers. -/
theorem congr_rest (hfits : Fits old read written gap h i j rest tail) (hrest : rest'.old = rest.old) :
    Fits old read written gap h i j rest' tail :=
  { hfits with left := by rw [hrest, hfits.left] }

/-- The hunk grows by the next stretch. -/
theorem extend {x : Segment Text} (hfits : Fits old read written gap h i j (x :: rest) tail) :
    Fits old read written gap { h with body := h.body ++ [x] } (i + x.old.length) (j + x.new.length) rest tail where
  read_le := hfits.read_le
  left := by simp [hfits.left]
  oldStart := hfits.oldStart
  newStart := hfits.newStart
  oldEnd := by simp [hfits.oldEnd, Nat.add_assoc]
  newEnd := by simp [hfits.newEnd, Nat.add_assoc]

/-- The hunk is applied. -/
theorem run (hfits : Fits old read written gap h i j rest tail) :
    (hunkLines h).foldlM (step? old) ⟨read, written, 0, 0⟩ = some ⟨i, written ++ gap ++ h.body.new, 0, 0⟩ := by
  have hle := hfits.le
  have hstart := hfits.oldStart
  have hend := hfits.oldEnd
  have hleft : gap ++ h.body.old <+: old.drop read := ⟨rest.old ++ tail, by rw [hfits.left, List.append_assoc]⟩
  rw [hend]
  exact run_hunk h (by omega) hleft hstart hfits.newStart

/-- A new hunk begins behind a stretch that is kept and not shown. -/
theorem skip {gap' : List Text} (hfits : Fits old read written gap h i j (.keep gap' :: rest) tail) :
    Fits old i (written ++ gap ++ h.body.new) gap' ⟨i + gap'.length, j + gap'.length, []⟩ (i + gap'.length)
      (j + gap'.length) rest tail where
  read_le := by
    have hle := hfits.le
    omega
  left := by simp [hfits.drop_end, Segment.old]
  oldStart := rfl
  newStart := by
    have hstart := hfits.newStart
    have hend := hfits.newEnd
    simp only [List.length_append]
    omega
  oldEnd := rfl
  newEnd := rfl

end Fits

/-- An idle script is the same on both sides. -/
theorem old_eq_new_of_isIdle {s : EditScript Text} (h : isIdle s = true) : s.old = s.new := by
  unfold isIdle at h
  split at h
  · rfl
  · simp [Segment.old, Segment.new]
  · cases h

/-- A long stretch is its start, its end and what is in between. -/
theorem take_append_middle {ls : List Text} (h : 2 * context ≤ ls.length) :
    ls.take context ++ ((ls.drop context).take (ls.length - 2 * context) ++ ls.drop (ls.length - context)) = ls := by
  have hlast : ls.drop (ls.length - context) = (ls.drop context).drop (ls.length - 2 * context) := by
    rw [List.drop_drop]
    congr 1
    omega
  rw [hlast, List.take_append_drop, List.take_append_drop]

theorem finish?_idle (old : List Text) (read : Nat) (written : List Text) :
    finish? old ⟨read, written, 0, 0⟩ = some (written ++ old.drop read) := rfl

/-- The hunks of a script are applied one after another, and everything else is copied. -/
theorem run_hunksFrom {h : Hunk} {i j : Nat} {rest : EditScript Text} {written gap tail : List Text}
    (hfits : Fits old read written gap h i j rest tail) :
    ∃ s, ((hunksFrom h i j rest).flatMap hunkLines).foldlM (step? old) ⟨read, written, 0, 0⟩ = some s ∧
      s.finish? old = some (written ++ gap ++ h.body.new ++ (rest.new ++ tail)) := by
  fun_induction hunksFrom h i j rest generalizing read written gap with
  | case1 h i j hidle =>
    refine ⟨_, rfl, ?_⟩
    rw [finish?_idle, hfits.left, old_eq_new_of_isIdle hidle]
    simp
  | case2 h i j hidle =>
    refine ⟨⟨i, written ++ gap ++ h.body.new, 0, 0⟩, by simpa using hfits.run, ?_⟩
    rw [finish?_idle, hfits.drop_end]
    rfl
  | case3 h i j ls rest n hlong =>
    rename_i ih
    have hsplit := take_append_middle (Nat.le_of_lt hlong)
    have hfirst : Fits old read written gap { h with body := h.body ++ [Segment.keep (ls.take context)] } (i + context)
        (j + context) (.keep ((ls.drop context).take (n - 2 * context)) :: .keep (ls.drop (n - context)) :: rest)
        tail := by
      have htake : (ls.take context).length = context := by rw [List.length_take]; omega
      have hrest : EditScript.old (.keep (ls.take context) :: .keep ((ls.drop context).take (n - 2 * context)) ::
          .keep (ls.drop (n - context)) :: rest) = EditScript.old (.keep ls :: rest) := by
        simpa [Segment.old] using congrArg (· ++ EditScript.old rest) hsplit
      simpa only [Segment.old, Segment.new, htake] using (hfits.congr_rest hrest).extend
    have hnext : Fits old (i + context) (written ++ gap ++ (h.body ++ [Segment.keep (ls.take context)]).new)
        ((ls.drop context).take (n - 2 * context))
        ⟨i + n - context, j + n - context, [.keep (ls.drop (n - context))]⟩ (i + n) (j + n) rest tail := by
      have hmiddle : ((ls.drop context).take (n - 2 * context)).length = n - 2 * context := by
        rw [List.length_take, List.length_drop]
        omega
      have hlast : (ls.drop (n - context)).length = context := by rw [List.length_drop]; omega
      have hskipped := hfirst.skip.extend
      simp only [Segment.old, Segment.new, hmiddle, hlast, List.nil_append] at hskipped
      rw [show i + context + (n - 2 * context) + context = i + n by omega,
        show j + context + (n - 2 * context) + context = j + n by omega,
        show i + context + (n - 2 * context) = i + n - context by omega,
        show j + context + (n - 2 * context) = j + n - context by omega] at hskipped
      exact hskipped
    obtain ⟨s, hrun, hfinish⟩ := ih hnext
    refine ⟨s, ?_, ?_⟩
    · rw [List.flatMap_cons, List.foldlM_append, hfirst.run]
      exact hrun
    · rw [hfinish]
      simpa [Segment.new] using congrArg (written ++ gap ++ h.body.new ++ · ++ (EditScript.new rest ++ tail)) hsplit
  | case4 h i j ls rest n hshort =>
    rename_i ih
    obtain ⟨s, hrun, hfinish⟩ := ih hfits.extend
    exact ⟨s, hrun, by simpa [Segment.new] using hfinish⟩
  | case5 h i j o n rest ih =>
    obtain ⟨s, hrun, hfinish⟩ := ih hfits.extend
    exact ⟨s, hrun, by simpa [Segment.new] using hfinish⟩

end Patching

/-- The lines that are cut off in front are the same on both sides. -/
theorem exists_front (s : EditScript Text) : ∃ front : List Text, front.length = (trimFirst s).1 ∧
    s.old = front ++ (trimFirst s).2.old ∧ s.new = front ++ (trimFirst s).2.new := by
  unfold trimFirst
  split
  · next ls rest =>
    refine ⟨ls.take (ls.length - context), ?_, ?_, ?_⟩
    · rw [List.length_take]
      exact Nat.min_eq_left (Nat.sub_le _ _)
    · simp [Segment.old, ← List.append_assoc]
    · simp [Segment.new, ← List.append_assoc]
  · exact ⟨[], rfl, rfl, rfl⟩

/-- And so are those behind. -/
theorem exists_tail (s : EditScript Text) : ∃ tail : List Text,
    s.old = (trimLast s).old ++ tail ∧ s.new = (trimLast s).new ++ tail := by
  unfold trimLast
  split
  · next ls rest he =>
    obtain rfl : s = rest.reverse ++ [.keep ls] := by
      rw [← List.reverse_reverse s, he, List.reverse_cons]
    exact ⟨ls.drop context, by simp [Segment.old], by simp [Segment.new]⟩
  · exact ⟨[], by simp, by simp⟩

/-- The hunks of a script lead from the old list to the new one. -/
theorem patchLines?_hunks (s : EditScript Text) : patchLines? s.old ((hunks s).flatMap hunkLines) = some s.new := by
  obtain ⟨front, hlength, hold, hnew⟩ := exists_front s
  obtain ⟨tail, hold', hnew'⟩ := exists_tail (trimFirst s).2
  have hfits : Patching.Fits s.old 0 [] front ⟨(trimFirst s).1, (trimFirst s).1, []⟩ (trimFirst s).1 (trimFirst s).1
      (trimLast (trimFirst s).2) tail :=
    ⟨Nat.zero_le _, by simp [hold, hold'], by simp [hlength], by simp [hlength], by simp, by simp⟩
  obtain ⟨p, hrun, hfinish⟩ := Patching.run_hunksFrom hfits
  unfold patchLines? hunks
  rw [hrun, hnew, hnew']
  simpa using hfinish

/-! ## The lines of hunks -/

/-- All lines of a script are whole, on either side. -/
def IsWhole (s : EditScript Text) : Prop := (∀ l ∈ s.old, IsLine l) ∧ ∀ l ∈ s.new, IsLine l

theorem isWhole_append {s t : EditScript Text} : IsWhole (s ++ t) ↔ IsWhole s ∧ IsWhole t := by
  simp only [IsWhole, EditScript.old_concat, EditScript.new_concat, List.forall_mem_append]
  exact and_and_and_comm

theorem isWhole_cons {x : Segment Text} {s : EditScript Text} : IsWhole (x :: s) ↔ IsWhole [x] ∧ IsWhole s :=
  isWhole_append (s := [x])

theorem isWhole_keep {ls : List Text} : IsWhole [.keep ls] ↔ ∀ l ∈ ls, IsLine l := by
  simp [IsWhole, Segment.old, Segment.new]

theorem isWhole_keep_sublist {ls ls' : List Text} (h : IsWhole [.keep ls]) (hsub : ls'.Sublist ls) :
    IsWhole [.keep ls'] :=
  isWhole_keep.mpr fun l hl => isWhole_keep.mp h l (hsub.subset hl)

theorem isWhole_hunksFrom {h h' : Hunk} {i j : Nat} {rest : EditScript Text} (hbody : IsWhole h.body)
    (hrest : IsWhole rest) (hmem : h' ∈ hunksFrom h i j rest) : IsWhole h'.body := by
  fun_induction hunksFrom h i j rest with
  | case1 => cases hmem
  | case2 =>
    obtain rfl := List.mem_singleton.mp hmem
    exact hbody
  | case3 h i j ls rest n hlong =>
    rename_i ih
    obtain ⟨hkeep, hrest⟩ := isWhole_cons.mp hrest
    rcases List.mem_cons.mp hmem with rfl | hmem
    · exact isWhole_append.mpr ⟨hbody, isWhole_keep_sublist hkeep (List.take_sublist _ _)⟩
    · exact ih (isWhole_keep_sublist hkeep (List.drop_sublist _ _)) hrest hmem
  | case4 h i j ls rest n hshort =>
    rename_i ih
    obtain ⟨hkeep, hrest⟩ := isWhole_cons.mp hrest
    exact ih (isWhole_append.mpr ⟨hbody, hkeep⟩) hrest hmem
  | case5 h i j o n rest ih =>
    obtain ⟨hchange, hrest⟩ := isWhole_cons.mp hrest
    exact ih (isWhole_append.mpr ⟨hbody, hchange⟩) hrest hmem

theorem isWhole_hunks {s : EditScript Text} (h : IsWhole s) {h' : Hunk} (hmem : h' ∈ hunks s) : IsWhole h'.body := by
  obtain ⟨front, -, hold, hnew⟩ := exists_front s
  obtain ⟨tail, hold', hnew'⟩ := exists_tail (trimFirst s).2
  have hrest : IsWhole (trimLast (trimFirst s).2) :=
    ⟨fun l hl => h.1 l (by simp [hold, hold', hl]), fun l hl => h.2 l (by simp [hnew, hnew', hl])⟩
  exact isWhole_hunksFrom (by simp [IsWhole]) hrest hmem

theorem mem_segmentLines {x : Segment Text} {l : Text} (h : l ∈ segmentLines x) :
    ∃ mark l', l = mark :: l' ∧ mark ∈ [' ', '-', '+'] ∧ (l' ∈ x.old ∨ l' ∈ x.new) := by
  cases x with
  | keep ls =>
    obtain ⟨l', hl', rfl⟩ := List.mem_map.mp h
    exact ⟨' ', l', rfl, by simp, .inl hl'⟩
  | change o n =>
    rcases List.mem_append.mp h with h | h
    · obtain ⟨l', hl', rfl⟩ := List.mem_map.mp h
      exact ⟨'-', l', rfl, by simp, .inl hl'⟩
    · obtain ⟨l', hl', rfl⟩ := List.mem_map.mp h
      exact ⟨'+', l', rfl, by simp, .inr hl'⟩

/-- A mark stands before a line that was whole. -/
theorem isLine_of_mem_hunkLines {h : Hunk} (hbody : IsWhole h.body) {l : Text} (hl : l ∈ hunkLines h) :
    IsLine l ∧ l.head? ≠ some '\n' := by
  rcases List.mem_cons.mp hl with rfl | hl
  · refine ⟨isLine_headerLine ⟨_, _⟩ ⟨_, _⟩, ?_⟩
    simp
  · obtain ⟨x, hx, hl⟩ := List.mem_flatMap.mp hl
    obtain ⟨mark, l', rfl, hmark, hl'⟩ := mem_segmentLines hl
    have hline : IsLine l' := by
      rcases hl' with hl' | hl'
      · exact hbody.1 l' (List.mem_flatMap.mpr ⟨x, hx, hl'⟩)
      · exact hbody.2 l' (List.mem_flatMap.mpr ⟨x, hx, hl'⟩)
    have hmarks : endsLine mark = false ∧ mark ≠ '\n' := by
      simp only [List.mem_cons, List.not_mem_nil, or_false] at hmark
      rcases hmark with rfl | rfl | rfl <;> decide
    exact ⟨hline.cons hmarks.1, by simpa using hmarks.2⟩

/-! ## The diff between two texts -/

/-- The first lines of a diff name the texts. -/
theorem isLine_name {name : String} (hname : ∀ c ∈ name.toList, endsLine c = false) (front : String)
    (hfront : front.toList.any endsLine = false) : IsLine (front ++ name ++ "\n").toList := by
  have hbody : ∀ c ∈ front.toList ++ name.toList, endsLine c = false := by
    intro c hc
    rcases List.mem_append.mp hc with hc | hc
    · exact Bool.eq_false_iff.mpr fun h => absurd (List.any_eq_false.mp hfront c hc) (by simp [h])
    · exact hname c hc
  rw [String.toList_append, String.toList_append]
  exact .one hbody (by decide)

variable {old new : Text} {name : String}

theorem isLine_of_mem_unifiedLines (hold : Terminated old) (hnew : Terminated new)
    (hname : ∀ c ∈ name.toList, endsLine c = false) {l : Text} (hl : l ∈ unifiedLines old new name) :
    IsLine l ∧ l.head? ≠ some '\n' := by
  have hwhole : IsWhole (.align (lines old) (lines new)) := by
    constructor
    · exact fun l hl => isLine_of_mem_lines hold (by simpa using hl)
    · exact fun l hl => isLine_of_mem_lines hnew (by simpa using hl)
  unfold unifiedLines at hl
  split at hl
  · cases hl
  · rcases List.mem_cons.mp hl with rfl | hl
    · exact ⟨isLine_name hname "--- a/" (by decide), by simp⟩
    · rcases List.mem_cons.mp hl with rfl | hl
      · exact ⟨isLine_name hname "+++ b/" (by decide), by simp⟩
      · obtain ⟨h, hh, hl⟩ := List.mem_flatMap.mp hl
        exact isLine_of_mem_hunkLines (isWhole_hunks hwhole hh) hl

/-- A diff is split into the lines that it was printed from. -/
theorem lines_unified (hold : Terminated old) (hnew : Terminated new)
    (hname : ∀ c ∈ name.toList, endsLine c = false) : lines (unified old new name) = unifiedLines old new name :=
  lines_flatten fun _ => isLine_of_mem_unifiedLines hold hnew hname

/-- A text does not differ from itself. -/
theorem hunks_align_self (ls : List Text) : hunks (.align ls ls) = [] := by
  rw [EditScript.align_self]
  split
  · rfl
  · have hshort : ¬2 * context < ((ls.drop (ls.length - context)).take context).length := by
      rw [List.length_take]
      omega
    simp only [hunks, trimFirst, trimLast, List.reverse_cons, List.reverse_nil, List.nil_append, hunksFrom]
    rw [if_neg hshort]
    rfl

theorem patch?_unified_eq_some (hold : Terminated old) (hnew : Terminated new)
    (hname : ∀ c ∈ name.toList, endsLine c = false) : patch? old (unified old new name) = some new := by
  have hpatch := patchLines?_hunks (.align (lines old) (lines new))
  rw [EditScript.old_align, EditScript.new_align] at hpatch
  rw [patch?, lines_unified hold hnew hname]
  unfold unifiedLines
  cases hhunks : hunks (.align (lines old) (lines new)) with
  | nil =>
    rw [hhunks] at hpatch
    have hlines : lines old = lines new := by simpa [patchLines?, Patching.finish?, Patching.IsIdle] using hpatch
    rw [← flatten_lines old, hlines, flatten_lines]
  | cons h hs =>
    rw [hhunks] at hpatch
    dsimp only
    rw [if_pos (by simp), hpatch, Option.map_some, flatten_lines]

/-- **The diff between two texts is a patch from one to the other**, whatever lines are too common to begin a stretch.
It is empty between equal texts, and between no others. -/
theorem patch?_unified (hold : Terminated old) (hnew : Terminated new)
    (hname : ∀ c ∈ name.toList, endsLine c = false) :
    patch? old (unified old new name) = some new ∧ (unified old new name = [] ↔ old = new) := by
  have hpatch := patch?_unified_eq_some hold hnew hname
  refine ⟨hpatch, ?_, ?_⟩
  · intro hempty
    rw [hempty] at hpatch
    exact Option.some.inj hpatch
  · rintro rfl
    rw [unified, unifiedLines, hunks_align_self]
    rfl

/-- A line that occurs two hundred times is too common to begin a stretch, but is kept all the same. -/
theorem patch?_unified_common :
    let line := "end if\n".toList
    let old := (List.replicate 200 line).flatten
    let new := old ++ "end on\n".toList
    let diff := unified old new "a.scp"
    Terminated old ∧ Terminated new ∧ EditScript.isCommonIn (lines new) line = true ∧
      patch? old diff = some new ∧ diff ≠ [] := by
  intro line old new diff
  have hold : Terminated old := by
    intro c hc
    have hlast : old.getLast? = some '\n' := by decide +kernel
    obtain rfl := Option.some.inj (hlast.symm.trans hc)
    decide
  have hnew : Terminated new := by
    intro c hc
    have hlast : new.getLast? = some '\n' := by decide +kernel
    obtain rfl := Option.some.inj (hlast.symm.trans hc)
    decide
  have hname : ∀ c ∈ "a.scp".toList, endsLine c = false := by simp [endsLine]
  obtain ⟨hpatch, hempty⟩ := patch?_unified hold hnew hname
  refine ⟨hold, hnew, by decide +kernel, hpatch, fun h => ?_⟩
  have hlength := congrArg List.length (hempty.mp h)
  simp [new] at hlength

/-- A patch is for one text and fails on another. -/
example :
    let diff := unified "if\nend\n".toList "IF\nend\n".toList "a.scp"
    diff = "--- a/a.scp\n+++ b/a.scp\n@@ -1,2 +1,2 @@\n-if\n+IF\n end\n".toList ∧
      patch? "if\non\n".toList diff = none := by
  decide +kernel

end Diff
end ScriptCase
