import Mathlib.Data.List.Basic
import ScriptCase.Diff.Unified

/-!
# The lines of a diff

A diff is printed as one text and split into lines by whoever reads it. Its lines come back (`Diff.lines_flatten`) if
each of them is a whole one (`Diff.IsLine`) that does not begin with a line feed: a line feed would join a carriage
return before it. Whole lines are what a text consists of that is empty or ends with the end of a line
(`Diff.isLine_of_mem_lines`). In any other text the last line lacks its end (`Diff.isOpen_of_lines_eq`), and lines of
which the last one may do so come back just the same (`Diff.MayEndOpen.lines_flatten`).
-/

namespace ScriptCase
namespace Diff

variable {t : Text} {l : Text}

/-- The text is empty or ends with the end of a line. -/
def Terminated (t : Text) : Prop := ∀ c, t.getLast? = some c → endsLine c = true

/-- A whole line: one end, and nothing before it that ends a line. -/
inductive IsLine : Text → Prop
  | one {body : Text} {c : Char} (hbody : ∀ b ∈ body, endsLine b = false) (hc : endsLine c = true) :
      IsLine (body ++ [c])
  | pair {body : Text} (hbody : ∀ b ∈ body, endsLine b = false) : IsLine (body ++ ['\r', '\n'])

theorem IsLine.ne_nil (h : IsLine l) : l ≠ [] := by
  cases h <;> simp

/-- A mark before a whole line makes a whole line. -/
theorem IsLine.cons (h : IsLine l) {mark : Char} (hmark : endsLine mark = false) : IsLine (mark :: l) := by
  cases h with
  | @one body c hbody hc =>
    rw [← List.cons_append]
    exact .one (List.forall_mem_cons.mpr ⟨hmark, hbody⟩) hc
  | @pair body hbody =>
    rw [← List.cons_append]
    exact .pair (List.forall_mem_cons.mpr ⟨hmark, hbody⟩)

theorem IsLine.append_left {front : Text} (hfront : ∀ c ∈ front, endsLine c = false) (h : IsLine l) :
    IsLine (front ++ l) := by
  induction front with
  | nil => exact h
  | cons c front ih =>
    obtain ⟨hc, hfront⟩ := List.forall_mem_cons.mp hfront
    exact (ih hfront).cons hc

theorem IsLine.terminated (h : IsLine l) : Terminated l := by
  intro c hc
  cases h with
  | one hbody hend =>
    obtain rfl : _ = c := by simpa using hc
    exact hend
  | pair hbody =>
    obtain rfl : '\n' = c := by simpa using hc
    decide

/-- A line without an end. -/
def IsOpen (l : Text) : Prop := l ≠ [] ∧ ∀ c ∈ l, endsLine c = false

theorem IsOpen.append_left {front : Text} (hfront : ∀ c ∈ front, endsLine c = false) (h : IsOpen l) :
    IsOpen (front ++ l) :=
  ⟨by simp [h.1], List.forall_mem_append.mpr ⟨hfront, h.2⟩⟩

theorem IsOpen.not_terminated (h : IsOpen l) : ¬Terminated l := by
  intro hend
  have hlast := hend _ (List.getLast?_eq_some_getLast h.1)
  rw [h.2 _ (List.getLast_mem h.1)] at hlast
  cases hlast

/-- All lines are whole, but the last one may lack its end. -/
inductive MayEndOpen : List Text → Prop
  | nil : MayEndOpen []
  | last {l : Text} (h : IsOpen l) : MayEndOpen [l]
  | cons {l : Text} {ls : List Text} (h : IsLine l) (hls : MayEndOpen ls) : MayEndOpen (l :: ls)

theorem mayEndOpen_cons {ls : List Text} :
    MayEndOpen (l :: ls) ↔ IsLine l ∧ MayEndOpen ls ∨ IsOpen l ∧ ls = [] := by
  constructor
  · intro h
    cases h with
    | last h => exact .inr ⟨h, rfl⟩
    | cons h hls => exact .inl ⟨h, hls⟩
  · rintro (⟨h, hls⟩ | ⟨h, rfl⟩)
    · exact .cons h hls
    · exact .last h

namespace MayEndOpen

variable {a b ls : List Text} {front : Text}

theorem append (ha : ∀ l ∈ a, IsLine l) (hb : MayEndOpen b) : MayEndOpen (a ++ b) := by
  induction a with
  | nil => exact hb
  | cons l a ih =>
    obtain ⟨hl, ha⟩ := List.forall_mem_cons.mp ha
    exact .cons hl (ih ha)

theorem of_isLine (h : ∀ l ∈ ls, IsLine l) : MayEndOpen ls := by simpa using append h .nil

theorem right (h : MayEndOpen (a ++ b)) : MayEndOpen b := by
  induction a with
  | nil => exact h
  | cons l a ih =>
    rcases mayEndOpen_cons.mp h with ⟨-, h⟩ | ⟨-, hnil⟩
    · exact ih h
    · rw [(List.append_eq_nil_iff.mp hnil).2]
      exact .nil

theorem left (h : MayEndOpen (a ++ b)) : MayEndOpen a := by
  induction a with
  | nil => exact .nil
  | cons l a ih =>
    rcases mayEndOpen_cons.mp h with ⟨hl, h⟩ | ⟨hl, hnil⟩
    · exact .cons hl (ih h)
    · rw [(List.append_eq_nil_iff.mp hnil).1]
      exact .last hl

theorem of_infix (h : MayEndOpen ls) (hsub : a <:+: ls) : MayEndOpen a := by
  obtain ⟨before, after, rfl⟩ := hsub
  exact h.left.right

/-- Lines with others behind them are whole. -/
theorem isLine_of_mem (h : MayEndOpen (a ++ b)) (hb : b ≠ []) : ∀ l ∈ a, IsLine l := by
  induction a with
  | nil => simp
  | cons l a ih =>
    rcases mayEndOpen_cons.mp h with ⟨hl, h⟩ | ⟨-, hnil⟩
    · exact List.forall_mem_cons.mpr ⟨hl, ih h⟩
    · exact absurd (List.append_eq_nil_iff.mp hnil).2 hb

theorem isLine_or_isOpen (h : MayEndOpen (a ++ [l])) : IsLine l ∨ IsOpen l :=
  (mayEndOpen_cons.mp h.right).imp And.left And.left

/-- The first line runs on from what has no end. -/
theorem glue (hfront : ∀ c ∈ front, endsLine c = false) (h : MayEndOpen (l :: ls)) :
    MayEndOpen ((front ++ l) :: ls) := by
  rcases mayEndOpen_cons.mp h with ⟨hl, hls⟩ | ⟨hl, rfl⟩
  · exact .cons (hl.append_left hfront) hls
  · exact .last (hl.append_left hfront)

/-- The lines get a mark in front. -/
theorem map_cons {mark : Char} (hmark : endsLine mark = false) (h : MayEndOpen ls) :
    MayEndOpen (ls.map (mark :: ·)) := by
  induction h with
  | nil => exact .nil
  | last h => exact .last (IsOpen.append_left (List.forall_mem_singleton.mpr hmark) h)
  | cons h hls ih => exact .cons (h.cons hmark) ih

end MayEndOpen

/-! ## Splitting -/

theorem linesFrom_cons {c : Char} (line cs : Text) (h : c = '\r' → cs.head? ≠ some '\n') :
    linesFrom line (c :: cs) =
      if endsLine c then (c :: line).reverse :: linesFrom [] cs else linesFrom (c :: line) cs := by
  rw [linesFrom.eq_def]
  split
  · next he => simp at he
  · next he =>
    obtain ⟨rfl, rfl⟩ := List.cons.inj he
    simp at h
  · next he =>
    obtain ⟨rfl, rfl⟩ := List.cons.inj he
    rfl

theorem linesFrom_append {body : Text} (hbody : ∀ b ∈ body, endsLine b = false) (line rest : Text) :
    linesFrom line (body ++ rest) = linesFrom (body.reverse ++ line) rest := by
  induction body generalizing line with
  | nil => rfl
  | cons b body ih =>
    have hb := hbody b List.mem_cons_self
    have hcr : b ≠ '\r' := by
      rintro rfl
      simp [endsLine] at hb
    rw [List.cons_append, linesFrom_cons _ _ (fun h => absurd h hcr), hb, if_neg (by simp),
      ih fun b' hb' => hbody b' (List.mem_cons_of_mem _ hb')]
    simp

/-- A whole line is the first one of a text, unless a line feed follows that it takes along. -/
theorem lines_append (h : IsLine l) {rest : Text} (hrest : rest.head? ≠ some '\n') :
    lines (l ++ rest) = l :: lines rest := by
  unfold lines
  cases h with
  | @one body c hbody hc =>
    rw [List.append_assoc, linesFrom_append hbody, List.singleton_append, linesFrom_cons _ _ (fun _ => hrest), hc,
      if_pos rfl]
    simp
  | @pair body hbody =>
    rw [List.append_assoc, linesFrom_append hbody]
    simp [linesFrom]

theorem lines_of_isOpen (h : IsOpen l) : lines l = [l] := by
  have hline := linesFrom_append h.2 [] []
  rw [List.append_nil, List.append_nil] at hline
  rw [lines, hline, linesFrom, if_neg (by simpa using h.1), List.reverse_reverse]

/-- Lines that are printed one after another come back when the text is split. -/
theorem MayEndOpen.lines_flatten {ls : List Text} (h : MayEndOpen ls) (hhead : ∀ l ∈ ls, l.head? ≠ some '\n') :
    lines ls.flatten = ls := by
  induction h with
  | nil => rfl
  | last h =>
    rw [List.flatten_singleton]
    exact lines_of_isOpen h
  | @cons l ls h hls ih =>
    obtain ⟨-, hhead⟩ := List.forall_mem_cons.mp hhead
    have hnext : ls.flatten.head? ≠ some '\n' := by
      cases hls with
      | nil => simp
      | last h' =>
        rw [List.flatten_singleton]
        exact hhead _ List.mem_cons_self
      | cons h' _ =>
        rw [List.flatten_cons, List.head?_append_of_ne_nil _ h'.ne_nil]
        exact hhead _ List.mem_cons_self
    rw [List.flatten_cons, lines_append h hnext, ih hhead]

theorem lines_flatten {ls : List Text} (h : ∀ l ∈ ls, IsLine l ∧ l.head? ≠ some '\n') : lines ls.flatten = ls :=
  (MayEndOpen.of_isLine fun l hl => (h l hl).1).lines_flatten fun l hl => (h l hl).2

theorem flatten_linesFrom (line t : Text) : (linesFrom line t).flatten = line.reverse ++ t := by
  fun_induction linesFrom line t with
  | case1 line h => simpa using h
  | case2 line h => simp
  | case3 line cs ih => simp [ih]
  | case4 line c cs _ h ih => simp [ih]
  | case5 line c cs _ h ih => simp [ih]

/-- The lines of a text make up the text. -/
@[simp] theorem flatten_lines (t : Text) : (lines t).flatten = t := flatten_linesFrom [] t

theorem mayEndOpen_linesFrom {line : Text} (hline : ∀ b ∈ line, endsLine b = false) (t : Text) :
    MayEndOpen (linesFrom line t) := by
  have hreverse : ∀ {line : Text}, (∀ b ∈ line, endsLine b = false) → ∀ b ∈ line.reverse, endsLine b = false :=
    fun h b hb => h b (List.mem_reverse.mp hb)
  fun_induction linesFrom line t with
  | case1 => exact .nil
  | case2 line h => exact .last ⟨by simpa using h, hreverse hline⟩
  | case3 line cs ih => exact .cons (by simpa using IsLine.pair (hreverse hline)) (ih (by simp))
  | case4 line c cs _ h ih => exact .cons (by simpa using IsLine.one (hreverse hline) h) (ih (by simp))
  | case5 line c cs _ h ih => exact ih (List.forall_mem_cons.mpr ⟨by simpa using h, hline⟩)

/-- A text is split into whole lines, of which the last one may lack its end. -/
theorem mayEndOpen_lines (t : Text) : MayEndOpen (lines t) := mayEndOpen_linesFrom (by simp) t

/-- A text ends as its last line does. -/
theorem terminated_iff_of_lines_eq {before : List Text} (h : lines t = before ++ [l]) :
    Terminated t ↔ Terminated l := by
  have hne : l ≠ [] := by
    rcases (h ▸ mayEndOpen_lines t).isLine_or_isOpen with hl | hl
    · exact hl.ne_nil
    · exact hl.1
  rw [Terminated, Terminated, ← flatten_lines t, h, List.flatten_append, List.flatten_singleton,
    List.getLast?_append_of_ne_nil _ hne]

/-- The lines of a text that ends with the end of a line are whole. -/
theorem isLine_of_mem_lines (ht : Terminated t) (hl : l ∈ lines t) : IsLine l := by
  rcases List.eq_nil_or_concat' (lines t) with hnil | ⟨before, last, hlines⟩
  · simp [hnil] at hl
  · have hmay := hlines ▸ mayEndOpen_lines t
    have hlast : IsLine last := hmay.isLine_or_isOpen.resolve_right fun hopen =>
      hopen.not_terminated ((terminated_iff_of_lines_eq hlines).mp ht)
    rw [hlines] at hl
    rcases List.mem_append.mp hl with hl | hl
    · exact hmay.isLine_of_mem (List.cons_ne_nil last []) l hl
    · rwa [List.mem_singleton.mp hl]

/-- The last line of any other text lacks its end. -/
theorem isOpen_of_lines_eq {before : List Text} (ht : ¬Terminated t) (h : lines t = before ++ [l]) : IsOpen l :=
  (h ▸ mayEndOpen_lines t).isLine_or_isOpen.resolve_left fun hl =>
    ht ((terminated_iff_of_lines_eq h).mpr hl.terminated)

theorem terminated_of_isLine (h : ∀ l ∈ lines t, IsLine l) : Terminated t := by
  rcases List.eq_nil_or_concat' (lines t) with hnil | ⟨before, last, hlines⟩
  · rw [← flatten_lines t, hnil]
    simp [Terminated]
  · have hlast : IsLine last := h last (by simp [hlines])
    exact (terminated_iff_of_lines_eq hlines).mpr hlast.terminated

end Diff
end ScriptCase
