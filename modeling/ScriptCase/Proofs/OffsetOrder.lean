import ScriptCase.Proofs.Offsets

/-!
# Positions in order

Positions are in order when their lines are, or their columns within one line. A position beyond the last line is taken
to mean that line, but it keeps its column. So positions in order have offsets in order (`Document.offsetAt_le_iff`)
except where both mean the same line from different line numbers and the later one has the smaller column
(`Document.TurnsBack`). A range that turns back removes nothing: it makes a piece of the text stand there twice.
-/

namespace ScriptCase

open Text

/-- By line, and within a line by column. -/
instance : LE Position := ⟨fun p q => p.line < q.line ∨ p.line = q.line ∧ p.character ≤ q.character⟩

theorem Position.le_def {p q : Position} : p ≤ q ↔ p.line < q.line ∨ p.line = q.line ∧ p.character ≤ q.character :=
  Iff.rfl

instance (p q : Position) : Decidable (p ≤ q) := decidable_of_iff _ Position.le_def.symm

namespace Document

/-! ## Columns of a line -/

/-- The characters before a column are those that begin before it. -/
theorem lt_columnAt_iff {i : Nat} {character : Int} {line : Text} :
    i < columnAt character line ↔ i < line.length ∧ (units (line.take i) : Int) < character := by
  induction line generalizing i character with
  | nil => simp [columnAt]
  | cons c line ih =>
    rw [columnAt]
    split
    · next hle =>
      refine iff_of_false (Nat.not_lt_zero i) fun h => ?_
      have := h.2
      omega
    · next hgt =>
      cases i with
      | zero => simp; omega
      | succ i =>
        rw [Nat.add_lt_add_iff_right, ih, List.length_cons, List.take_succ_cons, units_cons]
        omega

theorem columnAt_le_length (character : Int) (line : Text) : columnAt character line ≤ line.length := by
  by_contra h
  exact Nat.lt_irrefl _ (lt_columnAt_iff.mp (Nat.lt_of_not_le h)).1

/-- One column is before another if a character begins between them. -/
theorem columnAt_lt_columnAt_iff {a b : Int} {line : Text} : columnAt a line < columnAt b line ↔
    ∃ i < line.length, a ≤ units (line.take i) ∧ (units (line.take i) : Int) < b := by
  constructor
  · intro h
    obtain ⟨hlen, hb⟩ := lt_columnAt_iff.mp h
    refine ⟨columnAt a line, hlen, ?_, hb⟩
    by_contra ha
    exact Nat.lt_irrefl _ (lt_columnAt_iff.mpr ⟨hlen, Int.lt_of_not_ge ha⟩)
  · rintro ⟨i, hlen, ha, hb⟩
    have hi : i < columnAt b line := lt_columnAt_iff.mpr ⟨hlen, hb⟩
    have hle : columnAt a line ≤ i := by
      by_contra hlt
      have := (lt_columnAt_iff.mp (Nat.lt_of_not_le hlt)).2
      omega
    exact Nat.lt_of_le_of_lt hle hi

/-! ## Lines of a layout -/

/-- A line ends before the text does. -/
theorem lineEnd_le_length (n : Nat) (l : Layout) :
    lineStart n l.first l.rest + ((l.lines[n]?).getD []).length ≤ l.toText.length := by
  obtain ⟨first, rest⟩ := l
  induction rest generalizing first n with
  | nil => cases n <;> simp [lineStart, Layout.lines, Layout.toText]
  | cons p rest ih =>
    obtain ⟨b, line⟩ := p
    rw [Layout.toText_cons, List.length_append, List.length_append]
    cases n with
    | zero =>
      simp only [lineStart, Layout.lines, List.getElem?_cons_zero, Option.getD_some]
      omega
    | succ n =>
      have := ih n line
      simp only [lineStart, Layout.lines, List.map_cons, List.getElem?_cons_succ] at this ⊢
      omega

/-- A line ends before the next ones begin. -/
theorem lineEnd_le_lineStart {n m : Nat} (h : n < m) (l : Layout) (hm : m < l.lines.length) :
    lineStart n l.first l.rest + ((l.lines[n]?).getD []).length ≤ lineStart m l.first l.rest := by
  obtain ⟨first, rest⟩ := l
  induction rest generalizing first n m with
  | nil => simp [Layout.lines] at hm; omega
  | cons p rest ih =>
    obtain ⟨b, line⟩ := p
    obtain ⟨m, rfl⟩ : ∃ k, m = k + 1 := ⟨m - 1, by omega⟩
    cases n with
    | zero =>
      simp only [lineStart, Layout.lines, List.getElem?_cons_zero, Option.getD_some]
      omega
    | succ n =>
      have := ih (Nat.lt_of_succ_lt_succ h) line (by simpa [Layout.lines] using hm)
      simp only [lineStart, Layout.lines, List.map_cons, List.getElem?_cons_succ] at this ⊢
      omega

theorem lineIndex_lt {count : Nat} (h : 0 < count) (line : Int) : lineIndex count line < count := by
  rw [lineIndex]
  omega

/-! ## Offsets of positions in order -/

/-- The line that a position means. -/
def meantLine (t : Text) (p : Position) : Text := ((Text.lines t)[lineIndex (Text.lines t).length p.line]?).getD []

/--
The second position has a greater line number than the first, but both mean the same line, and a character of this line
begins before the column of the first and not before that of the second.
-/
def TurnsBack (t : Text) (p q : Position) : Prop :=
  p.line < q.line ∧ lineIndex (Text.lines t).length p.line = lineIndex (Text.lines t).length q.line ∧
    ∃ i < (meantLine t p).length, q.character ≤ units ((meantLine t p).take i) ∧
      (units ((meantLine t p).take i) : Int) < p.character

section Order

variable (t : Text) {p q : Position}

theorem length_lines_pos : 0 < (Text.lines t).length := Nat.succ_pos _

theorem offsetAt_le_length (p : Position) : offsetAt t p ≤ t.length := by
  have hline := lineEnd_le_length (lineIndex (Text.lines t).length p.line) (Layout.ofText t)
  have hcol := columnAt_le_length p.character (meantLine t p)
  rw [Layout.toText_ofText] at hline
  exact Nat.le_trans (Nat.add_le_add_left hcol _) hline

/-- Positions that mean different lines have offsets in the order of these lines. -/
theorem offsetAt_le_of_lineIndex_lt
    (h : lineIndex (Text.lines t).length p.line < lineIndex (Text.lines t).length q.line) :
    offsetAt t p ≤ offsetAt t q := by
  have hline := lineEnd_le_lineStart h (Layout.ofText t) (lineIndex_lt (length_lines_pos t) q.line)
  have hcol := columnAt_le_length p.character (meantLine t p)
  exact Nat.le_trans (Nat.add_le_add_left hcol _) (Nat.le_trans hline (Nat.le_add_right _ _))

/-- Positions that mean the same line have offsets in the order of their columns. -/
theorem offsetAt_lt_of_lineIndex_eq
    (h : lineIndex (Text.lines t).length p.line = lineIndex (Text.lines t).length q.line) :
    offsetAt t q < offsetAt t p ↔ columnAt q.character (meantLine t p) < columnAt p.character (meantLine t p) := by
  have hq : offsetAt t q = lineStart (lineIndex (Text.lines t).length p.line) (Layout.ofText t).first
      (Layout.ofText t).rest + columnAt q.character (meantLine t p) := by
    rw [meantLine, h]
    rfl
  rw [hq]
  exact Nat.add_lt_add_iff_left

/-- The offsets of positions in order are in order unless the positions turn back. -/
theorem offsetAt_lt_iff (h : p ≤ q) : offsetAt t q < offsetAt t p ↔ TurnsBack t p q := by
  rw [Position.le_def] at h
  rcases Nat.lt_trichotomy (lineIndex (Text.lines t).length p.line) (lineIndex (Text.lines t).length q.line) with
    hlt | heq | hgt
  · have hle := offsetAt_le_of_lineIndex_lt t hlt
    refine iff_of_false (Nat.not_lt_of_le hle) ?_
    exact fun hback => Nat.ne_of_lt hlt hback.2.1
  · rw [offsetAt_lt_of_lineIndex_eq t heq, columnAt_lt_columnAt_iff]
    refine ⟨fun hback => ⟨?_, heq, hback⟩, fun hback => hback.2.2⟩
    -- within one line the columns are in order
    obtain ⟨i, -, hq, hp⟩ := hback
    omega
  · simp only [lineIndex] at hgt
    omega

end Order

/-! ## Changes of a range -/

theorem drop_eq_between (t : Text) {a b : Nat} (h : a ≤ b) (hb : b ≤ t.length) :
    t.drop a = (t.take b).drop a ++ t.drop b := by
  have hlen : a ≤ (t.take b).length := by rw [List.length_take]; omega
  rw [← List.drop_append_of_le_length hlen, List.take_append_drop]

/-- A range in order is taken out of the text. -/
theorem exists_applyChange_of_le {t : Text} {p q : Position} (new : Text) (h : offsetAt t p ≤ offsetAt t q) :
    ∃ before removed after, t = before ++ removed ++ after ∧ before.length = offsetAt t p ∧
      (before ++ removed).length = offsetAt t q ∧ applyChange t ⟨some (p, q), new⟩ = before ++ new ++ after := by
  have hq := offsetAt_le_length t q
  refine ⟨t.take (offsetAt t p), (t.take (offsetAt t q)).drop (offsetAt t p), t.drop (offsetAt t q), ?_, ?_, ?_, rfl⟩
  · rw [List.append_assoc, ← drop_eq_between t h hq, List.take_append_drop]
  · rw [List.length_take]
    omega
  · rw [List.length_append, List.length_drop, List.length_take, List.length_take]
    omega

/-- A range the other way round is left in the text and put into it once more. -/
theorem exists_applyChange_of_lt {t : Text} {p q : Position} (new : Text) (h : offsetAt t q < offsetAt t p) :
    ∃ before repeated after, t = before ++ repeated ++ after ∧ repeated ≠ [] ∧
      applyChange t ⟨some (p, q), new⟩ = before ++ repeated ++ new ++ repeated ++ after := by
  have hp := offsetAt_le_length t p
  have hdrop := drop_eq_between t (Nat.le_of_lt h) hp
  have htake : t.take (offsetAt t q) ++ (t.take (offsetAt t p)).drop (offsetAt t q) = t.take (offsetAt t p) := by
    have hwhole : t.take (offsetAt t q) ++ (t.take (offsetAt t p)).drop (offsetAt t q) ++ t.drop (offsetAt t p) =
        t.take (offsetAt t p) ++ t.drop (offsetAt t p) := by
      rw [List.append_assoc, ← hdrop, List.take_append_drop, List.take_append_drop]
    exact List.append_cancel_right hwhole
  refine ⟨t.take (offsetAt t q), (t.take (offsetAt t p)).drop (offsetAt t q), t.drop (offsetAt t p), ?_, ?_, ?_⟩
  · rw [htake, List.take_append_drop]
  · refine List.ne_nil_of_length_pos ?_
    rw [List.length_drop, List.length_take]
    omega
  · rw [htake, List.append_assoc _ _ (t.drop (offsetAt t p)), ← hdrop]
    rfl

/--
Positions in order have offsets in the text. The offsets are in order, and a change of the range takes the characters
between them out, just when the positions do not turn back; if they do, the change doubles a piece of the text.
-/
theorem offsetAt_le_iff (t new : Text) {p q : Position} (h : p ≤ q) :
    offsetAt t p ≤ t.length ∧ offsetAt t q ≤ t.length ∧ (offsetAt t p ≤ offsetAt t q ↔ ¬TurnsBack t p q) ∧
      (¬TurnsBack t p q → ∃ before removed after, t = before ++ removed ++ after ∧ before.length = offsetAt t p ∧
        (before ++ removed).length = offsetAt t q ∧ applyChange t ⟨some (p, q), new⟩ = before ++ new ++ after) ∧
      (TurnsBack t p q → ∃ before repeated after, t = before ++ repeated ++ after ∧ repeated ≠ [] ∧
        applyChange t ⟨some (p, q), new⟩ = before ++ repeated ++ new ++ repeated ++ after) := by
  have hiff := offsetAt_lt_iff t h
  have hle : offsetAt t p ≤ offsetAt t q ↔ ¬TurnsBack t p q := by rw [← hiff, Nat.not_lt]
  refine ⟨offsetAt_le_length t p, offsetAt_le_length t q, hle, fun hn => ?_, fun hback => ?_⟩
  · exact exists_applyChange_of_le new (hle.mpr hn)
  · exact exists_applyChange_of_lt new (hiff.mpr hback)

/-- From the second column of the only line to the line behind it: the range turns back to the start of the line. -/
theorem offsetAt_le_iff_line_behind : (⟨0, 2⟩ : Position) ≤ ⟨1, 0⟩ ∧ TurnsBack ['a', 'b', 'c'] ⟨0, 2⟩ ⟨1, 0⟩ ∧
    ¬offsetAt ['a', 'b', 'c'] ⟨0, 2⟩ ≤ offsetAt ['a', 'b', 'c'] ⟨1, 0⟩ := by
  have hle : (⟨0, 2⟩ : Position) ≤ ⟨1, 0⟩ := by decide
  have hback : TurnsBack ['a', 'b', 'c'] ⟨0, 2⟩ ⟨1, 0⟩ := ⟨by decide, by decide, 0, by decide⟩
  exact ⟨hle, hback, fun h => (offsetAt_le_iff ['a', 'b', 'c'] [] hle).2.2.1.mp h hback⟩

/-- Removing everything from the second column on, up to the line behind the last one, doubles the two characters
before it. -/
theorem applyChange_doubles_text : (⟨0, 2⟩ : Position) ≤ ⟨1, 0⟩ ∧
    applyChange ['a', 'b', 'c'] ⟨some (⟨0, 2⟩, ⟨1, 0⟩), []⟩ = ['a', 'b', 'a', 'b', 'c'] := by decide

end Document
end ScriptCase
