import ScriptCase.Proofs.Offsets

/-!
# Lines as parts of a text

The formatter takes a text apart into lines and breaks, an open document keeps the lines of its text, and offsets are
counted from where lines begin. All three cut a text at the same places (`Document.lines_agree`): there is one way only
to take a text apart, its lines are those of the document, and they are what stands in the text from the offset of their
first column to that of their end. Between these pieces stand the breaks, so that nothing of the text is lost.
-/

namespace ScriptCase

open Text

namespace Layout

/-- A line in its text. What is before it is as long as the place where the line begins; behind it stands its break, if
it has one, and behind that begins the next line. -/
structure Around (l : Layout) (n : Nat) (line front back : Text) : Prop where
  text : l.toText = front ++ (line ++ back)
  start : Document.lineStart n l.first l.rest = front.length
  next : ∀ b, l.breaks[n]? = some b → b.toText <+: back ∧
    Document.lineStart (n + 1) l.first l.rest = front.length + (line.length + b.toText.length)

theorem exists_around {l : Layout} {n : Nat} {line : Text} (h : l.lines[n]? = some line) :
    ∃ front back, l.Around n line front back := by
  obtain ⟨first, rest⟩ := l
  induction rest generalizing first n with
  | nil =>
    cases n with
    | zero =>
      obtain rfl : first = line := by simpa [lines] using h
      exact ⟨[], [], by simp [toText], rfl, fun b hb => by simp [breaks] at hb⟩
    | succ n => simp [lines] at h
  | cons p rest ih =>
    obtain ⟨c, second⟩ := p
    cases n with
    | zero =>
      obtain rfl : first = line := by simpa [lines] using h
      refine ⟨[], c.toText ++ (Layout.mk second rest).toText, toText_cons first c second rest, rfl, fun b hb => ?_⟩
      obtain rfl : c = b := by simpa [breaks] using hb
      exact ⟨List.prefix_append _ _, by simp [Document.lineStart]⟩
    | succ n =>
      obtain ⟨front, back, htext, hstart, hnext⟩ := ih second (by simpa [lines] using h)
      refine ⟨first ++ (c.toText ++ front), back, ?_, ?_, fun b hb => ?_⟩
      · rw [toText_cons, htext]
        simp only [List.append_assoc]
      · simp only [Document.lineStart, hstart, List.length_append]
        omega
      · obtain ⟨hback, hlater⟩ := hnext b (by simpa [breaks] using hb)
        refine ⟨hback, ?_⟩
        simp only [Document.lineStart, hlater, List.length_append]
        omega

end Layout

theorem Text.extract_between (front line back : Text) :
    (front ++ (line ++ back)).extract front.length (front.length + line.length) = line := by
  simp [List.extract]

namespace Document

variable {t : Text} {n : Nat} {line : Text}

/-- The offset of a place in a line that there is. -/
theorem offsetAt_of_line (h : (Text.lines t)[n]? = some line) (character : Int) :
    offsetAt t ⟨n, character⟩ =
      lineStart n (Layout.ofText t).first (Layout.ofText t).rest + columnAt character line := by
  have hlt := (List.getElem?_eq_some_iff.mp h).1
  have hindex : lineIndex (Text.lines t).length n = n := by
    rw [lineIndex, Int.toNat_natCast]
    omega
  have hline : (Layout.ofText t).lines[lineIndex (Layout.ofText t).lines.length n]? = some line := by
    rw [← Text.lines, hindex, h]
  rw [offsetAt]
  simp only [hline, Option.getD_some]
  rw [← Text.lines, hindex]

theorem columnAt_zero (line : Text) : columnAt 0 line = 0 := by
  cases line <;> simp [columnAt]

theorem columnAt_end (line : Text) : columnAt (units line) line = line.length := by
  have h := columnAt_units line []
  rwa [List.append_nil] at h

/-- A line is what stands in the text between the offsets of its ends, and its break is what stands from there to the
next line. -/
theorem extract_line (h : (Text.lines t)[n]? = some line) :
    t.extract (offsetAt t ⟨n, 0⟩) (offsetAt t ⟨n, units line⟩) = line ∧
      ∀ b, (Layout.ofText t).breaks[n]? = some b →
        t.extract (offsetAt t ⟨n, units line⟩) (offsetAt t ⟨n + 1, 0⟩) = b.toText := by
  obtain ⟨front, back, htext, hstart, hnext⟩ := Layout.exists_around h
  rw [Layout.toText_ofText] at htext
  have hbegin : offsetAt t ⟨n, 0⟩ = front.length := by rw [offsetAt_of_line h, hstart, columnAt_zero, Nat.add_zero]
  have hend : offsetAt t ⟨n, units line⟩ = front.length + line.length := by
    rw [offsetAt_of_line h, hstart, columnAt_end]
  rw [hbegin, hend]
  refine ⟨by rw [htext, Text.extract_between], fun b hb => ?_⟩
  obtain ⟨⟨rest, rfl⟩, hlater⟩ := hnext b hb
  -- a break is followed by a line, so the next place is on a line that there is
  have hlt : n + 1 < (Text.lines t).length := by
    have hb' := (List.getElem?_eq_some_iff.mp hb).1
    have hlen := Layout.length_lines (Layout.ofText t)
    rw [Text.lines]
    omega
  have hafter : offsetAt t ⟨n + 1, 0⟩ = (front ++ line).length + b.toText.length := by
    have hoffset := offsetAt_of_line (List.getElem?_eq_getElem hlt) 0
    rw [hlater, columnAt_zero] at hoffset
    rw [List.length_append]
    push_cast at hoffset
    omega
  rw [hafter, ← List.length_append, htext, ← List.append_assoc, Text.extract_between]

end Document

/-- The edits of a formatter span the lines of a text, one after another. -/
theorem Formatter.formatText_spans (f : Formatter) (t : Text) :
    (f.formatText t).edits.map (fun e => (e.line, e.start, e.stop)) =
      (Text.lines t).zipIdx.map fun p => (p.2, 0, p.1.length) := by
  simp only [formatText, formatDocument, List.map_map, List.zipIdx_map]
  rfl

/-- The ways in which a text is taken apart agree. The layout that a formatter works on is the one split of the text at
its breaks; its lines, one more than breaks, are those of the document, which the edits span; and the offsets of the
ends of a line, counted in units of UTF-16, cut the line and its break out of the text. -/
theorem Document.lines_agree (f : Formatter) (d : Document) :
    (Layout.ofText d.text).IsSplit d.text ∧ (∀ l : Layout, l.IsSplit d.text → l = Layout.ofText d.text) ∧
    (Layout.ofText d.text).lines.length = (Layout.ofText d.text).breaks.length + 1 ∧
    d.lines = (Layout.ofText d.text).lines ∧
    (f.formatText d.text).edits.map (fun e => (e.line, e.start, e.stop)) =
      d.lines.zipIdx.map (fun p => (p.2, 0, p.1.length)) ∧
    ∀ (n : Nat) (line : Text), d.lines[n]? = some line →
      units line = (line.flatMap Utf16.unitsOf).length ∧
      d.text.extract (offsetAt d.text ⟨n, 0⟩) (offsetAt d.text ⟨n, units line⟩) = line ∧
      ∀ b, (Layout.ofText d.text).breaks[n]? = some b →
        d.text.extract (offsetAt d.text ⟨n, units line⟩) (offsetAt d.text ⟨n + 1, 0⟩) = b.toText :=
  ⟨Layout.isSplit_ofText d.text, fun _ h => Layout.isSplit_iff.mp h, Layout.length_lines _, rfl,
    f.formatText_spans d.text, fun _ line h => ⟨units_eq_length line, extract_line h⟩⟩

end ScriptCase
