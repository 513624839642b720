import ScriptCase.Editor.Uri
import ScriptCase.Editor.Workspace
import ScriptCase.Proofs.Offsets

/-!
# The edits that an editor is sent

An editor is sent one edit for every line of a document. When it makes them from the last to the first, the text becomes
the one that formatting the text as a whole gives (`Workspace.format_agrees`).

An edit is made while the lines before its own are still those of the document, so that its positions are those of its
line (`applyChange_between`), even where a line behind it has become empty and the breaks around that line have come
together. The induction of `foldr_lineEdits` goes along the lines with the text before them as its parameter.
-/

namespace ScriptCase

open Text

/-- An edit as the change that an editor makes. -/
def TextEdit.change (e : TextEdit) : Change := ⟨some (⟨e.line, e.start⟩, ⟨e.line, e.stop⟩), e.newText⟩

/-- The edits that replace lines, of which the first has number `n`. -/
def lineEdits (g : Text → Text) (n : Nat) (lines : List Text) : List TextEdit :=
  (lines.zipIdx n).map fun p => ⟨p.2, 0, units p.1, g p.1⟩

theorem lineEdits_cons (g : Text → Text) (n : Nat) (line : Text) (lines : List Text) :
    lineEdits g n (line :: lines) = ⟨n, 0, units line, g line⟩ :: lineEdits g (n + 1) lines := by
  rw [lineEdits, List.zipIdx_cons, List.map_cons]
  rfl

/-! ## Making edits from the last to the first -/

theorem not_meets_of_breakFree_right {s t : Text} (h : BreakFree t) : ¬Meets s t := by
  rintro ⟨-, ht⟩
  exact h.2 (List.mem_of_mem_head? ht)

theorem Meets.of_append {s line t : Text} (h : BreakFree line) (hm : Meets (s ++ line) t) : line = [] ∧ Meets s t := by
  obtain ⟨hs, ht⟩ := hm
  rcases List.eq_nil_or_concat line with rfl | ⟨init, c, rfl⟩
  · exact ⟨rfl, by rwa [List.append_nil] at hs, ht⟩
  · rw [List.concat_eq_append, ← List.append_assoc, List.getLast?_concat] at hs
    obtain rfl := Option.some.inj hs
    exact absurd (by simp) h.1

theorem not_meets_break {s t : Text} {b : LineBreak} (h : b = .cr → t.head? ≠ some '\n') :
    ¬Meets (s ++ b.toText) t := by
  rintro ⟨hs, ht⟩
  cases b with
  | cr => exact h rfl ht
  | crlf | lf => simp [LineBreak.toText] at hs

/-- The edit of a line that begins behind the text `s` replaces this line. -/
theorem applyChange_between {s line t : Text} {n : Nat} (new : Text) (hs : endOf s = ⟨n, 0⟩) (hline : BreakFree line)
    (hm : ¬Meets s (line ++ t)) :
    Document.applyChange (s ++ (line ++ t)) (TextEdit.change ⟨n, 0, units line, new⟩) = s ++ (new ++ t) := by
  have hstart : Document.offsetAt (s ++ (line ++ t)) ⟨n, 0⟩ = s.length := by
    rw [← hs]
    exact Document.offsetAt_endOf hm
  have hstop : Document.offsetAt (s ++ (line ++ t)) ⟨n, units line⟩ = (s ++ line).length := by
    have hend : endOf (s ++ line) = ⟨n, units line⟩ := by
      rw [endOf_append (not_meets_of_breakFree_right hline), hs, endOf_of_breakFree hline]
      simp [Position.advance]
    rw [← List.append_assoc, ← hend]
    refine Document.offsetAt_endOf fun h => hm ?_
    obtain ⟨rfl, hst⟩ := h.of_append hline
    exact hst
  calc Document.applyChange (s ++ (line ++ t)) (TextEdit.change ⟨n, 0, units line, new⟩)
      = (s ++ (line ++ t)).take s.length ++ new ++ (s ++ line ++ t).drop (s ++ line).length := by
        rw [← hstart, ← hstop, List.append_assoc s line t]
        rfl
    _ = s ++ (new ++ t) := by rw [List.take_left, List.drop_left, List.append_assoc]

theorem head?_toText_of_not_merges {line : Text} {rest : List (LineBreak × Text)} (hline : BreakFree line)
    (hm : ¬Layout.Merges ((.cr, line) :: rest)) : (Layout.mk line rest).toText.head? ≠ some '\n' := by
  cases line with
  | cons c line => exact fun hc => hline.2 (Option.some.inj hc ▸ List.mem_cons_self)
  | nil =>
    cases rest with
    | nil => exact fun hc => nomatch hc
    | cons p rest =>
      obtain ⟨b, line⟩ := p
      intro hc
      obtain rfl : b = .lf := Layout.head?_restText.mp hc
      exact hm ⟨line, [], rest, rfl⟩

theorem foldr_lineEdits (g : Text → Text) {first : Text} {rest : List (LineBreak × Text)} {s : Text} {n : Nat}
    (hs : endOf s = ⟨n, 0⟩) (hlines : ∀ line ∈ (Layout.mk first rest).lines, BreakFree line)
    (hrest : ¬Layout.Merges rest) (hm : ¬Meets s (Layout.mk first rest).toText) :
    (lineEdits g n (Layout.mk first rest).lines).foldr (fun e t => Document.applyChange t e.change)
      (s ++ (Layout.mk first rest).toText) = s ++ ((Layout.mk first rest).mapLines g).toText := by
  induction rest generalizing first s n with
  | nil => exact applyChange_between (g first) hs (hlines first List.mem_cons_self) hm
  | cons p rest ih =>
    obtain ⟨b, line⟩ := p
    have hfirst : BreakFree first := hlines first List.mem_cons_self
    have htail : ∀ l ∈ (Layout.mk line rest).lines, BreakFree l := fun l hl => hlines l (List.mem_cons_of_mem first hl)
    have hhead : ∀ u : Text, (first ++ (b.toText ++ u)).head? = (first ++ b.toText).head? := fun u => by
      cases first <;> cases b <;> rfl
    rw [Layout.toText_cons] at hm
    have hm' : ∀ u, ¬Meets s (first ++ (b.toText ++ u)) := fun u hmu => hm ⟨hmu.1, by rw [hhead, ← hhead u, hmu.2]⟩
    -- the text before the next line
    have hs' : endOf (s ++ first ++ b.toText) = ⟨n + 1, 0⟩ := by
      have hbreak : ¬Meets (s ++ first) b.toText := fun h => by
        obtain ⟨rfl, hst⟩ := h.of_append hfirst
        exact hm' [] (by rwa [List.append_nil])
      rw [endOf_append hbreak, endOf_append (not_meets_of_breakFree_right hfirst), hs, endOf_of_breakFree hfirst,
        endOf_break]
      rfl
    have hnext := ih hs' htail (fun h => hrest (h.imp fun _ hi => hi.trans (List.infix_cons List.infix_rfl)))
      (not_meets_break fun hb => head?_toText_of_not_merges (htail line List.mem_cons_self) (hb ▸ hrest))
    have hassoc : ∀ u, s ++ first ++ b.toText ++ u = s ++ (first ++ (b.toText ++ u)) := fun u => by simp
    have hedits : lineEdits g n (Layout.mk first ((b, line) :: rest)).lines =
        ⟨n, 0, units first, g first⟩ :: lineEdits g (n + 1) (Layout.mk line rest).lines := lineEdits_cons ..
    rw [hassoc, hassoc] at hnext
    rw [Layout.toText_cons, hedits, List.foldr_cons, hnext, applyChange_between _ hs hfirst (hm' _)]
    simp [Layout.mapLines, Layout.toText]

/-- The edits of all lines, made from the last to the first, replace every line. -/
theorem applyChanges_lineEdits (g : Text → Text) (t : Text) :
    Document.applyChanges t ((lineEdits g 0 (Text.lines t)).reverse.map TextEdit.change) =
      ((Layout.ofText t).mapLines g).toText := by
  have h := foldr_lineEdits g (s := []) (n := 0) rfl (fun _ hl => Layout.breakFree_of_mem_lines hl)
    (Layout.not_merges_ofText t) (fun hm => nomatch hm.1)
  rw [List.nil_append, List.nil_append] at h
  rw [Document.applyChanges, List.foldl_map, List.foldl_reverse, ← h, Layout.toText_ofText]
  rfl

/-! ## Whether anything changes -/

namespace Layout

theorem length_toText_mapLines_le {g : Text → Text} (hg : ∀ line, (g line).length ≤ line.length) (first : Text)
    (rest : List (LineBreak × Text)) :
    ((mk first rest).mapLines g).toText.length ≤ (mk first rest).toText.length := by
  induction rest generalizing first with
  | nil => simpa [mapLines, toText] using hg first
  | cons p rest ih =>
    have hmap : (mk first (p :: rest)).mapLines g = ⟨g first, (p.1, g p.2) :: ((mk p.2 rest).mapLines g).rest⟩ := rfl
    have hnext := ih p.2
    have hfirst := hg first
    rw [hmap, toText_cons, toText_cons, List.length_append, List.length_append, List.length_append, List.length_append]
    exact Nat.add_le_add hfirst (Nat.add_le_add_left hnext _)

/-- Where no line becomes longer, the text stays only if every line does. -/
theorem toText_mapLines_eq_iff {g : Text → Text} (hg : ∀ line, (g line).length ≤ line.length) (l : Layout) :
    (l.mapLines g).toText = l.toText ↔ ∀ line ∈ l.lines, g line = line := by
  refine ⟨?_, fun h => by rw [mapLines_eq_self h]⟩
  obtain ⟨first, rest⟩ := l
  induction rest generalizing first with
  | nil => simp [mapLines, toText, lines]
  | cons p rest ih =>
    intro h
    have hmap : (mk first (p :: rest)).mapLines g = ⟨g first, (p.1, g p.2) :: ((mk p.2 rest).mapLines g).rest⟩ := rfl
    have hnext := length_toText_mapLines_le hg p.2 rest
    have hfirst := hg first
    rw [hmap, toText_cons, toText_cons] at h
    have hlen := congrArg List.length h
    simp only [List.length_append] at hlen
    have hrest : (mk (g p.2) ((mk p.2 rest).mapLines g).rest).toText = ((mk p.2 rest).mapLines g).toText := rfl
    rw [hrest] at h hlen
    obtain ⟨h₁, h₂⟩ := List.append_inj h (by omega)
    intro line hline
    rcases List.mem_cons.mp hline with rfl | hline
    · exact h₁
    · exact ih p.2 (List.append_cancel_left h₂) line hline

end Layout

namespace Formatter

theorem length_lineText_le (table : Table) (line : Text) : (lineText table line).length ≤ line.length := by
  obtain ⟨V, hV⟩ := exists_uppered_lineText table line
  rw [hV.length_eq]
  exact (List.rdropWhile_prefix isBlank line).length_le

theorem isChanged_iff (table : Table) (t : Text) :
    ((ofTable table).formatText t).isChanged = true ↔ ∃ line ∈ Text.lines t, lineText table line ≠ line := by
  have h := Layout.toText_mapLines_eq_iff (length_lineText_le table) (Layout.ofText t)
  rw [Layout.toText_ofText] at h
  rw [← Bool.not_eq_false, isChanged_formatText, formatText_text, h]
  simp [Text.lines]

end Formatter

/-! ## What the editor gets -/

namespace Workspace

theorem textEdits_formatDocument (table : Table) (lines : List Text) :
    ((Formatter.ofTable table).formatDocument (lines.map some)).edits.map (textEdit lines) =
      lineEdits (Formatter.lineText table) 0 lines := by
  simp only [Formatter.formatDocument, lineEdits, List.zipIdx_map, List.map_map]
  refine List.map_congr_left fun p hp => ?_
  have hline : lines[p.2]? = some p.1 := List.mk_mem_zipIdx_iff_getElem?.mp hp
  simp [textEdit, LineResult.edit, LineResult.newText, Formatter.formatLine_ofTable, hline]

variable {reader : UriReader} {tree : Tree} {w : Workspace} {uri : String} {d : Document} {table : Table}

/-- An editor that makes the edits for an open document from the last to the first has the formatted text afterwards.
Each edit spans one line, counted in units of UTF-16. Formatting changes the text just when one of the edits changes its
line. -/
theorem format_agrees (hd : w.document? uri = some d) (hf : (w.ready tree).result = .ok (.ofTable table)) :
    ∃ edits, (w.format reader tree uri).result = .ok edits ∧
      Document.applyChanges d.text (edits.reverse.map TextEdit.change) =
        ((Formatter.ofTable table).formatText d.text).text ∧
      (∀ e ∈ edits, ∃ line, d.lines[e.line]? = some line ∧ e.start = 0 ∧
        e.stop = (line.flatMap Utf16.unitsOf).length) ∧
      (((Formatter.ofTable table).formatText d.text).isChanged = true ↔
        ∃ e ∈ edits, ∃ line, d.lines[e.line]? = some line ∧ e.newText ≠ line) := by
  refine ⟨lineEdits (Formatter.lineText table) 0 d.lines, ?_, ?_, ?_, ?_⟩
  · simp only [format, hd, hf, textEdits_formatDocument]
  · rw [Document.lines, applyChanges_lineEdits, Formatter.formatText_text]
  · intro e he
    obtain ⟨p, hp, rfl⟩ := List.mem_map.mp he
    exact ⟨p.1, List.mk_mem_zipIdx_iff_getElem?.mp hp, rfl, units_eq_length p.1⟩
  · rw [Formatter.isChanged_iff, lineEdits]
    constructor
    · rintro ⟨line, hline, hne⟩
      obtain ⟨i, hi⟩ := List.mem_iff_getElem?.mp hline
      exact ⟨_, List.mem_map_of_mem (List.mk_mem_zipIdx_iff_getElem?.mpr hi), line, hi, hne⟩
    · rintro ⟨_, he, line, hline, hne⟩
      obtain ⟨p, hp, rfl⟩ := List.mem_map.mp he
      have hp' : d.lines[p.2]? = some p.1 := List.mk_mem_zipIdx_iff_getElem?.mp hp
      obtain rfl : p.1 = line := Option.some.inj (hp'.symm.trans hline)
      exact ⟨p.1, List.mem_of_getElem? hline, hne⟩

/-- A workspace with the bundled keywords and one document, in which a character of two units comes before a carriage
return and a line feed with a blank between them. -/
def blankBetween : Workspace :=
  { start Uri.fsPath? ⟨1, []⟩ none none with formatter := some (.ofTable .bundled) }.didOpen "a"
    "say 😀\r \nend".toList 1

theorem format_agrees_blankBetween :
    blankBetween.document? "a" = some ⟨"a", "say 😀\r \nend".toList, 1⟩ ∧
      (blankBetween.ready ⟨[], ⟨1, []⟩⟩).result = .ok (.ofTable .bundled) ∧
      ∃ edits, (blankBetween.format Uri.fsPath? ⟨[], ⟨1, []⟩⟩ "a").result = .ok edits ∧
        Document.applyChanges "say 😀\r \nend".toList (edits.reverse.map TextEdit.change) =
          ((Formatter.ofTable .bundled).formatText "say 😀\r \nend".toList).text := by
  have hopen : blankBetween.document? "a" = some ⟨"a", "say 😀\r \nend".toList, 1⟩ := rfl
  have hready : (blankBetween.ready ⟨[], ⟨1, []⟩⟩).result = .ok (.ofTable .bundled) := rfl
  obtain ⟨edits, hformat, htext, -⟩ := format_agrees hopen hready
  exact ⟨hopen, hready, edits, hformat, htext⟩

end Workspace
end ScriptCase
