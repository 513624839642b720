import ScriptCase.Format.Report
import ScriptCase.Proofs.FormatLine

/-!
# What formatting does to a text

A text is formatted line by line between its breaks (`Formatter.formatText_text`). To say what the lines and breaks of
the result are, one has to take a text apart that was put together from lines and breaks. This gives the same lines
and breaks again, except that a carriage return and a line feed with an empty line between them are read as one break
(`Layout.ofText_toText`, `Layout.settle`).

Formatting a text twice is the same as formatting it once (`Formatter.formatText_idem`), since no line that is read
afterwards is new. Lines and breaks are kept as long as no line between a carriage return and a line feed is left
without characters (`Formatter.formatText_keeps_breaks_iff`).
-/

namespace ScriptCase

open Text Rule

/-! ## Taking a text apart that was put together -/

/-- The text holds no character of a line break. -/
def BreakFree (t : Text) : Prop := '\r' ∉ t ∧ '\n' ∉ t

namespace Layout

/-- A layout with every line replaced. -/
def mapLines (g : Text → Text) (l : Layout) : Layout := ⟨g l.first, l.rest.map fun p => (p.1, g p.2)⟩

/-- The breaks and lines behind the first line as they are read: a carriage return and a line feed with nothing between
them are one break. -/
def settle : List (LineBreak × Text) → List (LineBreak × Text)
  | (.cr, []) :: (.lf, line) :: rest => (.crlf, line) :: settle rest
  | p :: rest => p :: settle rest
  | [] => []

/-- The lines of a text hold no breaks. -/
theorem breakFree_of_mem_lines {t line : Text} (h : line ∈ (ofText t).lines) : BreakFree line := by
  fun_induction ofText t generalizing line with
  | case1 =>
    obtain rfl : line = [] := by simpa [lines] using h
    exact ⟨List.not_mem_nil, List.not_mem_nil⟩
  | case2 cs ih | case3 cs _ ih | case4 cs ih =>
    rcases List.mem_cons.mp h with rfl | h
    · exact ⟨List.not_mem_nil, List.not_mem_nil⟩
    · exact ih h
  | case5 c cs _ hr hn ih =>
    rcases List.mem_cons.mp h with rfl | h
    · have : BreakFree (ofText cs).first := ih List.mem_cons_self
      refine ⟨fun hm => ?_, fun hm => ?_⟩
      · exact (List.mem_cons.mp hm).elim (fun he => hr he.symm) this.1
      · exact (List.mem_cons.mp hm).elim (fun he => hn he.symm) this.2
    · exact ih (List.mem_cons_of_mem _ h)

theorem ofText_cons {c : Char} (hr : c ≠ '\r') (hn : c ≠ '\n') (t : Text) :
    ofText (c :: t) = consChar c (ofText t) := by
  rw [ofText]
  · exact fun _ hc _ => hr hc
  · exact hr
  · exact hn

/-- A carriage return is a break of its own unless a line feed follows. -/
theorem ofText_cr {t : Text} (h : t.head? ≠ some '\n') : ofText ('\r' :: t) = consBreak .cr (ofText t) := by
  rw [ofText]
  rintro cs rfl
  exact h rfl

theorem ofText_append {line : Text} (h : BreakFree line) (t : Text) :
    ofText (line ++ t) = ⟨line ++ (ofText t).first, (ofText t).rest⟩ := by
  induction line with
  | nil => rfl
  | cons c line ih =>
    obtain ⟨hr, hn⟩ := h
    rw [List.mem_cons, not_or] at hr hn
    rw [List.cons_append, ofText_cons (Ne.symm hr.1) (Ne.symm hn.1), ih ⟨hr.2, hn.2⟩]
    rfl

/-- The text of the breaks and lines behind the first line. -/
def restText (rest : List (LineBreak × Text)) : Text := rest.flatMap fun p => p.1.toText ++ p.2

theorem head?_restText {b : LineBreak} {line : Text} {rest : List (LineBreak × Text)} :
    (restText ((b, line) :: rest)).head? = some '\n' ↔ b = .lf := by
  cases b <;> simp [restText, LineBreak.toText]

/-- Breaks and lines are read again, up to a carriage return and a line feed that have come together. -/
theorem ofText_restText {rest : List (LineBreak × Text)} (h : ∀ p ∈ rest, BreakFree p.2) :
    ofText (restText rest) = ⟨[], settle rest⟩ := by
  fun_induction settle rest with
  | case1 line rest ih =>
    have hline : BreakFree line := h (.lf, line) (by simp)
    have hrest := ih fun p hp => h p (by simp [hp])
    have : restText ((.cr, []) :: (.lf, line) :: rest) = '\r' :: '\n' :: (line ++ restText rest) := by
      simp [restText, LineBreak.toText]
    rw [this, ofText, ofText_append hline, hrest, List.append_nil]
    rfl
  | case2 p rest hmerge ih =>
    obtain ⟨b, line⟩ := p
    have hline : BreakFree line := h (b, line) (by simp)
    have hrest := ih fun p hp => h p (by simp [hp])
    have happ : ofText (line ++ restText rest) = ⟨line, settle rest⟩ := by
      rw [ofText_append hline, hrest, List.append_nil]
    have htext : restText ((b, line) :: rest) = b.toText ++ (line ++ restText rest) := by
      simp [restText]
    rw [htext]
    cases b with
    | crlf => rw [LineBreak.toText, List.cons_append, List.singleton_append, ofText, happ]; rfl
    | lf => rw [LineBreak.toText, List.singleton_append, ofText, happ]; rfl
    | cr =>
      rw [LineBreak.toText, List.singleton_append, ofText_cr, happ]
      · rfl
      -- no line feed comes next: it would stand in the line, or the breaks would be one
      · cases line with
        | cons c line => exact fun hc => hline.2 (Option.some.inj hc ▸ List.mem_cons_self)
        | nil =>
          cases rest with
          | nil => simp [restText]
          | cons p rest =>
            obtain ⟨b, line⟩ := p
            rw [List.nil_append, Ne, head?_restText]
            rintro rfl
            exact hmerge line rest rfl rfl
  | case3 => rfl

theorem ofText_toText {l : Layout} (h : ∀ line ∈ l.lines, BreakFree line) :
    ofText l.toText = ⟨l.first, settle l.rest⟩ := by
  have hrest : ∀ p ∈ l.rest, BreakFree p.2 := fun p hp =>
    h p.2 (List.mem_cons_of_mem _ (List.mem_map_of_mem hp))
  calc ofText l.toText = ofText (l.first ++ restText l.rest) := rfl
    _ = _ := by rw [ofText_append (h _ List.mem_cons_self), ofText_restText hrest, List.append_nil]

/-- No line is read that was not there. -/
theorem exists_of_mem_settle {rest : List (LineBreak × Text)} {p : LineBreak × Text} (h : p ∈ settle rest) :
    ∃ p' ∈ rest, p'.2 = p.2 := by
  fun_induction settle rest with
  | case1 line rest ih =>
    rcases List.mem_cons.mp h with rfl | h
    · exact ⟨(.lf, line), by simp, rfl⟩
    · obtain ⟨p', hp', he⟩ := ih h
      exact ⟨p', by simp [hp'], he⟩
  | case2 q rest _ ih =>
    rcases List.mem_cons.mp h with rfl | h
    · exact ⟨p, List.mem_cons_self, rfl⟩
    · obtain ⟨p', hp', he⟩ := ih h
      exact ⟨p', List.mem_cons_of_mem q hp', he⟩
  | case3 => cases h

/-- An empty line stands between a carriage return and a line feed. -/
def Merges (rest : List (LineBreak × Text)) : Prop := ∃ line, [(LineBreak.cr, []), (LineBreak.lf, line)] <:+: rest

/-- A line of blanks, or an empty one, stands between a carriage return and a line feed. -/
def HasBlankBetween (l : Layout) : Prop :=
  ∃ line next, [(LineBreak.cr, line), (LineBreak.lf, next)] <:+: l.rest ∧ ∀ c ∈ line, isBlank c = true

/-- Either all breaks and lines are read as they were, or there are fewer of them. -/
theorem settle_cases (rest : List (LineBreak × Text)) :
    ¬Merges rest ∧ settle rest = rest ∨ Merges rest ∧ (settle rest).length < rest.length := by
  fun_induction settle rest with
  | case1 line rest ih =>
    have hle : (settle rest).length ≤ rest.length := by
      rcases ih with ⟨-, h⟩ | ⟨-, h⟩
      · exact Nat.le_of_eq (congrArg List.length h)
      · exact Nat.le_of_lt h
    exact Or.inr ⟨⟨line, [], rest, rfl⟩, by simp only [List.length_cons]; omega⟩
  | case2 p rest hmerge ih =>
    have hcons : Merges (p :: rest) ↔ Merges rest := by
      refine exists_congr fun line => ?_
      rw [List.infix_cons_iff, or_iff_right]
      rintro ⟨post, hp⟩
      obtain ⟨rfl, hrest⟩ := List.cons.inj hp
      exact hmerge line post rfl hrest.symm
    rw [hcons]
    rcases ih with ⟨hm, h⟩ | ⟨hm, h⟩
    · exact Or.inl ⟨hm, by rw [h]⟩
    · exact Or.inr ⟨hm, by simpa using h⟩
  | case3 => exact Or.inl ⟨by rintro ⟨line, h⟩; exact absurd h (by simp), rfl⟩

theorem merges_map_iff {g : Text → Text} {rest : List (LineBreak × Text)} :
    Merges (rest.map fun p => (p.1, g p.2)) ↔
      ∃ line next, [(LineBreak.cr, line), (LineBreak.lf, next)] <:+: rest ∧ g line = [] := by
  constructor
  · rintro ⟨_, pre, post, h⟩
    rw [List.append_assoc] at h
    obtain ⟨pre', tail, rfl, -, h⟩ := List.map_eq_append_iff.mp h.symm
    obtain ⟨⟨b, line⟩, tail, rfl, hcr, h⟩ := List.map_eq_cons_iff.mp h
    obtain ⟨⟨b', next⟩, tail, rfl, hlf, -⟩ := List.map_eq_cons_iff.mp h
    obtain ⟨rfl, hline⟩ := Prod.mk.inj hcr
    obtain ⟨rfl, -⟩ := Prod.mk.inj hlf
    exact ⟨line, next, ⟨pre', tail, by simp⟩, hline⟩
  · rintro ⟨line, next, h, hline⟩
    refine ⟨g next, ?_⟩
    have := h.map fun p : LineBreak × Text => (p.1, g p.2)
    rwa [List.map_cons, List.map_singleton, hline] at this

theorem mapLines_lines (g : Text → Text) (l : Layout) : (l.mapLines g).lines = l.lines.map g := by
  simp [mapLines, lines]

theorem mapLines_breaks (g : Text → Text) (l : Layout) : (l.mapLines g).breaks = l.breaks := by
  simp [mapLines, breaks]

theorem mapLines_eq_self {g : Text → Text} {l : Layout} (h : ∀ line ∈ l.lines, g line = line) : l.mapLines g = l := by
  have hrest : (l.rest.map fun p => (p.1, g p.2)) = l.rest :=
    (List.map_congr_left fun p hp => by rw [h p.2 (List.mem_cons_of_mem _ (List.mem_map_of_mem hp))]; rfl).trans
      (List.map_id _)
  rw [mapLines, hrest, h _ List.mem_cons_self]

theorem withLines_map (g : Text → Text) (l : Layout) : l.withLines (l.lines.map g) = l.mapLines g := by
  simp only [withLines, mapLines, lines, breaks, List.map_cons, List.headD_cons, List.tail_cons, List.map_map]
  rw [List.zip_map']
  rfl

end Layout

/-! ## Formatting a text -/

namespace Formatter

variable (table : Table) (s : Text)

/-- The edits hold the formatted lines in order. -/
theorem formatText_newTexts :
    ((ofTable table).formatText s).edits.map (·.newText) = (Layout.ofText s).lines.map (lineText table) := by
  calc ((ofTable table).formatText s).edits.map (·.newText)
      = (((Layout.ofText s).lines.map some).zipIdx.map Prod.fst).map fun o => lineText table (o.getD []) := by
        simp only [formatText, formatDocument, List.map_map]
        refine List.map_congr_left fun p _ => ?_
        simp only [Function.comp_apply, LineResult.edit, LineResult.newText, formatLine_ofTable]
    _ = (Layout.ofText s).lines.map (lineText table) := by rw [List.zipIdx_map_fst, List.map_map]; rfl

theorem formatText_text :
    ((ofTable table).formatText s).text = ((Layout.ofText s).mapLines (lineText table)).toText := by
  rw [← Layout.withLines_map, ← formatText_newTexts]
  rfl

theorem lineText_eq_nil_iff (line : Text) : lineText table line = [] ↔ ∀ c ∈ line, isBlank c = true := by
  rw [← List.rdropWhile_eq_nil_iff, ← trimEnd_eq_rdropWhile, ← List.map_eq_nil_iff (f := letter),
    lineText_map_letter, List.map_eq_nil_iff]

theorem hasBlankBetween_iff : (Layout.ofText s).HasBlankBetween ↔
    Layout.Merges ((Layout.ofText s).rest.map fun p => (p.1, lineText table p.2)) := by
  simp only [Layout.merges_map_iff, lineText_eq_nil_iff, Layout.HasBlankBetween]

theorem breakFree_lineText {line : Text} (h : BreakFree line) : BreakFree (lineText table line) := by
  have hmem : ∀ {d : Char}, d.toNat < 0x80 → d.isAlpha = false → d ∈ lineText table line → d ∈ line := by
    intro d hd ha hm
    rw [← mem_map_letter_iff hd ha, lineText_map_letter, mem_map_letter_iff hd ha] at hm
    exact (List.rdropWhile_prefix isBlank line).mem hm
  exact ⟨fun hm => h.1 (hmem (by decide) (by decide) hm), fun hm => h.2 (hmem (by decide) (by decide) hm)⟩

/-- No line fails. -/
theorem formatText_failures : ((ofTable table).formatText s).failures = [] := by
  simp only [formatText, formatDocument]
  refine List.filterMap_eq_nil_iff.mpr fun r hr => ?_
  obtain ⟨p, -, rfl⟩ := List.mem_map.mp hr
  simp only [LineResult.failure?, formatLine_ofTable]

/-- The characters of a formatted line are characters of the line, perhaps in upper case. -/
theorem exists_of_mem_lineText {line : Text} {c : Char} (h : c ∈ lineText table line) :
    ∃ d ∈ line, c = d ∨ c = upper d := by
  have hsub : ∀ {d}, d ∈ trimEnd line → d ∈ line := fun hd => (List.rdropWhile_prefix isBlank line).mem hd
  obtain ⟨V, hV⟩ := exists_uppered_lineText table line
  obtain ⟨i, hi⟩ := List.mem_iff_getElem?.mp h
  rcases hV.getElem? i with he | he
  · rw [hi] at he
    obtain ⟨d, hd, hc⟩ := Option.map_eq_some_iff.mp he.symm
    exact ⟨d, hsub (List.mem_iff_getElem?.mpr ⟨i, hd⟩), Or.inr hc.symm⟩
  · exact ⟨c, hsub (List.mem_iff_getElem?.mpr ⟨i, he ▸ hi⟩), Or.inl rfl⟩

theorem exists_of_mem_formatText {c : Char} (h : c ∈ ((ofTable table).formatText s).text) :
    ∃ d ∈ s, c = d ∨ c = upper d := by
  have hs : s = (Layout.ofText s).toText := (Layout.toText_ofText s).symm
  rw [formatText_text, Layout.toText, List.mem_append, List.mem_flatMap] at h
  rw [hs]
  rcases h with h | ⟨p, hp, h⟩
  · obtain ⟨d, hd, hc⟩ := exists_of_mem_lineText table h
    exact ⟨d, List.mem_append_left _ hd, hc⟩
  · obtain ⟨q, hq, rfl⟩ := List.mem_map.mp hp
    have hmem : ∀ {d}, d ∈ q.1.toText ++ q.2 → d ∈ (Layout.ofText s).toText := fun hd =>
      List.mem_append_right _ (List.mem_flatMap.mpr ⟨q, hq, hd⟩)
    rcases List.mem_append.mp h with h | h
    · exact ⟨c, hmem (List.mem_append_left _ h), Or.inl rfl⟩
    · obtain ⟨d, hd, hc⟩ := exists_of_mem_lineText table h
      exact ⟨d, hmem (List.mem_append_right _ hd), hc⟩

/-- The lines and breaks of a formatted text. -/
theorem ofText_formatText : Layout.ofText ((ofTable table).formatText s).text =
    ⟨lineText table (Layout.ofText s).first,
      Layout.settle ((Layout.ofText s).rest.map fun p => (p.1, lineText table p.2))⟩ := by
  rw [formatText_text, Layout.ofText_toText]
  · rfl
  · intro line hline
    rw [Layout.mapLines_lines, List.mem_map] at hline
    obtain ⟨line, hm, rfl⟩ := hline
    exact breakFree_lineText table (Layout.breakFree_of_mem_lines hm)

/-- A formatted text stays as it is. -/
theorem formatText_text_idem : ((ofTable table).formatText ((ofTable table).formatText s).text).text =
    ((ofTable table).formatText s).text := by
  have hfix : ∀ line ∈ (Layout.ofText ((ofTable table).formatText s).text).lines, lineText table line = line := by
    intro line hline
    rw [ofText_formatText] at hline
    rcases List.mem_cons.mp hline with rfl | hline
    · exact lineText_idem table _
    · obtain ⟨p, hp, rfl⟩ := List.mem_map.mp hline
      obtain ⟨p', hp', he⟩ := Layout.exists_of_mem_settle hp
      obtain ⟨q, -, rfl⟩ := List.mem_map.mp hp'
      rw [← he]
      exact lineText_idem table _
  rw [formatText_text table ((ofTable table).formatText s).text, Layout.mapLines_eq_self hfix, Layout.toText_ofText]

theorem isChanged_formatText : ((ofTable table).formatText s).isChanged = false ↔
    ((ofTable table).formatText s).text = s := bne_eq_false_iff_eq

/-- Formatting is idempotent, on texts and on lines. -/
theorem formatText_idem :
    ((ofTable table).formatText ((ofTable table).formatText s).text).text = ((ofTable table).formatText s).text ∧
      ((ofTable table).formatText ((ofTable table).formatText s).text).isChanged = false ∧
      ∀ line, ∃ u, (ofTable table).formatLine line = .ok u ∧ (ofTable table).formatLine u = .ok u := by
  refine ⟨formatText_text_idem table s, ?_, fun line => ⟨lineText table line, formatLine_ofTable table line, ?_⟩⟩
  · exact (isChanged_formatText table _).mpr (formatText_text_idem table s)
  · rw [formatLine_ofTable, lineText_idem]

/--
Lines and breaks. The formatted text has the breaks of the original, with the new texts of the edits as its lines, just
when no line between a carriage return and a line feed consists of blanks. Otherwise it has fewer lines.
-/
theorem formatText_keeps_breaks_iff :
    ((Layout.ofText ((ofTable table).formatText s).text).breaks = (Layout.ofText s).breaks ∧
        (Layout.ofText ((ofTable table).formatText s).text).lines =
          ((ofTable table).formatText s).edits.map (·.newText) ↔
      ¬(Layout.ofText s).HasBlankBetween) ∧
    ((Layout.ofText ((ofTable table).formatText s).text).lines.length = (Layout.ofText s).lines.length ↔
      ¬(Layout.ofText s).HasBlankBetween) := by
  rw [hasBlankBetween_iff table, formatText_newTexts, ofText_formatText, ← Layout.mapLines_lines,
    ← Layout.mapLines_breaks (lineText table) (Layout.ofText s)]
  rcases Layout.settle_cases ((Layout.ofText s).rest.map fun p => (p.1, lineText table p.2)) with ⟨hm, h⟩ | ⟨hm, h⟩
  · rw [h]
    exact ⟨iff_of_true ⟨rfl, rfl⟩ hm, iff_of_true (by simp [Layout.lines]) hm⟩
  · refine ⟨iff_of_false (fun hkept => ?_) (not_not_intro hm), iff_of_false (fun hl => ?_) (not_not_intro hm)⟩
    · have := congrArg List.length hkept.1
      simp only [Layout.breaks, Layout.mapLines, List.length_map] at this h
      omega
    · simp only [Layout.lines, List.length_cons, List.length_map] at hl h
      omega

/-- A blank between a carriage return and a line feed is lost, and the two become one break. -/
theorem formatText_joins_breaks : (Layout.ofText "a\r \nb".toList).breaks = [.cr, .lf] ∧
    (Layout.ofText ((ofTable Table.bundled).formatText "a\r \nb".toList).text).breaks = [.crlf] := by
  have hblank : lineText Table.bundled [' '] = [] :=
    (lineText_eq_nil_iff Table.bundled [' ']).mpr (List.forall_mem_singleton.mpr (by decide))
  have hsplit : Layout.ofText "a\r \nb".toList = ⟨['a'], [(.cr, [' ']), (.lf, ['b'])]⟩ := by rfl
  refine ⟨by decide, ?_⟩
  rw [ofText_formatText, hsplit, List.map_cons, List.map_singleton, hblank]
  rfl

end Formatter
end ScriptCase
