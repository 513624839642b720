import ScriptCase.Codec.Utf16
import ScriptCase.Editor.Document
import ScriptCase.Proofs.FormatText

/-!
# Positions and offsets

An editor counts lines and UTF-16 units, a text counts characters. The position behind a text (`endOf`) is the number of
its breaks together with the units of its last line; the position of an offset (`positionAt`) is the position behind the
characters before it. `Document.offsetAt` leads back from there, unless the offset stands inside a break of two
characters (`offsetAt_positionAt`), whatever follows the offset (`offsetAt_endOf`). The units that an editor counts are
those of the encoding (`Text.units_eq_length`).

This rests on how texts are taken apart: the layout of two texts one behind the other is the one layout joined to the
other (`Layout.ofText_append_join`), and a text is taken apart in one way only (`Layout.isSplit_iff`).
-/

namespace ScriptCase

open Text

namespace Text

theorem length_unitsOf (c : Char) : (Utf16.unitsOf c).length = unitsOf c := by
  rw [Utf16.unitsOf, unitsOf]
  split <;> rfl

/-- The units of a text are those that it is encoded with in UTF-16. -/
theorem units_eq_length (t : Text) : units t = (t.flatMap Utf16.unitsOf).length := by
  induction t with
  | nil => rfl
  | cons c t ih => rw [units_cons, ih, List.flatMap_cons, List.length_append, length_unitsOf]

end Text

/-- Between the two texts stand a carriage return and a line feed, which are one break when they come together. -/
def Meets (s t : Text) : Prop := s.getLast? = some '\r' ∧ t.head? = some '\n'

theorem Meets.cons {c : Char} {s t : Text} (h : Meets s t) : Meets (c :: s) t := by
  refine ⟨?_, h.2⟩
  cases s with
  | nil => cases h.1
  | cons d s => rw [List.getLast?_cons_cons, h.1]

namespace Layout

/-! ## Layouts joined -/

/-- The lines and breaks of one layout and then those of another; the last line of the one goes on as the first line of
the other. -/
def joinRest (r : Layout) : Text → List (LineBreak × Text) → Layout
  | first, [] => ⟨first ++ r.first, r.rest⟩
  | first, (b, line) :: rest => { consBreak b (joinRest r line rest) with first := first }

/-- One layout behind the other. -/
def join (l r : Layout) : Layout := joinRest r l.first l.rest

theorem join_consChar (c : Char) (l r : Layout) : (consChar c l).join r = consChar c (l.join r) := by
  obtain ⟨first, rest⟩ := l
  cases rest <;> rfl

theorem join_consBreak (b : LineBreak) (l r : Layout) : (consBreak b l).join r = consBreak b (l.join r) := rfl

/-- Texts that are put one behind the other are taken apart one by one, as long as they do not meet in a break. -/
theorem ofText_append_join {s t : Text} (h : ¬Meets s t) : ofText (s ++ t) = (ofText s).join (ofText t) := by
  fun_induction ofText s with
  | case1 => rfl
  | case2 cs ih =>
    rw [join_consBreak, ← ih fun hm => h hm.cons.cons]
    rfl
  | case3 cs hcs ih =>
    have hhead : (cs ++ t).head? ≠ some '\n' := by
      cases cs with
      | nil => exact fun ht => h ⟨rfl, ht⟩
      | cons c cs =>
        intro hc
        obtain rfl : c = '\n' := Option.some.inj hc
        exact hcs cs rfl
    rw [join_consBreak, ← ih fun hm => h hm.cons, List.cons_append, ofText_cr hhead]
  | case4 cs ih =>
    rw [join_consBreak, ← ih fun hm => h hm.cons]
    rfl
  | case5 c cs _ hr hn ih =>
    rw [join_consChar, ← ih fun hm => h hm.cons, List.cons_append, ofText_cons hr hn]

/-! ## Texts are taken apart in one way -/

/-- The layout is what a text is split into at its breaks: its lines hold no breaks, no two breaks next to each other
are to be read as one, and lines and breaks together are the text. -/
structure IsSplit (l : Layout) (t : Text) : Prop where
  text : l.toText = t
  lines : ∀ line ∈ l.lines, BreakFree line
  breaks : ¬Merges l.rest

theorem not_merges_consBreak {b : LineBreak} {l : Layout} (h : ¬Merges l.rest)
    (hb : b = .cr → l.first = [] → l.rest.head?.map (·.1) ≠ some .lf) : ¬Merges (consBreak b l).rest := by
  rintro ⟨line, hm⟩
  rcases List.infix_cons_iff.mp hm with ⟨post, hp⟩ | hm
  · obtain ⟨hfirst, hrest⟩ := List.cons.inj hp
    obtain ⟨hcr, hnil⟩ := Prod.mk.inj hfirst
    exact hb hcr.symm hnil.symm (by rw [← hrest]; rfl)
  · exact h ⟨line, hm⟩

/-- A text whose layout begins with an empty line and a line feed begins with the line feed. -/
theorem head?_of_first_eq_nil {t : Text} (hf : (ofText t).first = [])
    (hr : (ofText t).rest.head?.map (·.1) = some .lf) : t.head? = some '\n' := by
  rw [← toText_ofText t, toText, hf, List.nil_append]
  cases h : (ofText t).rest with
  | nil => rw [h] at hr; cases hr
  | cons p rest =>
    rw [h] at hr
    obtain ⟨b, line⟩ := p
    obtain rfl : b = .lf := Option.some.inj hr
    rfl

theorem not_merges_ofText (t : Text) : ¬Merges (ofText t).rest := by
  fun_induction ofText t with
  | case1 => rintro ⟨line, hm⟩; exact absurd hm (by simp)
  | case2 cs ih =>
    refine not_merges_consBreak ih fun h => ?_
    cases h
  | case3 cs hcs ih =>
    refine not_merges_consBreak ih fun _ hf hr => ?_
    cases cs with
    | nil => cases hr
    | cons c cs =>
      obtain rfl : c = '\n' := Option.some.inj (head?_of_first_eq_nil hf hr)
      exact hcs cs rfl
  | case4 cs ih =>
    refine not_merges_consBreak ih fun h => ?_
    cases h
  | case5 c cs _ _ _ ih => exact ih

theorem isSplit_ofText (t : Text) : (ofText t).IsSplit t :=
  ⟨toText_ofText t, fun _ h => breakFree_of_mem_lines h, not_merges_ofText t⟩

theorem ofText_toText_of_not_merges {l : Layout} (h : ∀ line ∈ l.lines, BreakFree line) (hm : ¬Merges l.rest) :
    ofText l.toText = l := by
  rcases settle_cases l.rest with ⟨-, hs⟩ | ⟨hm', -⟩
  · rw [ofText_toText h, hs]
  · exact absurd hm' hm

theorem isSplit_iff {l : Layout} {t : Text} : l.IsSplit t ↔ l = ofText t := by
  constructor
  · rintro ⟨rfl, hl, hb⟩
    exact (ofText_toText_of_not_merges hl hb).symm
  · rintro rfl
    exact isSplit_ofText t

/-! ## The end of a layout -/

/-- The line at which a layout ends. -/
def last (l : Layout) : Text := l.lines.getLast (List.cons_ne_nil _ _)

theorem last_cons (first : Text) (p : LineBreak × Text) (rest : List (LineBreak × Text)) :
    (Layout.mk first (p :: rest)).last = (Layout.mk p.2 rest).last := rfl

theorem toText_cons (first : Text) (b : LineBreak) (line : Text) (rest : List (LineBreak × Text)) :
    (Layout.mk first ((b, line) :: rest)).toText = first ++ (b.toText ++ (Layout.mk line rest).toText) := by
  simp [toText]

theorem length_rest_joinRest (r : Layout) (first : Text) (rest : List (LineBreak × Text)) :
    (joinRest r first rest).rest.length = rest.length + r.rest.length := by
  induction rest generalizing first with
  | nil => exact (Nat.zero_add _).symm
  | cons p rest ih =>
    simp only [joinRest, consBreak, List.length_cons, ih]
    omega

theorem last_joinRest (r : Layout) (first : Text) (rest : List (LineBreak × Text)) :
    (joinRest r first rest).last = if r.rest = [] then (Layout.mk first rest).last ++ r.first else r.last := by
  induction rest generalizing first with
  | nil =>
    obtain ⟨line, rest'⟩ := r
    cases rest' <;> rfl
  | cons p rest ih => exact ih p.2

end Layout

/-! ## Positions of offsets and offsets of positions -/

/-- The position behind a text: the number of its breaks, and the units of UTF-16 since the last of them. -/
def endOf (t : Text) : Position :=
  ⟨(Layout.ofText t).breaks.length, ((Layout.ofText t).last.flatMap Utf16.unitsOf).length⟩

theorem endOf_eq (t : Text) : endOf t = ⟨(Layout.ofText t).breaks.length, units (Layout.ofText t).last⟩ := by
  rw [endOf, units_eq_length]

/-- The position that is reached from one position by going on as far as another is from the start. -/
def Position.advance (p q : Position) : Position :=
  if q.line = 0 then ⟨p.line, p.character + q.character⟩ else ⟨p.line + q.line, q.character⟩

/-- Positions add up as texts do. -/
theorem endOf_append {s t : Text} (h : ¬Meets s t) : endOf (s ++ t) = (endOf s).advance (endOf t) := by
  simp only [endOf_eq, Layout.ofText_append_join h, Layout.join, Layout.breaks, List.length_map,
    Layout.length_rest_joinRest, Layout.last_joinRest, Position.advance, Int.natCast_eq_zero, List.length_eq_zero_iff]
  split
  · next hr =>
    have hlast : (Layout.ofText t).last = (Layout.ofText t).first := by simp [Layout.last, Layout.lines, hr]
    rw [hr, hlast, units_append, List.length_nil, Nat.add_zero]
    rfl
  · rfl

theorem endOf_of_breakFree {t : Text} (h : BreakFree t) : endOf t = ⟨0, units t⟩ := by
  have := Layout.ofText_append h []
  rw [List.append_nil] at this
  rw [endOf_eq, this]
  simp [Layout.ofText, Layout.breaks, Layout.last, Layout.lines]

theorem endOf_break (b : LineBreak) : endOf b.toText = ⟨1, 0⟩ := by cases b <;> rfl

/-- The position of an offset. -/
def positionAt (t : Text) (offset : Nat) : Position := endOf (t.take offset)

/-- The offset stands between a carriage return and its line feed. -/
def InsideBreak (t : Text) (offset : Nat) : Prop := Rule.before t offset = some '\r' ∧ t[offset]? = some '\n'

instance (t : Text) (offset : Nat) : Decidable (InsideBreak t offset) := inferInstanceAs (Decidable (_ ∧ _))

namespace Document

theorem columnAt_units (s t : Text) : columnAt (units s) (s ++ t) = s.length := by
  induction s with
  | nil => cases t <;> simp [columnAt]
  | cons c s ih =>
    have hpos := unitsOf_pos c
    rw [List.cons_append, columnAt, if_neg (by rw [units_cons]; omega), List.length_cons, ← ih, units_cons]
    congr 2
    omega

/-- The offset of a line and column in a layout. -/
def offsetIn (l : Layout) (line : Nat) (character : Int) : Nat :=
  lineStart line l.first l.rest + columnAt character ((l.lines[line]?).getD [])

/-- Where a layout ends, the next one begins. The induction is on the lines of the first one. -/
theorem offsetIn_joinRest (r : Layout) (first : Text) (rest : List (LineBreak × Text)) :
    offsetIn (Layout.joinRest r first rest) rest.length (units (Layout.mk first rest).last) =
      (Layout.mk first rest).toText.length := by
  induction rest generalizing first with
  | nil =>
    have hcol := columnAt_units first r.first
    simpa [offsetIn, Layout.joinRest, Layout.lines, Layout.last, lineStart, Layout.toText] using hcol
  | cons p rest ih =>
    obtain ⟨b, line⟩ := p
    have hstep : ∀ u, offsetIn (Layout.joinRest r first ((b, line) :: rest)) (rest.length + 1) u =
        first.length + b.toText.length + offsetIn (Layout.joinRest r line rest) rest.length u := fun u =>
      Nat.add_assoc _ _ _
    rw [Layout.toText_cons, Layout.last_cons, List.length_cons, hstep, ih, List.length_append, List.length_append,
      Nat.add_assoc]

/-- The position behind a text has its length for an offset, whatever follows. -/
theorem offsetAt_endOf {s t : Text} (h : ¬Meets s t) : offsetAt (s ++ t) (endOf s) = s.length := by
  have hjoin := Layout.ofText_append_join h
  have hoffset := offsetIn_joinRest (Layout.ofText t) (Layout.ofText s).first (Layout.ofText s).rest
  have hindex : lineIndex (Layout.ofText (s ++ t)).lines.length (endOf s).line = (Layout.ofText s).rest.length := by
    rw [hjoin, lineIndex, Layout.join, Layout.length_lines, Layout.breaks, List.length_map, Layout.length_rest_joinRest,
      endOf_eq, Layout.breaks, List.length_map, Int.toNat_natCast]
    omega
  calc offsetAt (s ++ t) (endOf s)
      = offsetIn (Layout.ofText (s ++ t))
          (lineIndex (Layout.ofText (s ++ t)).lines.length (endOf s).line) (endOf s).character := rfl
    _ = (Layout.ofText s).toText.length := by rw [hindex, hjoin, endOf_eq]; exact hoffset
    _ = s.length := by rw [Layout.toText_ofText]

theorem meets_take_drop {t : Text} {offset : Nat} : Meets (t.take offset) (t.drop offset) → InsideBreak t offset := by
  rintro ⟨hlast, hhead⟩
  rw [List.head?_drop] at hhead
  refine ⟨?_, hhead⟩
  have hlt : offset < t.length := (List.getElem?_eq_some_iff.mp hhead).1
  cases offset with
  | zero => cases hlast
  | succ n =>
    rw [List.getLast?_eq_getElem?, List.length_take, Nat.min_eq_left (by omega), List.getElem?_take,
      if_pos (by omega)] at hlast
    exact hlast

/-- The position of an offset leads back to the offset. -/
theorem offsetAt_positionAt {t : Text} {offset : Nat} (hle : offset ≤ t.length) (h : ¬InsideBreak t offset) :
    offsetAt t (positionAt t offset) = offset := by
  have := offsetAt_endOf fun hm => h (meets_take_drop hm)
  rwa [List.take_append_drop, List.length_take, Nat.min_eq_left hle] at this

end Document
end ScriptCase
