import Mathlib.Tactic.Common
import ScriptCase.Format.Report

/-!
# Lines that do not disturb each other

The rules of a formatter may be any functions, and any of them may fail on a line. `Formatter.FailsOn` names the first
rule that does so; it decides what is told about the line (`Formatter.formatLine_eq_error_iff`).

In a document, such a line is listed and keeps its text, and no other line takes notice. `Report.Isolates` says this of
edits, failures, text and change at once. A document that is put together from two has the reports on them one behind
the other (`Formatter.formatDocument_append`). Both are in `Formatter.formatDocument_isolates`.
-/

namespace ScriptCase

open Text

/-! ## Rules that fail -/

/-- The rules lead from one text to another, one after the other and without a failure. -/
inductive Leads : List Rule → Text → Text → Prop
  | nil (t : Text) : Leads [] t t
  | cons {r : Rule} {rules : List Rule} {t u v : Text} (h : r.apply t = .ok u) (hs : Leads rules u v) :
      Leads (r :: rules) t v

/-- The rule fails, on the text to which all rules before it lead. -/
def FirstFails (rules : List Rule) (t : Text) (r : Rule) (fault : RuleFault) : Prop :=
  ∃ done rest u, rules = done ++ r :: rest ∧ Leads done t u ∧ r.apply u = .error fault

theorem firstFails_cons {r r' : Rule} {rules : List Rule} {t : Text} {fault : RuleFault} :
    FirstFails (r :: rules) t r' fault ↔
      (r' = r ∧ r.apply t = .error fault) ∨ ∃ u, r.apply t = .ok u ∧ FirstFails rules u r' fault := by
  constructor
  · rintro ⟨_ | ⟨r'', done⟩, rest, u, hrules, hl, hf⟩
    · obtain ⟨rfl, rfl⟩ := List.cons.inj hrules
      cases hl
      exact Or.inl ⟨rfl, hf⟩
    · obtain ⟨rfl, rfl⟩ := List.cons.inj hrules
      cases hl with
      | cons h hs => exact Or.inr ⟨_, h, done, rest, u, rfl, hs, hf⟩
  · rintro (⟨rfl, hf⟩ | ⟨u, hu, done, rest, v, rfl, hl, hf⟩)
    · exact ⟨[], rules, t, rfl, .nil t, hf⟩
    · exact ⟨r :: done, rest, v, rfl, .cons hu hl, hf⟩

/-- A failure is listed under the number of its line. -/
theorem LineResult.line_of_failure? {r : LineResult} {e : LineFailure} (h : r.failure? = some e) :
    e.line = r.index := by
  rw [failure?] at h
  split at h
  · cases h
  · exact congrArg LineFailure.line (Option.some.inj h).symm

namespace Formatter

theorem foldlM_applyRule_cons (t : Text) (r : Rule) (rules : List Rule) :
    (r :: rules).foldlM applyRule t =
      match r.apply t with
      | .ok u => rules.foldlM applyRule u
      | .error fault => .error ⟨r.id, fault.message⟩ := by
  rw [List.foldlM_cons, applyRule]
  cases r.apply t <;> rfl

/-- A run of rules fails as the first of them that does. -/
theorem foldlM_applyRule_eq_error_iff {rules : List Rule} {t : Text} {e : LineFault} :
    rules.foldlM applyRule t = .error e ↔ ∃ r fault, FirstFails rules t r fault ∧ e = ⟨r.id, fault.message⟩ := by
  induction rules generalizing t with
  | nil =>
    refine iff_of_false (fun h => nomatch h) ?_
    rintro ⟨r, fault, ⟨done, rest, u, h, -⟩, -⟩
    exact List.append_ne_nil_of_right_ne_nil done (List.cons_ne_nil r rest) h.symm
  | cons r rules ih =>
    rw [foldlM_applyRule_cons]
    simp only [firstFails_cons]
    cases hr : r.apply t with
    | ok u => simp [ih]
    | error fault =>
      constructor
      · intro h
        exact ⟨r, fault, Or.inl ⟨rfl, rfl⟩, (Except.error.inj h).symm⟩
      · rintro ⟨r', fault', ⟨rfl, hf⟩ | ⟨u, hu, -⟩, rfl⟩
        · rw [Except.error.inj hf]
        · cases hu

/-- The first rule that fails on a line, and how; rules are not applied to comments. -/
def FailsOn (f : Formatter) (line : Text) (r : Rule) (fault : RuleFault) : Prop :=
  isComment (trimEnd line) = false ∧ FirstFails f.rules (trimEnd line) r fault

theorem formatLine_eq_error_iff {f : Formatter} {line : Text} {e : LineFault} :
    f.formatLine line = .error e ↔ ∃ r fault, f.FailsOn line r fault ∧ e = ⟨r.id, fault.message⟩ := by
  rw [formatLine]
  cases hc : isComment (trimEnd line) with
  | true => simp [FailsOn, hc]
  | false => simp [FailsOn, hc, foldlM_applyRule_eq_error_iff]

/-! ## Reports line by line -/

/-- What came of a line of a document; a line that is missing counts as empty. -/
def resultAt (f : Formatter) (index : Nat) (line : Option Text) : LineResult :=
  ⟨index, line.getD [], f.formatLine (line.getD [])⟩

/-- What came of the lines of a document, counted from `n`. -/
def resultsFrom (f : Formatter) (n : Nat) (lines : List (Option Text)) : List LineResult :=
  (lines.zipIdx n).map fun p => f.resultAt p.2 p.1

theorem formatDocument_eq (f : Formatter) (lines : List (Option Text)) :
    f.formatDocument lines =
      { edits := (f.resultsFrom 0 lines).map LineResult.edit
        text := Text.join ['\n'] ((f.resultsFrom 0 lines).map LineResult.newText)
        isChanged := (f.resultsFrom 0 lines).any fun r => r.newText != r.line
        failures := (f.resultsFrom 0 lines).filterMap LineResult.failure? } := rfl

theorem getElem?_resultsFrom (f : Formatter) (n : Nat) (lines : List (Option Text)) (i : Nat) :
    (f.resultsFrom n lines)[i]? = lines[i]?.map (f.resultAt (n + i)) := by
  rw [resultsFrom, List.getElem?_map, List.getElem?_zipIdx, Option.map_map]
  rfl

theorem mem_resultsFrom_iff {f : Formatter} {n : Nat} {lines : List (Option Text)} {r : LineResult} :
    r ∈ f.resultsFrom n lines ↔ ∃ i line, lines[i]? = some line ∧ r = f.resultAt (n + i) line := by
  simp only [List.mem_iff_getElem?, getElem?_resultsFrom, Option.map_eq_some_iff, @eq_comm _ r]

/-- The lines are counted one by one. -/
theorem pairwise_resultsFrom (f : Formatter) (n : Nat) (lines : List (Option Text)) :
    (f.resultsFrom n lines).Pairwise fun a b => a.index < b.index := by
  have hindex : (f.resultsFrom n lines).map LineResult.index = List.range' n lines.length := by
    rw [resultsFrom, List.map_map, ← List.zipIdx_map_snd]
    rfl
  rw [← List.pairwise_map, hindex]
  exact List.pairwise_lt_range' 1

/-- A line is listed as a failure just when a rule fails on it, with the name and the message of the first one. -/
theorem failure?_resultAt_eq_some_iff {f : Formatter} {i : Nat} {line : Option Text} {e : LineFailure} :
    (f.resultAt i line).failure? = some e ↔
      ∃ r fault, f.FailsOn (line.getD []) r fault ∧ e = ⟨i, fault.message, some r.id⟩ := by
  rw [LineResult.failure?, resultAt]
  cases h : f.formatLine (line.getD []) with
  | ok u =>
    refine iff_of_false (by simp) ?_
    rintro ⟨r, fault, hf, -⟩
    rw [formatLine_eq_error_iff.mpr ⟨r, fault, hf, rfl⟩] at h
    cases h
  | error d =>
    obtain ⟨r, fault, hf, rfl⟩ := formatLine_eq_error_iff.mp h
    constructor
    · intro he
      exact ⟨r, fault, hf, (Option.some.inj he).symm⟩
    · rintro ⟨r', fault', hf', rfl⟩
      have hsame := h.symm.trans (formatLine_eq_error_iff.mpr ⟨r', fault', hf', rfl⟩)
      obtain ⟨hid, hmessage⟩ := LineFault.mk.inj (Except.error.inj hsame)
      rw [← hid, ← hmessage]

end Formatter

/-- The report tells of every line what formatting it by itself gives, and nothing else. -/
structure Report.Isolates (f : Formatter) (lines : List (Option Text)) (r : Report) : Prop where
  length : r.edits.length = lines.length
  /-- Every line has its edit, with the formatted line or, if it cannot be formatted, the line as it was. -/
  edit : ∀ (i : Nat) (line : Option Text), lines[i]? = some line → ∃ e, r.edits[i]? = some e ∧
    e.line = i ∧ e.start = 0 ∧ e.stop = (line.getD []).length ∧
    (f.formatLine (line.getD []) = .ok e.newText ∨
      (∃ d, f.formatLine (line.getD []) = .error d) ∧ e.newText = line.getD [])
  /-- The lines on which rules fail are listed in order, each once, with the first rule that fails. -/
  sorted : r.failures.Pairwise fun a b => a.line < b.line
  failure : ∀ e, e ∈ r.failures ↔ ∃ (i : Nat) (line : Option Text) (rule : Rule) (fault : RuleFault),
    lines[i]? = some line ∧ f.FailsOn (line.getD []) rule fault ∧ e = ⟨i, fault.message, some rule.id⟩
  changed : r.isChanged = true ↔ ∃ (i : Nat) (line : Option Text) (e : LineEdit),
    lines[i]? = some line ∧ r.edits[i]? = some e ∧ e.newText ≠ line.getD []
  text : r.text = Text.join ['\n'] (r.edits.map (·.newText))

namespace Formatter

theorem newText_resultAt (f : Formatter) (i : Nat) (line : Option Text) :
    f.formatLine (line.getD []) = .ok (f.resultAt i line).newText ∨
      (∃ d, f.formatLine (line.getD []) = .error d) ∧ (f.resultAt i line).newText = line.getD [] := by
  rw [LineResult.newText, resultAt]
  cases f.formatLine (line.getD []) with
  | ok u => exact Or.inl rfl
  | error d => exact Or.inr ⟨⟨d, rfl⟩, rfl⟩

theorem isolates_formatDocument (f : Formatter) (lines : List (Option Text)) :
    (f.formatDocument lines).Isolates f lines := by
  have hedit : ∀ i : Nat, (f.formatDocument lines).edits[i]? = lines[i]?.map fun line => (f.resultAt i line).edit := by
    intro i
    rw [formatDocument_eq, List.getElem?_map, getElem?_resultsFrom, Option.map_map, Nat.zero_add]
    rfl
  refine ⟨?_, fun i line hi => ?_, ?_, fun e => ?_, ?_, ?_⟩
  · simp [formatDocument_eq, resultsFrom]
  · refine ⟨(f.resultAt i line).edit, by rw [hedit, hi]; rfl, rfl, rfl, rfl, ?_⟩
    exact f.newText_resultAt i line
  · rw [formatDocument_eq, List.pairwise_filterMap]
    refine (f.pairwise_resultsFrom 0 lines).imp fun {a b} hlt d hd e he => ?_
    rw [LineResult.line_of_failure? hd, LineResult.line_of_failure? he]
    exact Int.ofNat_lt.mpr hlt
  · simp only [formatDocument_eq, List.mem_filterMap, mem_resultsFrom_iff, Nat.zero_add]
    constructor
    · rintro ⟨r, ⟨i, line, hi, rfl⟩, he⟩
      obtain ⟨rule, fault, hf, rfl⟩ := failure?_resultAt_eq_some_iff.mp he
      exact ⟨i, line, rule, fault, hi, hf, rfl⟩
    · rintro ⟨i, line, rule, fault, hi, hf, rfl⟩
      exact ⟨_, ⟨i, line, hi, rfl⟩, failure?_resultAt_eq_some_iff.mpr ⟨rule, fault, hf, rfl⟩⟩
  · simp only [hedit]
    simp only [formatDocument_eq, List.any_eq_true, mem_resultsFrom_iff, Nat.zero_add, bne_iff_ne]
    constructor
    · rintro ⟨r, ⟨i, line, hi, rfl⟩, hne⟩
      exact ⟨i, line, _, hi, by rw [hi]; rfl, hne⟩
    · rintro ⟨i, line, e, hi, he, hne⟩
      rw [hi] at he
      obtain rfl := Option.some.inj he
      exact ⟨_, ⟨i, line, hi, rfl⟩, hne⟩
  · rw [formatDocument_eq, List.map_map]
    rfl

end Formatter

/-! ## Reports one behind the other -/

namespace Report

/-- The report with its lines counted from `n`. -/
def shift (r : Report) (n : Nat) : Report :=
  { r with
    edits := r.edits.map fun e => { e with line := n + e.line }
    failures := r.failures.map fun e => { e with line := n + e.line } }

/-- One report behind the other. So are their texts, with a line feed between them unless one of them has no lines. -/
def append (r s : Report) : Report where
  edits := r.edits ++ s.edits
  text := if r.edits.isEmpty then s.text else if s.edits.isEmpty then r.text else r.text ++ '\n' :: s.text
  isChanged := r.isChanged || s.isChanged
  failures := r.failures ++ s.failures

end Report

theorem Text.join_append (separator : Text) (xs ys : List Text) : join separator (xs ++ ys) =
    if xs.isEmpty then join separator ys else if ys.isEmpty then join separator xs
    else join separator xs ++ separator ++ join separator ys := by
  induction xs with
  | nil => rfl
  | cons x xs ih =>
    cases ys with
    | nil => simp
    | cons y ys =>
      cases xs with
      | nil => simp [join, List.intercalate_cons_cons]
      | cons x' xs =>
        simp only [join, List.cons_append, List.intercalate_cons_cons, List.isEmpty_cons, Bool.false_eq_true,
          if_false] at ih ⊢
        rw [ih]
        simp only [List.append_assoc]

namespace Formatter

/-- Counting from another number changes nothing but the numbers. -/
theorem resultsFrom_eq_map (f : Formatter) (n : Nat) (lines : List (Option Text)) :
    f.resultsFrom n lines = (f.resultsFrom 0 lines).map fun r => { r with index := n + r.index } := by
  rw [resultsFrom, List.zipIdx_eq_map_add, resultsFrom, List.map_map, List.map_map]
  rfl

theorem failure?_shift (r : LineResult) (n : Nat) :
    LineResult.failure? { r with index := n + r.index } =
      r.failure?.map fun e => { e with line := n + e.line } := by
  rw [LineResult.failure?, LineResult.failure?]
  cases r.outcome with
  | ok u => rfl
  | error e => simp

/-- The report on two documents one behind the other. -/
theorem formatDocument_append (f : Formatter) (xs ys : List (Option Text)) :
    f.formatDocument (xs ++ ys) = (f.formatDocument xs).append ((f.formatDocument ys).shift xs.length) := by
  have hresults : f.resultsFrom 0 (xs ++ ys) =
      f.resultsFrom 0 xs ++ (f.resultsFrom 0 ys).map fun r => { r with index := xs.length + r.index } := by
    rw [← resultsFrom_eq_map, resultsFrom, List.zipIdx_append, List.map_append, Nat.zero_add]
    rfl
  simp only [formatDocument_eq, hresults, Report.append, Report.shift, Report.mk.injEq]
  refine ⟨?_, ?_, ?_, ?_⟩
  · rw [List.map_append, List.map_map, List.map_map]
    rfl
  · have hnew : ((f.resultsFrom 0 ys).map fun r => LineResult.newText { r with index := xs.length + r.index }) =
        (f.resultsFrom 0 ys).map LineResult.newText := rfl
    rw [List.map_append, List.map_map, Function.comp_def, hnew, join_append]
    simp only [List.isEmpty_map, List.append_assoc, List.singleton_append]
  · rw [List.any_append, List.any_map]
    rfl
  · rw [List.filterMap_append, List.filterMap_map, List.map_filterMap]
    simp only [Function.comp_def, failure?_shift]

/--
Every line of a document is formatted by itself, whatever the rules do on the others. Formatting a line fails just when
a rule fails on it, as the first rule that does; the report tells of every line its edit and its failure, and the report
on two documents one behind the other is the reports on them, with the lines of the second counted on.
-/
theorem formatDocument_isolates (f : Formatter) (xs ys : List (Option Text)) :
    (∀ line e, f.formatLine line = .error e ↔ ∃ r fault, f.FailsOn line r fault ∧ e = ⟨r.id, fault.message⟩) ∧
      (f.formatDocument xs).Isolates f xs ∧
      f.formatDocument (xs ++ ys) = (f.formatDocument xs).append ((f.formatDocument ys).shift xs.length) :=
  ⟨fun _ _ => formatLine_eq_error_iff, f.isolates_formatDocument xs, f.formatDocument_append xs ys⟩

end Formatter
end ScriptCase
