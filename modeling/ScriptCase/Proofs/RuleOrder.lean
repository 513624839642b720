import ScriptCase.Proofs.FormatLine

/-!
# Rules in another order

Every built-in rule finds in a line what it finds in the line as it was before any other rule ran, up to places that are
in upper case by then. A list of built-in rules therefore puts in upper case the places that its members find
(`Builtin.isPass_foldl`), and neither the order of the list nor the repetition of a rule shows in a formatted line
(`Formatter.formatLine_of_mem_iff`). A permutation of the rules of a table is a case of this
(`Formatter.formatLine_of_perm`).
-/

namespace ScriptCase

open Text Rule

namespace Builtin

/-- The built-in rule with the tokens of a table. -/
def ruleIn (table : Table) (b : Builtin) : Rule := b.rule (b.tokensIn table)

theorem rules_ofTable (table : Table) : (Formatter.ofTable table).rules = order.map (ruleIn table) := rfl

theorem mem_order (b : Builtin) : b ∈ order := by cases b <;> decide

/-- A rule is found by its name. -/
theorem ofId?_id (b : Builtin) : ofId? b.id = some b := by cases b <;> decide

theorem ruleIn_injective (table : Table) : Function.Injective (ruleIn table) := by
  intro a b h
  have hid : a.id = b.id := congrArg Rule.id h
  rw [← Option.some_inj, ← ofId?_id a, hid, ofId?_id]

/-- Built-in rules one after another, in whatever order, are a pass. -/
theorem isPass_foldl (table : Table) (bs : List Builtin) :
    IsPass (fun t => bs.foldl (fun t b => b.apply (b.tokensIn table) t) t)
      (fun t => {i | ∃ b ∈ bs, i ∈ b.places (b.tokensIn table) t}) :=
  .foldl bs fun b _ => b.isPass_apply (b.plain_tokensIn table)

/-- A list in which every built-in rule occurs does what all of them do in their own order. -/
theorem foldl_apply_eq_applyAll (table : Table) {bs : List Builtin} (h : ∀ b, b ∈ bs) (t : Text) :
    bs.foldl (fun t b => b.apply (b.tokensIn table) t) t = applyAll table t := by
  refine ((isPass_foldl table bs).uppered t).unique ?_
  refine ((isPass_applyAll table).uppered t).congr fun i _ => exists_congr fun b => ?_
  exact and_congr_left fun _ => iff_of_true (mem_order b) (h b)

/-- Built-in rules do not fail. -/
theorem foldlM_ruleIn (table : Table) (bs : List Builtin) (t : Text) :
    (bs.map (ruleIn table)).foldlM Formatter.applyRule t =
      .ok (bs.foldl (fun t b => b.apply (b.tokensIn table) t) t) := by
  induction bs generalizing t with
  | nil => rfl
  | cons b bs ih => exact ih (b.apply (b.tokensIn table) t)

end Builtin

namespace Formatter

/-- Rules that are the rules of a table, in any order and any number of times. -/
theorem formatLine_of_mem_iff (table : Table) {rules : List Rule} (h : ∀ r, r ∈ rules ↔ r ∈ (ofTable table).rules)
    (line : Text) : (⟨rules⟩ : Formatter).formatLine line = .ok (lineText table line) := by
  simp only [Builtin.rules_ofTable, List.mem_map] at h
  -- Every member is a built-in rule, so the list is that of some built-in rules.
  have hrange : rules ∈ Set.range (List.map (Builtin.ruleIn table)) := by
    rw [Set.range_list_map]
    intro r hr
    obtain ⟨b, -, rfl⟩ := (h r).mp hr
    exact ⟨b, rfl⟩
  obtain ⟨bs, rfl⟩ := hrange
  have hall : ∀ b, b ∈ bs := by
    intro b
    have hb : Builtin.ruleIn table b ∈ bs.map (Builtin.ruleIn table) := (h _).mpr ⟨b, b.mem_order, rfl⟩
    exact (List.mem_map_of_injective (Builtin.ruleIn_injective table)).mp hb
  rw [formatLine, lineText]
  dsimp only
  split
  · rfl
  · rw [Builtin.foldlM_ruleIn, Builtin.foldl_apply_eq_applyAll table hall]

/-- A line is formatted alike by the rules of a table in every order, and without a failure. -/
theorem formatLine_of_perm (table : Table) {rules : List Rule} (h : rules.Perm (ofTable table).rules) (line : Text) :
    (⟨rules⟩ : Formatter).formatLine line = (ofTable table).formatLine line ∧
      ∃ u, (ofTable table).formatLine line = .ok u := by
  rw [formatLine_of_mem_iff table (fun r => h.mem_iff) line, formatLine_ofTable]
  exact ⟨rfl, _, rfl⟩

/-- The rules backwards, on a line where the mark in a trigger declaration becomes a letter and joins the command
behind it. -/
theorem formatLine_of_perm_backwards : (ofTable .bundled).rules.reverse.Perm (ofTable .bundled).rules ∧
    (⟨(ofTable .bundled).rules.reverse⟩ : Formatter).formatLine "on=@a.\u0345say b".toList =
      (ofTable .bundled).formatLine "on=@a.\u0345say b".toList ∧
    ∃ u, (ofTable .bundled).formatLine "on=@a.\u0345say b".toList = .ok u :=
  ⟨List.reverse_perm _, formatLine_of_perm .bundled (List.reverse_perm _) _⟩

end Formatter
end ScriptCase
