import ScriptCase.Command.Run
import ScriptCase.Proofs.Notices

/-!
# Outcomes of the command that formats scripts

A command line may lead to a request and to the settings of a workspace (`World.Asks`), and these to a keyword table and
to scripts (`FormatRequest.Works`). If both are reached, what the run shows is what the scripts showed one after another
(`World.run_of_works`); if only the settings are reached, the run shows nothing and fails (`World.run_of_not_works`). A
command line and the same one with the switch for checks reach the same settings, or else their runs are equal
(`FormatLine.asks_or_run_eq`).
-/

namespace ScriptCase

/-- The formatter of settings is that of their table. -/
theorem Settings.collect_formatter (s : Settings) (t : Tree) (override : Option Path) :
    (s.formatter t override).collect =
      ((s.table t override).collect.1.map .ofTable, (s.table t override).collect.2) := by
  rw [formatter]
  simp only [Logged.collect, ExceptT.run_map]
  rfl

/-- What can be seen of an outcome: the files, what was printed and the status. -/
structure Outcome.Shows (o : Outcome) (tree : Tree) (printed : List Printed) (status : Int) : Prop where
  tree : o.console.tree = tree
  printed : o.console.printed = printed
  ending : o.ending = .status status

namespace FormatRequest

/-- The job of a request. -/
def job (r : FormatRequest) (codecs : Codecs) (table : Table) : Job := ⟨.ofTable table, r.mode, codecs, r.encoding⟩

/-- The input that is to be formatted. -/
def input? (r : FormatRequest) (input : Bytes) : Option Bytes := if r.wantsInput then some input else none

/-- The request comes to work on files with a table. -/
structure Works (r : FormatRequest) (s : Settings) (t : Tree) (table : Table) (files : List Path) : Prop where
  made : ∃ records, (s.table t r.table?).collect = (.ok table, records)
  found : ∃ records, s.collect t r.targets = (.ok files, records)
  any : files ≠ [] ∨ r.wantsInput = true

/-- The status after the scripts: 1 for an error, and 1 for a change when scripts are only checked. -/
def status (r : FormatRequest) : Except CodecFault Tally → Int
  | .error _ => 1
  | .ok n => if (r.mode = .check ∧ n.changed ≠ 0) ∨ n.errors ≠ 0 then 1 else 0

/-- The status is 0 if there were no errors, and no changes in a check. -/
theorem status_eq_zero_iff {r : FormatRequest} {n : Tally} :
    Ending.status (r.status (.ok n)) = .status 0 ↔ (r.mode = .check → n.changed = 0) ∧ n.errors = 0 := by
  rw [Ending.status.injEq, status]
  split
  · next h => exact iff_of_false (by decide) (by tauto)
  · next h => exact iff_of_true rfl (by tauto)

end FormatRequest

namespace Job

theorem printed_finish (j : Job) (c : Console) (count : Nat) (files : List Path) (n : Tally) :
    (j.finish c count files n).1.printed = c.printed := by
  rw [finish]
  cases j.summary? files n with
  | none =>
    split
    · rfl
    · split <;> rfl
  | some notice =>
    split
    · rfl
    · split <;> rfl

theorem finish_status (r : FormatRequest) (codecs : Codecs) (table : Table) (c : Console) (count : Nat)
    (files : List Path) (n : Tally) : ((r.job codecs table).finish c count files n).2 = r.status (.ok n) := by
  rw [finish, FormatRequest.status]
  have hrefused : (r.job codecs table).isRefused n = true ↔ r.mode = .check ∧ n.changed ≠ 0 := by
    simp [isRefused, FormatRequest.job]
  by_cases hr : (r.job codecs table).isRefused n = true
  · rw [if_pos hr, if_pos (Or.inl (hrefused.mp hr))]
  · rw [if_neg hr]
    by_cases hn : n.errors = 0
    · rw [if_pos hn, if_neg (not_or.mpr ⟨fun h => hr (hrefused.mpr h), not_not.mpr hn⟩)]
    · rw [if_neg hn, if_pos (Or.inr hn)]

end Job

theorem FormatRequest.runOn_eq {r : FormatRequest} {files : List Path} (h : files ≠ [] ∨ r.wantsInput = true)
    (codecs : Codecs) (table : Table) (s : Settings) (c : Console) (input : Bytes) :
    (r.runOn codecs (.ofTable table) s c input files).1.tree =
        ((r.job codecs table).formatAll c (r.input? input) files).1.tree ∧
      (r.runOn codecs (.ofTable table) s c input files).1.printed =
        ((r.job codecs table).formatAll c (r.input? input) files).1.printed ∧
      Trouble.exitStatus (r.runOn codecs (.ofTable table) s c input files).2 =
        r.status ((r.job codecs table).formatAll c (r.input? input) files).2 ∧
      ((r.job codecs table).formatAll c (r.input? input) files).1.notices <+:
        (r.runOn codecs (.ofTable table) s c input files).1.notices := by
  have hsome : ¬(files.isEmpty && !r.wantsInput) = true := by
    rcases h with h | h
    · simp [h]
    · simp [h]
  rw [runOn, if_neg hsome]
  dsimp only
  rw [show (if r.wantsInput then some input else none) = r.input? input from rfl,
    show (⟨.ofTable table, r.mode, codecs, r.encoding⟩ : Job) = r.job codecs table from rfl]
  rcases (r.job codecs table).formatAll c (r.input? input) files with ⟨c', f | n⟩
  · exact ⟨rfl, rfl, rfl, List.prefix_rfl⟩
  · exact ⟨Job.tree_finish _ _ _ _ _, Job.printed_finish _ _ _ _ _, Job.finish_status _ _ _ _ _ _ _,
      Job.notices_finish _ _ _ _ _⟩

namespace World

variable {w : World} {words : List String} {r : FormatRequest} {s : Settings} {table : Table} {files : List Path}

/-- The command line leads to a request to format scripts and to settings. -/
def Asks (w : World) (words : List String) (r : FormatRequest) (s : Settings) : Prop :=
  ∃ p place i records, Grammar.workspace.parse words = .ok p ∧ Place.ofGiven w.tree.cwd p.given = .ok place ∧
    Invocation.parse words = .ok i ∧ i.request = some (.format r) ∧
    (Settings.load w.tree place.root place.config).collect = (.ok s, records)

theorem shows_conclude (w : World) (i : Invocation) (x : Console × Except Trouble Int) :
    (w.conclude i none x).Shows x.1.tree x.1.printed (Trouble.exitStatus x.2) := by
  obtain ⟨c, t | k⟩ := x
  · rw [conclude]
    cases t <;> exact ⟨rfl, rfl, rfl⟩
  · exact ⟨rfl, rfl, rfl⟩

theorem notices_conclude (w : World) (i : Invocation) (x : Console × Except Trouble Int) :
    x.1.notices <+: (w.conclude i none x).console.notices := by
  obtain ⟨c, t | k⟩ := x
  · exact c.notices_complain t _
  · exact List.prefix_rfl

/-- A run that reaches settings runs the command with them. -/
theorem run_of_asks (h : w.Asks words r s) : ∃ c i, c.tree = w.tree ∧ c.printed = [] ∧
    w.run words = w.conclude i none (r.run w.codecs (s.formatter w.tree r.table?).collect s c w.input) := by
  obtain ⟨p, place, i, records, hp, hplace, hi, hr, hload⟩ := h
  refine ⟨(w.console i.logLevel).log records, i, rfl, rfl, ?_⟩
  rw [run, runBy, hp]
  simp only [hplace, runAt, hi, hr, runIn, hload]
  rfl

/-- A run that comes to work on files shows what the scripts showed, and gives all notices about them. -/
theorem run_of_works (h : w.Asks words r s) (hw : r.Works s w.tree table files) :
    ∃ c : Console, c.tree = w.tree ∧ c.printed = [] ∧
      (w.run words).Shows ((r.job w.codecs table).formatAll c (r.input? w.input) files).1.tree
        ((r.job w.codecs table).formatAll c (r.input? w.input) files).1.printed
        (r.status ((r.job w.codecs table).formatAll c (r.input? w.input) files).2) ∧
      ((r.job w.codecs table).formatAll c (r.input? w.input) files).1.notices <+: (w.run words).console.notices := by
  obtain ⟨c, i, htree, hprinted, hrun⟩ := run_of_asks h
  obtain ⟨records, hmade⟩ := hw.made
  obtain ⟨records', hfound⟩ := hw.found
  have hwork : r.run w.codecs (s.formatter w.tree r.table?).collect s c w.input =
      r.runOn w.codecs (.ofTable table) s ((c.log records).log records') w.input files := by
    rw [Settings.collect_formatter, hmade]
    change r.runWith _ _ s (c.log records) _ = _
    rw [FormatRequest.runWith, show (c.log records).tree = w.tree from htree, hfound]
  obtain ⟨htree', hprinted', hstatus, hnotices⟩ :=
    FormatRequest.runOn_eq hw.any w.codecs table s ((c.log records).log records') w.input
  refine ⟨(c.log records).log records', htree, hprinted, ?_⟩
  rw [hrun, hwork, ← htree', ← hprinted', ← hstatus]
  exact ⟨shows_conclude w i _, hnotices.trans (notices_conclude w i _)⟩

theorem run_of_works_files (h : w.Asks words r s) (hw : r.Works s w.tree table files)
    (hinput : r.wantsInput = false) : ∃ c : Console, c.tree = w.tree ∧ c.printed = [] ∧
      (w.run words).Shows ((r.job w.codecs table).formatFiles c ⟨0, 0⟩ files).1.tree
        ((r.job w.codecs table).formatFiles c ⟨0, 0⟩ files).1.printed
        (r.status ((r.job w.codecs table).formatFiles c ⟨0, 0⟩ files).2) := by
  have hnone : r.input? w.input = none := by rw [FormatRequest.input?, hinput]; rfl
  obtain ⟨c, htree, hprinted, hshows, -⟩ := run_of_works h hw
  rw [hnone] at hshows
  exact ⟨c, htree, hprinted, hshows⟩

/-- A run that does not come to work on files shows nothing and fails. -/
theorem run_of_not_works (h : w.Asks words r s) (hw : ¬∃ table files, r.Works s w.tree table files) :
    (w.run words).Shows w.tree [] 1 := by
  obtain ⟨c, i, htree, hprinted, hrun⟩ := run_of_asks h
  have hshows := shows_conclude w i (r.run w.codecs (s.formatter w.tree r.table?).collect s c w.input)
  rw [← hrun, Settings.collect_formatter] at hshows
  rw [← hprinted, ← htree]
  rcases hmade : (s.table w.tree r.table?).collect with ⟨f | table, records⟩
  · rw [hmade] at hshows
    cases f <;> exact hshows
  · rw [hmade] at hshows
    change (w.run words).Shows (r.runWith _ _ s (c.log records) _).1.tree (r.runWith _ _ s (c.log records) _).1.printed
      (Trouble.exitStatus (r.runWith _ _ s (c.log records) _).2) at hshows
    rw [FormatRequest.runWith, show (c.log records).tree = w.tree from htree] at hshows
    rcases hfound : s.collect w.tree r.targets with ⟨m | files, records'⟩
    · rw [hfound] at hshows
      exact hshows
    · have hnone : (files.isEmpty && !r.wantsInput) = true := by
        by_contra hsome
        refine hw ⟨table, files, ⟨_, hmade⟩, ⟨_, hfound⟩, ?_⟩
        simpa [imp_iff_not_or] using hsome
      rw [hfound] at hshows
      dsimp only at hshows
      rw [FormatRequest.runOn, if_pos hnone] at hshows
      exact hshows

end World

namespace FormatLine

variable {front args : List String} {i : Invocation} {r : FormatRequest} {w : World} {s : Settings}

/-- The switch for checks leads to the same settings. -/
theorem asks_check (h : FormatLine front args i r) (hmode : r.mode = .write)
    (ha : w.Asks (front ++ "format" :: args) r s) :
    w.Asks (front ++ "format" :: "--check" :: args) { r with mode := .check } s := by
  obtain ⟨p, place, -, records, hp, hplace, -, -, hload⟩ := ha
  have hgiven := h.given_check
  rw [hp] at hgiven
  obtain ⟨p', hp', hsame⟩ := map_eq_ok_iff.mp hgiven
  exact ⟨p', place, _, records, hp', hsame ▸ hplace, (h.check hmode).parse, rfl, hload⟩

/-- Where no settings are reached, the switch makes no difference, and the files are left alone. -/
theorem asks_or_run_eq (h : FormatLine front args i r) (hmode : r.mode = .write) (w : World) :
    (∃ s, w.Asks (front ++ "format" :: args) r s) ∨
      (w.run (front ++ "format" :: "--check" :: args) = w.run (front ++ "format" :: args) ∧
        (w.run (front ++ "format" :: args)).console.tree = w.tree ∧
        ∀ p, .wouldReformat p ∉ (w.run (front ++ "format" :: args)).console.printed) := by
  have hgiven := h.given_check
  have hcheck := h.check hmode
  rw [World.run, World.run, World.runBy, World.runBy]
  cases hp : Grammar.workspace.parse (front ++ "format" :: args) with
  | error e =>
    rw [hp] at hgiven
    rw [map_eq_error_iff.mp hgiven]
    refine Or.inr ⟨rfl, ?_⟩
    cases e with
    | help g => exact ⟨rfl, fun p hmem => Printed.noConfusion (List.mem_singleton.mp hmem)⟩
    | version => exact ⟨rfl, fun p hmem => Printed.noConfusion (List.mem_singleton.mp hmem)⟩
    | fault g f => exact ⟨rfl, fun p => List.not_mem_nil⟩
  | ok p =>
    rw [hp] at hgiven
    obtain ⟨p', hp', hsame⟩ := map_eq_ok_iff.mp hgiven
    rw [hp']
    dsimp only
    rw [hsame]
    cases hplace : Place.ofGiven w.tree.cwd p.given with
    | error m => exact Or.inr ⟨rfl, rfl, fun p => List.not_mem_nil⟩
    | ok place =>
      dsimp only
      rw [World.runAt, World.runAt, h.parse, hcheck.parse]
      dsimp only
      rw [h.request]
      dsimp only
      rw [World.runIn, World.runIn]
      rcases hload : (Settings.load w.tree place.root place.config).collect with ⟨f | s, records⟩
      · refine Or.inr ?_
        cases f with
        | issue issue => exact ⟨rfl, rfl, fun p => List.not_mem_nil⟩
        | mishap m => exact ⟨rfl, rfl, fun p => List.not_mem_nil⟩
      · exact Or.inl ⟨s, p, place, i, records, hp, hplace, h.parse, h.request, hload⟩

end FormatLine
end ScriptCase
