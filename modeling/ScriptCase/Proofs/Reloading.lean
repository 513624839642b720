import Mathlib.Tactic.Common
import ScriptCase.Editor.Uri
import ScriptCase.Editor.Workspace

/-!
# Workspaces that change as a whole

The root of a workspace, its settings and its formatter belong together. A call that gives the workspace another root or
loads its settings again should change all three or none of them. `Workspace.Reloads` says what loading can do: it ends
with settings and a formatter for them (`Workspace.Setup`), or with a mishap. A mishap comes too late in two cases
(`Workspace.Call.Breaks`): the root was moved before its settings could not be read, or settings were stored before the
keyword table that they name could not be read.

`Workspace.after_whole_iff` says that these are all cases in which a call leaves the workspace half-changed. In a run of
calls without them, settings and formatter are always those of the root (`Workspace.InOrder.after`).
-/

namespace ScriptCase
namespace Workspace

/-! ## What loading does -/

/-- The settings and the formatter that a root has: those in its settings file, or the default settings and the bundled
keywords where there is an issue with either. -/
inductive Setup (tree : Tree) (root : Path) (config : Option Path) : Settings → Formatter → Prop
  | loaded {s : Settings} {f : Formatter} {loading making : List Log.Record}
      (hs : (Settings.load tree root config).collect = (.ok s, loading))
      (hf : (s.formatter tree none).collect = (.ok f, making)) : Setup tree root config s f
  | noSettings {i : Issue} {loading : List Log.Record}
      (hs : (Settings.load tree root config).collect = (.error (.issue i), loading)) :
      Setup tree root config (.default root) (.ofTable .bundled)
  | noTable {s : Settings} {i : Issue} {loading making : List Log.Record}
      (hs : (Settings.load tree root config).collect = (.ok s, loading))
      (hf : (s.formatter tree none).collect = (.error (.issue i), making)) :
      Setup tree root config (.default root) (.ofTable .bundled)

/-- The settings of a root end with a mishap. -/
def SettingsMishap (tree : Tree) (root : Path) (config : Option Path) : Prop :=
  ∃ m loading, (Settings.load tree root config).collect = (.error (.mishap m), loading)

/-- The settings of a root can be loaded, but the table that they name ends with a mishap. -/
def TableMishap (tree : Tree) (root : Path) (config : Option Path) (s : Settings) : Prop :=
  (∃ loading, (Settings.load tree root config).collect = (.ok s, loading)) ∧
    ∃ m making, (s.formatter tree none).collect = (.error (.mishap m), making)

/-- What loading leaves. -/
inductive Reloads (tree : Tree) (w : Workspace) : Workspace → Prop
  | setup {s : Settings} {f : Formatter} (h : Setup tree w.root w.configPath s f) :
      Reloads tree w { w with settings := some s, formatter := some f }
  | unread (h : SettingsMishap tree w.root w.configPath) : Reloads tree w w
  | unmade {s : Settings} (h : TableMishap tree w.root w.configPath s) : Reloads tree w { w with settings := some s }

theorem reload_reloads (tree : Tree) (w : Workspace) : Reloads tree w (w.reload tree).workspace := by
  rw [reload]
  rcases hs : (Settings.load tree w.root w.configPath).collect with ⟨(i | m) | s, loading⟩
  · exact .setup (.noSettings hs)
  · exact .unread ⟨m, loading, hs⟩
  · dsimp only
    rcases hf : (s.formatter tree none).collect with ⟨(i | m) | f, making⟩
    · exact .setup (.noTable hs hf)
    · exact .unmade ⟨⟨loading, hs⟩, m, making, hf⟩
    · exact .setup (.loaded hs hf)

section Mishaps

variable {tree : Tree} {root : Path} {config : Option Path} {s s' : Settings} {f : Formatter}

/-- Loading does not end both with and without a mishap. -/
theorem Setup.not_settingsMishap (h : Setup tree root config s f) : ¬SettingsMishap tree root config := by
  rintro ⟨m, loading, hm⟩
  cases h with
  | loaded hs => simp [hs] at hm
  | noSettings hs => simp [hs] at hm
  | noTable hs => simp [hs] at hm

theorem Setup.not_tableMishap (h : Setup tree root config s f) : ¬TableMishap tree root config s' := by
  rintro ⟨⟨loading, hm⟩, m, making, hf'⟩
  cases h with
  | loaded hs hf =>
    obtain rfl : s = s' := by simpa [hs] using congrArg Prod.fst hm
    simp [hf] at hf'
  | noSettings hs => simp [hs] at hm
  | @noTable s _ _ _ hs hf =>
    obtain rfl : s = s' := by simpa [hs] using congrArg Prod.fst hm
    simp [hf] at hf'

theorem SettingsMishap.not_tableMishap (h : SettingsMishap tree root config) : ¬TableMishap tree root config s := by
  rintro ⟨⟨loading, hs⟩, -⟩
  obtain ⟨m, loading', hm⟩ := h
  simp [hs] at hm

theorem TableMishap.unique (h : TableMishap tree root config s) (h' : TableMishap tree root config s') : s' = s := by
  obtain ⟨⟨loading, hs⟩, -⟩ := h
  obtain ⟨⟨loading', hs'⟩, -⟩ := h'
  simpa [hs, eq_comm] using congrArg Prod.fst hs'

end Mishaps

/-! ## Calls -/

/-- What is asked of a workspace. -/
inductive Call where
  | setRoot (uri : Option String)
  | reload
  | format (uri : String)

/-- Root, settings and formatter are those that a root has. -/
structure BelongsTo (w : Workspace) (tree : Tree) (place : Path) : Prop where
  root : w.root = place
  setup : ∃ s f, Setup tree place w.configPath s f ∧ w.settings = some s ∧ w.formatter = some f

/-- Root, settings and formatter are the same. -/
structure SameSetup (w w' : Workspace) : Prop where
  root : w'.root = w.root
  settings : w'.settings = w.settings
  formatter : w'.formatter = w.formatter

namespace Call

/-- The workspace after a call, whether it failed or not. -/
def perform (reader : UriReader) (tree : Tree) (w : Workspace) : Call → Workspace
  | .setRoot uri => (w.setRoot reader tree uri).workspace
  | .reload => (w.reload tree).workspace
  | .format uri => (w.format reader tree uri).workspace

/-- The root that the workspace is to have. -/
def rootAt (reader : UriReader) (tree : Tree) (w : Workspace) : Call → Path
  | .setRoot uri => rootOf reader tree.cwd uri
  | _ => w.root

/-- The call loads settings. Formatting does so for a document that is open, if there is no formatter yet. -/
def Loads (w : Workspace) : Call → Prop
  | .format uri => w.document? uri ≠ none ∧ w.formatter = none
  | _ => True

/-- The call ends with a mishap when the root was moved or other settings were stored. -/
def Breaks (reader : UriReader) (tree : Tree) (w : Workspace) (call : Call) : Prop :=
  call.Loads w ∧
    ((SettingsMishap tree (call.rootAt reader tree w) w.configPath ∧ call.rootAt reader tree w ≠ w.root) ∨
      ∃ s, TableMishap tree (call.rootAt reader tree w) w.configPath s ∧
        ¬(call.rootAt reader tree w = w.root ∧ w.settings = some s))

/-- The call changes root, settings and formatter to those of the root that is asked for, or none of them. -/
def Whole (reader : UriReader) (tree : Tree) (w : Workspace) (call : Call) : Prop :=
  (call.perform reader tree w).BelongsTo tree (call.rootAt reader tree w) ∨ w.SameSetup (call.perform reader tree w)

variable {reader : UriReader} {tree : Tree} {w : Workspace} {call : Call}

theorem workspace_ready (tree : Tree) (w : Workspace) :
    (w.ready tree).workspace = if w.formatter.isSome then w else (w.reload tree).workspace := by
  rw [ready]
  cases w.formatter with
  | some f => rfl
  | none =>
    dsimp only
    split <;> rfl

theorem workspace_format (reader : UriReader) (tree : Tree) (w : Workspace) (uri : String) :
    (w.format reader tree uri).workspace = if (w.document? uri).isSome then (w.ready tree).workspace else w := by
  rw [Workspace.format]
  cases w.document? uri with
  | none => rfl
  | some d =>
    dsimp only
    split <;> rfl

/-- A call loads the settings of the root that is asked for, or does nothing. -/
theorem perform_cases (reader : UriReader) (tree : Tree) (w : Workspace) (call : Call) :
    (call.Loads w ∧ ∃ uri,
        Reloads tree { w with rootUri := uri, root := call.rootAt reader tree w } (call.perform reader tree w)) ∨
      (¬call.Loads w ∧ call.perform reader tree w = w) := by
  cases call with
  | setRoot uri => exact Or.inl ⟨trivial, uri, reload_reloads tree _⟩
  | reload => exact Or.inl ⟨trivial, w.rootUri, reload_reloads tree w⟩
  | format uri =>
    rw [perform, workspace_format, workspace_ready]
    by_cases hd : w.document? uri = none
    · exact Or.inr ⟨fun h => h.1 hd, by simp [hd]⟩
    by_cases hf : w.formatter = none
    · refine Or.inl ⟨⟨hd, hf⟩, w.rootUri, ?_⟩
      rw [if_pos (Option.isSome_iff_ne_none.2 hd), if_neg (by simp [hf])]
      exact reload_reloads tree w
    · refine Or.inr ⟨fun h => hf h.2, ?_⟩
      rw [if_pos (Option.isSome_iff_ne_none.2 hd), if_pos (Option.isSome_iff_ne_none.2 hf)]

theorem configPath_perform (reader : UriReader) (tree : Tree) (w : Workspace) (call : Call) :
    (call.perform reader tree w).configPath = w.configPath := by
  rcases call.perform_cases reader tree w with ⟨-, uri, hr⟩ | ⟨-, he⟩
  · generalize call.perform reader tree w = w' at hr ⊢
    cases hr <;> rfl
  · rw [he]

/-- Loading that ends with settings and a formatter breaks nothing. -/
theorem not_breaks_of_setup {s : Settings} {f : Formatter}
    (h : Setup tree (call.rootAt reader tree w) w.configPath s f) : ¬call.Breaks reader tree w := by
  rintro ⟨-, ⟨hm, -⟩ | ⟨s', hm, -⟩⟩
  · exact h.not_settingsMishap hm
  · exact h.not_tableMishap hm

/-- A call leaves the workspace whole unless it is one of those that break it. -/
theorem whole_iff (reader : UriReader) (tree : Tree) (w : Workspace) (call : Call) :
    call.Whole reader tree w ↔ ¬call.Breaks reader tree w := by
  rw [Whole]
  rcases call.perform_cases reader tree w with ⟨hl, uri, hr⟩ | ⟨hl, he⟩
  · generalize call.perform reader tree w = w' at hr
    cases hr with
    | setup h =>
      exact iff_of_true (Or.inl ⟨rfl, _, _, h, rfl, rfl⟩) (not_breaks_of_setup h)
    | unread h =>
      constructor
      · rintro (⟨-, s, f, hs, -⟩ | hw) ⟨-, ⟨-, hne⟩ | ⟨s, hm, -⟩⟩
        · exact hs.not_settingsMishap h
        · exact hs.not_tableMishap hm
        · exact hne hw.root
        · exact h.not_tableMishap hm
      · intro hb
        have hroot : call.rootAt reader tree w = w.root := by
          by_contra hne
          exact hb ⟨hl, Or.inl ⟨h, hne⟩⟩
        exact Or.inr ⟨hroot, rfl, rfl⟩
    | @unmade s h =>
      constructor
      · rintro (⟨-, s', f, hs, -⟩ | hw) ⟨-, ⟨hm, -⟩ | ⟨s'', hm, hne⟩⟩
        · exact hs.not_settingsMishap hm
        · exact hs.not_tableMishap h
        · exact hm.not_tableMishap h
        · obtain rfl := h.unique hm
          exact hne ⟨hw.root, hw.settings.symm⟩
      · intro hb
        have hsame : call.rootAt reader tree w = w.root ∧ w.settings = some s := by
          by_contra hne
          exact hb ⟨hl, Or.inr ⟨s, h, hne⟩⟩
        exact Or.inr ⟨hsame.1, hsame.2.symm, rfl⟩
  · rw [he]
    exact iff_of_true (Or.inr ⟨rfl, rfl, rfl⟩) fun h => hl h.1

end Call

/-! ## Runs of calls -/

/-- The workspace after a run of calls, each of which finds the files as they are at its time. -/
def after (reader : UriReader) (w : Workspace) (calls : List (Tree × Call)) : Workspace :=
  calls.foldl (fun w c => c.2.perform reader c.1 w) w

/-- No call of a run breaks the workspace. -/
def Unbroken (reader : UriReader) (w : Workspace) : List (Tree × Call) → Prop
  | [] => True
  | (tree, call) :: calls => ¬call.Breaks reader tree w ∧ (call.perform reader tree w).Unbroken reader calls

/-- Nothing was loaded yet, or settings and formatter are those that the root had at some time. -/
def InOrder (w : Workspace) : Prop :=
  (w.settings = none ∧ w.formatter = none) ∨ ∃ tree, w.BelongsTo tree w.root

theorem inOrder_start (reader : UriReader) (cwd : Path) (uri : Option String) (config : Option Path) :
    (start reader cwd uri config).InOrder :=
  Or.inl ⟨rfl, rfl⟩

/-- A call that does not break the workspace leaves it in order. -/
theorem InOrder.perform {reader : UriReader} {tree : Tree} {w : Workspace} {call : Call} (hw : w.InOrder)
    (h : ¬call.Breaks reader tree w) : (call.perform reader tree w).InOrder := by
  rcases (call.whole_iff reader tree w).2 h with hb | hsame
  · exact Or.inr ⟨tree, hb.root ▸ hb⟩
  rcases hw with ⟨hs, hf⟩ | ⟨tree', -, s, f, hset, hs, hf⟩
  · exact Or.inl ⟨hsame.settings.trans hs, hsame.formatter.trans hf⟩
  · refine Or.inr ⟨tree', rfl, s, f, ?_, hsame.settings.trans hs, hsame.formatter.trans hf⟩
    rwa [hsame.root, call.configPath_perform]

theorem InOrder.after {reader : UriReader} {w : Workspace} {calls : List (Tree × Call)} (hw : w.InOrder)
    (h : w.Unbroken reader calls) : (w.after reader calls).InOrder := by
  induction calls generalizing w with
  | nil => exact hw
  | cons c calls ih => exact ih (hw.perform h.1) h.2

/-- After each call of a run the root, the settings and the formatter are those of the root that was asked for, or those
from before the call, unless the call ended with a mishap when some of them had been changed. As long as no call does,
a workspace that was in order, such as one that was just started, always has settings and a formatter of its root, or
neither. -/
theorem after_whole_iff (reader : UriReader) (w : Workspace) (calls : List (Tree × Call)) (tree : Tree) (call : Call) :
    (((w.after reader (calls ++ [(tree, call)])).BelongsTo tree (call.rootAt reader tree (w.after reader calls)) ∨
        (w.after reader calls).SameSetup (w.after reader (calls ++ [(tree, call)]))) ↔
      ¬call.Breaks reader tree (w.after reader calls)) ∧
    (w.InOrder → w.Unbroken reader calls → (w.after reader calls).InOrder) := by
  refine ⟨?_, InOrder.after⟩
  have hlast : w.after reader (calls ++ [(tree, call)]) = call.perform reader tree (w.after reader calls) := by
    simp [after]
  rw [hlast]
  exact call.whole_iff reader tree (w.after reader calls)

/-- The settings file of a workspace stops being UTF-8: loading it again fails, and the workspace stays in order. -/
theorem after_whole_iff_undecodable :
    ((start Uri.fsPath? ⟨1, []⟩ none none).after Uri.fsPath?
      [(⟨[], ⟨1, []⟩⟩, .reload), (⟨[(["scpfmt.toml"], .file [0xff])], ⟨1, []⟩⟩, .reload)]).InOrder := by
  have hstart := inOrder_start Uri.fsPath? ⟨1, []⟩ none none
  refine (after_whole_iff Uri.fsPath? (start Uri.fsPath? ⟨1, []⟩ none none) _ ⟨[], ⟨1, []⟩⟩ .reload).2 hstart
    ⟨?_, ?_, trivial⟩
  · exact Call.not_breaks_of_setup (.loaded rfl rfl)
  · have hm : SettingsMishap ⟨[(["scpfmt.toml"], .file [0xff])], ⟨1, []⟩⟩ ⟨1, []⟩ none := ⟨_, _, rfl⟩
    rintro ⟨-, ⟨-, hne⟩ | ⟨s, ht, -⟩⟩
    · exact hne rfl
    · exact hm.not_tableMishap ht

/-- A workspace is loaded in a directory and then moved to the working directory, whose settings file is not UTF-8: it
gets the new root and keeps the settings of the old one. -/
theorem after_halfway :
    let tree : Tree := ⟨[(["scpfmt.toml"], .file [0xff]), (["a"], .directory)], ⟨1, []⟩⟩
    let w := (⟨some "file:///a", none, ⟨1, ["a"]⟩, [], none, none⟩ : Workspace)
    ¬((w.after Uri.fsPath? [(tree, .reload), (tree, .setRoot none)]).BelongsTo tree tree.cwd ∨
      (w.after Uri.fsPath? [(tree, .reload)]).SameSetup
        (w.after Uri.fsPath? [(tree, .reload), (tree, .setRoot none)])) := by
  intro tree w
  have hm : SettingsMishap tree tree.cwd none := ⟨_, _, rfl⟩
  have hroot : tree.cwd ≠ (w.after Uri.fsPath? [(tree, .reload)]).root := by decide
  have hbreaks : (Call.setRoot none).Breaks Uri.fsPath? tree (w.after Uri.fsPath? [(tree, .reload)]) :=
    ⟨trivial, Or.inl ⟨hm, hroot⟩⟩
  exact fun h => ((Call.setRoot none).whole_iff Uri.fsPath? tree (w.after Uri.fsPath? [(tree, .reload)])).1 h hbreaks

end Workspace
end ScriptCase
