import ScriptCase.Format.Formatter
import ScriptCase.Keyword.Source
import ScriptCase.Settings.Basic
import ScriptCase.Value.Json

/-!
# Loading settings and finding scripts

Settings are looked for under two names in the root of the workspace, or taken from a file that was asked for. They
give a keyword table, a formatter, and the list of script files that paths stand for.
-/

namespace ScriptCase
namespace Settings

/-- The names of settings files, the first one found counts. -/
def fileNames : List String := ["scpfmt.toml", ".scpfmtrc"]

/-- Something stands at the path. -/
def isThere (tree : Tree) (p : Path) : Except Mishap Bool :=
  match tree.look p with
  | .ok n => .ok n.isSome
  | .error f => .error (.unreachable f p)

/-- The first path at which something stands. -/
def firstThere (tree : Tree) : List Path → Except Mishap (Option Path)
  | [] => .ok none
  | p :: ps => do if ← isThere tree p then return some p else firstThere tree ps

/-- The settings file: the one that was asked for, if it is there, or the first one in the root. -/
def locate? (tree : Tree) (root : Path) (explicit : Option Path) : Except Mishap (Option Path) :=
  match explicit with
  | some p => firstThere tree [p]
  | none => firstThere tree (fileNames.map fun n => root.join ⟨0, [n]⟩)

/-- The value of a settings file: TOML by its suffix, JSON otherwise. -/
def parse (path : Path) (content : Text) : Except DocumentFault Value :=
  if path.suffix = ".toml" then (Toml.parse content).map .table else Json.parse (Text.unifyBreaks content)

/-- The fault of a settings file that has no value. -/
def documentFault : DocumentFault → SettingsFault
  | .malformed detail => .malformed detail
  | .excess e => .mishap (.excess e)

/-- Reads the value of a settings file. -/
def readValue (tree : Tree) (path : Path) : Except Failure Value :=
  match tree.read path with
  | .error f => .error ((SettingsFault.unreadable (f.message path)).failure path)
  | .ok content =>
    match Utf8.decode content with
    | .error f => .error (.mishap (.undecodable f))
    | .ok text => (parse path text).mapError fun f => (documentFault f).failure path

/-- Loads the settings in the file that was found, if one was. -/
def loadFrom (tree : Tree) (root : Path) (explicit located : Option Path) : Logged Failure Settings := do
  match located, explicit with
  | none, some p => throw (SettingsFault.notFound.failure p)
  | none, none => return .default root
  | some path, _ =>
    match readValue tree path with
    | .error f => throw f
    | .ok v =>
      Log.write .debug .configuration ("Loaded workspace configuration from " ++ path.text)
      match ofValue root path v with
      | .error f => throw (f.failure path)
      | .ok s => return s

/-- Loads the settings of a workspace. -/
def load (tree : Tree) (root : Path) (explicit : Option Path) : Logged Failure Settings :=
  match tree.cwd.resolve? root with
  | .error m => throw (.mishap m)
  | .ok root =>
    match locate? tree root explicit with
    | .error m => throw (.mishap m)
    | .ok located => loadFrom tree root explicit located

/-- The path of the keyword table: `override`, or else that of the settings. -/
def tableAt (s : Settings) (override : Option Path) : Option LoosePath :=
  (override.map .ofPath).orElse fun _ => s.keywordTable

/-- The keyword table of the settings, or the one at `override`, with the further keywords of the settings. -/
def table (s : Settings) (tree : Tree) (override : Option Path) : Logged Failure Table := do
  let t ← Table.load tree (s.tableAt override)
  if s.extraKeywords.isEmpty then return t
  else
    match t.extend (s.extraKeywords.map fun (c, ts) => (c.name, ts)) with
    | .ok t => return t
    | .error f => throw (.issue (f.issue t.source))

/-- The formatter for the keyword table of the settings. -/
def formatter (s : Settings) (tree : Tree) (override : Option Path) : Logged Failure Formatter :=
  Formatter.ofTable <$> s.table tree override

/-- The scripts below a directory, in order. -/
def discover (s : Settings) (tree : Tree) (directory : Path) : List Path :=
  (tree.filesBelow directory).filter s.isScript

/-- The files that one target stands for: the scripts below a directory, or a file whatever its suffix; none if nothing
is there. A name or a path that is too long, be it that of the target or one below it, ends the search. -/
def filesOf (s : Settings) (tree : Tree) (target : String) : Except Mishap (Option (List Path)) :=
  let path := s.root.join (Path.ofString target)
  match tree.look path with
  | .ok (some .directory) =>
    match tree.overlong? path with
    | some q => .error (.unreachable .nameTooLong q)
    | none => .ok (some (s.discover tree path))
  | .ok (some (.file _)) => .ok (some [path])
  | .ok none => .ok none
  | .error f => .error (.unreachable f path)

/-- The record about a target that is not there. -/
def skippedRecord (target : String) : Log.Record :=
  ⟨.warning, .configuration, "Skipping " ++ target ++ " (no such file or directory)"⟩

/-- The files that the targets stand for, one target after another, and the records about targets that are not there.
A target that cannot be searched ends the search. -/
def collect (s : Settings) (tree : Tree) : List String → Except Mishap (List Path) × List Log.Record
  | [] => (.ok [], [])
  | t :: ts =>
    match s.filesOf tree t with
    | .error m => (.error m, [])
    | .ok found =>
      let (files, records) := s.collect tree ts
      match found with
      | none => (files, skippedRecord t :: records)
      | some ps => (files.map (ps ++ ·), records)

end Settings
end ScriptCase
