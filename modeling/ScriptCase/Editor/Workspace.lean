import ScriptCase.Editor.Document
import ScriptCase.Format.Report
import ScriptCase.Settings.Load

/-!
# Workspaces

An editor works on a folder, the root of the workspace, with documents open in it. The settings of the root are loaded
when a formatter is needed for the first time, and again whenever the root changes. Settings with an issue are rejected
and the bundled keywords used; a mishap makes the operation fail.
-/

namespace ScriptCase

/-- The state of an editor's workspace. -/
structure Workspace where
  rootUri : Option String
  configPath : Option Path
  root : Path
  documents : List (String × Document)
  settings : Option Settings
  formatter : Option Formatter

/-- What an operation leaves: the workspace, the records that it logged, and its result or failure. -/
structure Workspace.Step (α : Type) where
  workspace : Workspace
  records : List Log.Record
  result : Except Mishap α

/-- The replacement of the characters from `start` to `stop` of a line, in UTF-16 units. -/
structure TextEdit where
  line : Nat
  start : Nat
  stop : Nat
  newText : Text
  deriving DecidableEq, Repr

namespace Workspace

/-- The folder that a URI stands for; without one, the working directory. -/
def rootOf (reader : UriReader) (cwd : Path) (uri : Option String) : Path :=
  match uri.filter (· != "") with
  | some u => reader.path u
  | none => cwd

/-- The workspace at a root before anything was loaded. -/
def start (reader : UriReader) (cwd : Path) (uri : Option String) (config : Option Path) : Workspace :=
  ⟨uri, config, rootOf reader cwd uri, [], none, none⟩

/-- The workspace with the bundled keywords, after its settings were rejected because of an issue. -/
def reject (w : Workspace) (i : Issue) : Workspace × List Log.Record :=
  let (_, loading) := Table.loadBundled.collect
  ({ w with settings := some (.default w.root), formatter := some (.ofTable .bundled) },
    ⟨.error, .workspace, "Rejected workspace configuration, using bundled keywords: " ++ i.format⟩ :: loading)

/-- The record about a formatter that is ready. -/
def readyRecord (w : Workspace) : Log.Record := ⟨.info, .workspace, "Formatter configured for " ++ w.root.text⟩

/-- The step in which settings were rejected. -/
def rejected (w : Workspace) (before : List Log.Record) (i : Issue) : Step Unit :=
  let (w, records) := w.reject i
  ⟨w, before ++ records ++ [w.readyRecord], .ok ()⟩

/-- Loads the settings of the root and makes the formatter for them. -/
def reload (tree : Tree) (w : Workspace) : Step Unit :=
  match (Settings.load tree w.root w.configPath).collect with
  | (.error (.issue i), loading) => w.rejected loading i
  | (.error (.mishap m), loading) => ⟨w, loading, .error m⟩
  | (.ok s, loading) =>
    let w := { w with settings := some s }
    match (s.formatter tree none).collect with
    | (.error (.issue i), more) => w.rejected (loading ++ more) i
    | (.error (.mishap m), more) => ⟨w, loading ++ more, .error m⟩
    | (.ok f, more) =>
      let w := { w with formatter := some f }
      ⟨w, loading ++ more ++ [w.readyRecord], .ok ()⟩

/-- Moves the workspace to another root. -/
def setRoot (reader : UriReader) (tree : Tree) (w : Workspace) (uri : Option String) : Step Unit :=
  reload tree { w with rootUri := uri, root := rootOf reader tree.cwd uri }

/-- The formatter of the workspace, which is made if there is none yet. -/
def ready (tree : Tree) (w : Workspace) : Step Formatter :=
  match w.formatter with
  | some f => ⟨w, [], .ok f⟩
  | none =>
    let step := w.reload tree
    match step.result, step.workspace.formatter with
    | .error f, _ => ⟨step.workspace, step.records, .error f⟩
    | .ok _, some f => ⟨step.workspace, step.records, .ok f⟩
    | .ok _, none => ⟨step.workspace, step.records, .ok (.ofTable .bundled)⟩

/-- The open document of a URI. -/
def document? (w : Workspace) (uri : String) : Option Document := (w.documents.find? (·.1 == uri)).map (·.2)

/-- The workspace with a document open, in place of one that was open under its URI. -/
def keep (w : Workspace) (d : Document) : Workspace :=
  { w with documents := w.documents.filter (·.1 != d.uri) ++ [(d.uri, d)] }

/-- A document was opened. -/
def didOpen (w : Workspace) (uri : String) (text : Text) (version : Int) : Workspace := w.keep ⟨uri, text, version⟩

/-- A document was closed. -/
def didClose (w : Workspace) (uri : String) : Workspace :=
  { w with documents := w.documents.filter (·.1 != uri) }

/-- The text of a document on disk, with plain line breaks; empty if there is no such file. -/
def textOnDisk (reader : UriReader) (tree : Tree) (uri : String) : Except Mishap Text :=
  match (reader uri).map Path.ofString with
  | none => .ok []
  | some p =>
    match tree.read p with
    | .error .nullByte => .error (.unreachable .nullByte p)
    | .error _ => .ok []
    | .ok content => ((Utf8.decode content).map Text.unifyBreaks).mapError .undecodable

/-- The document of a URI: the open one, or else the one on disk. -/
def documentOrDisk (reader : UriReader) (tree : Tree) (w : Workspace) (uri : String) (version : Int) :
    Except Mishap Document :=
  match w.document? uri with
  | some d => .ok d
  | none => (textOnDisk reader tree uri).map fun t => ⟨uri, t, version⟩

/-- A document was changed. -/
def didChange (reader : UriReader) (tree : Tree) (w : Workspace) (uri : String) (version : Int)
    (changes : List Change) : Except Mishap Workspace :=
  (w.documentOrDisk reader tree uri version).map fun d =>
    w.keep (d.update (Document.applyChanges d.text changes) version)

/-- The edit of a line, in the units of an editor. -/
def textEdit (lines : List Text) (e : LineEdit) : TextEdit :=
  ⟨e.line, e.start, Text.units ((lines[e.line]?).getD []), e.newText⟩

/-- The warning about a line that could not be formatted. -/
def failureRecord (reader : UriReader) (d : Document) (f : LineFailure) : Log.Record :=
  ⟨.warning, .workspace, "Could not format " ++ (d.path reader).text ++ " " ++ f.text⟩

/-- The edits that format a document; none if it is not open. -/
def format (reader : UriReader) (tree : Tree) (w : Workspace) (uri : String) : Step (List TextEdit) :=
  match w.document? uri with
  | none => ⟨w, [], .ok []⟩
  | some d =>
    let step := w.ready tree
    match step.result with
    | .error f => ⟨step.workspace, step.records, .error f⟩
    | .ok formatter =>
      let report := formatter.formatDocument (d.lines.map some)
      ⟨step.workspace, step.records ++ report.records ++ report.failures.map (failureRecord reader d),
        .ok (report.edits.map (textEdit d.lines))⟩

end Workspace
end ScriptCase
