import ScriptCase.Command.Format
import ScriptCase.Command.Serve

/-!
# Running the program

A run reads its command line twice: first for the workspace and the settings file, whatever else there may be, and then
in full. It loads the settings of the workspace and carries out the command.
-/

namespace ScriptCase

/-- What a run of the program starts from. -/
structure World where
  tree : Tree
  input : Bytes
  environment : Environment
  codecs : Codecs

/-- How a run ended. -/
inductive Ending where
  | status (code : Int)
  /-- A mishap before the command began, which nothing reports. -/
  | escaped (m : Mishap)

/-- What a run of the program left. -/
structure Outcome where
  console : Console
  ending : Ending
  /-- The folder and the settings file that a language server was started for. -/
  served : Option (Path × Option Path)

/-- The version of the program. -/
def versionText : String := "scpfmt 0.1.0\n"

/-- Answers an interruption: help and version are printed, faults are told. -/
def Interruption.answer (i : Interruption) (c : Console) : Console × Int :=
  match i with
  | .help g => (c.print (.about g.help), 0)
  | .version => (c.print (.about versionText), 0)
  | .fault g f => (c.notify (.usage g.usage g.program f.message), 2)

/-- The trouble with the settings of the workspace. -/
def Trouble.ofSettings (i : Issue) : Trouble :=
  .command (.ofKind .configuration i.format (some "Check scpfmt.toml in the workspace root"))

/-- The trouble of a command that was started without its settings. -/
def Trouble.noContext : Trouble :=
  .command {
    CommandError.ofKind .configuration "CLI context was not initialized before command execution"
      (some "This is an internal error - please report it") with
    code := "CLI_CONTEXT_NOT_INITIALIZED" }

/-- The workspace and the settings file that a command line asks for. -/
structure Place where
  root : Path
  config : Option Path
  deriving DecidableEq, Repr

/-- The absolute path of a text, if there is one. -/
def Place.resolve (cwd : Path) : Option String → Except Mishap (Option Path)
  | none => .ok none
  | some s => (cwd.resolve? (Path.ofString s)).map some

/-- The place that switches ask for; without one it is the working directory. -/
def Place.ofGiven (cwd : Path) (gs : List Given) : Except Mishap Place := do
  let root ← Place.resolve cwd (Given.path? .workspace gs)
  let config ← Place.resolve cwd (Given.path? .config gs)
  return ⟨root.getD cwd, config⟩

namespace World

/-- How the formatter for a workspace is made: from its settings and perhaps another keyword table. -/
abbrev Making := Settings → Option Path → Logged Failure Formatter

/-- The formatter that settings ask for. -/
def making (w : World) : Making := fun s table => s.formatter w.tree table

/-- The console at the start. -/
def console (w : World) (logLevel : Option String) : Console := .start w.tree (w.environment.threshold logLevel)

/-- The outcome of a command. -/
def conclude (w : World) (i : Invocation) (served : Option (Path × Option Path)) :
    Console × Except Trouble Int → Outcome
  | (c, .ok status) => ⟨c, .status status, served⟩
  | (c, .error t) => ⟨c.complain t (w.environment.isVerbose i.verbose), .status t.status, served⟩

/-- The settings file that the language server is told about. -/
def serverConfig (place : Place) (i : Invocation) : Option Path :=
  ((i.config.orElse fun _ => place.config.map Path.text).filter (· != "")).map Path.ofString

/-- Carries out a command. -/
def carryOut (w : World) (making : Making) (serving : Serving) (place : Place) (i : Invocation) (c : Console)
    (s : Settings) : Request → Outcome
  | .format r => w.conclude i none (r.run w.codecs (making s r.table?).collect s c w.input)
  | .serve =>
    let served := match serving with
      | .notCreated _ _ => none
      | _ => some (place.root, serverConfig place i)
    w.conclude i served (serving.run c)

/-- Loads the settings of the workspace and carries out a command. -/
def runIn (w : World) (making : Making) (serving : Serving) (place : Place) (i : Invocation) (r : Request) :
    Outcome :=
  let c := w.console i.logLevel
  match (Settings.load w.tree place.root place.config).collect with
  | (.error (.mishap m), records) => ⟨c.log records, .escaped m, none⟩
  | (.error (.issue issue), records) => w.conclude i none (c.log records, .error (.ofSettings issue))
  | (.ok s, records) => w.carryOut making serving place i (c.log records) s r

/-- The outcome of an interruption. -/
def interrupt (w : World) (i : Interruption) : Outcome :=
  let (c, status) := i.answer (w.console none)
  ⟨c, .status status, none⟩

/-- Runs the program in a place on the words of its command line; without a command it prints its help. -/
def runAt (w : World) (making : Making) (serving : Serving) (place : Place) (words : List String) : Outcome :=
  match Invocation.parse words with
  | .error i => w.interrupt i
  | .ok i =>
    match i.request with
    | none => ⟨(w.console i.logLevel).print (.about Grammar.commandLine.help), .status 2, none⟩
    | some r => w.runIn making serving place i r

/-- Runs the program on the words of its command line. -/
def runBy (w : World) (making : Making) (serving : Serving) (words : List String) : Outcome :=
  match Grammar.workspace.parse words with
  | .error i => w.interrupt i
  | .ok p =>
    match Place.ofGiven w.tree.cwd p.given with
    | .error m => ⟨w.console none, .escaped m, none⟩
    | .ok place => w.runAt making serving place words

/-- Runs the program. -/
def run (w : World) (words : List String) : Outcome := w.runBy w.making .finished words

end World
end ScriptCase
