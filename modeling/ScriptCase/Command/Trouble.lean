import ScriptCase.Issue
import ScriptCase.Text.Blank
import ScriptCase.Text.Lowercase
import ScriptCase.Value.Basic

/-!
# Troubles of commands

A trouble ends a command early. Most troubles are the command's own and carry a code and a hint; an issue or a failure
from elsewhere may come through as well. `Trouble.text` is what users are shown, in more detail if they want it.
-/

namespace ScriptCase

/-- What a command had trouble with. -/
inductive CommandError.Kind where
  | general
  | configuration
  | runtime
  | fileNotFound
  deriving DecidableEq, Repr

/-- The name of a kind as it is printed. -/
def CommandError.Kind.name : CommandError.Kind → String
  | .general => "CLIError"
  | .configuration => "CLIConfigError"
  | .runtime => "CLIRuntimeError"
  | .fileNotFound => "CLIFileNotFoundError"

/-- The code of a kind. -/
def CommandError.Kind.code : CommandError.Kind → String
  | .general => ""
  | .configuration => "CLI_CONFIG_ERROR"
  | .runtime => "CLI_RUNTIME_ERROR"
  | .fileNotFound => "CLI_FILE_NOT_FOUND"

/-- A trouble of the command itself. `context` is shown only to those who want details. -/
structure CommandError where
  kind : CommandError.Kind
  message : String
  code : String
  hint : Option String
  context : List (Text × Value)
  status : Int

/-- An error with the code of its kind and nothing but a hint. -/
def CommandError.ofKind (kind : CommandError.Kind) (message : String) (hint : Option String) : CommandError :=
  ⟨kind, message, kind.code, hint, [], 1⟩

/-- What ends a command early. -/
inductive Trouble where
  | command (e : CommandError)
  | issue (i : Issue)
  /-- A failure from elsewhere. -/
  | foreign (kind message : String)
  /-- Nothing to tell: the command ends with a status. -/
  | exit (status : Int)

/-- The name of a kind of issue as it is printed. -/
def Issue.Kind.name : Issue.Kind → String
  | .general => "SCPError"
  | .keywordTable => "KeywordTableError"
  | .lineFormat => "LineFormatError"
  | .configuration => "ConfigError"

/-- Where a kind of issue is at home. -/
def Issue.Kind.home : Issue.Kind → String
  | .configuration => "scpfmt.config"
  | _ => "scpfmt.errors"

namespace Trouble

/-- What went wrong, in a few words. -/
def message : Trouble → String
  | .command e => e.message
  | .issue i => i.message
  | .foreign _ m => m
  | .exit status => toString status

/-- The kind of trouble. -/
def kindName : Trouble → String
  | .command e => e.kind.name
  | .issue i => i.kind.name
  | .foreign k _ => k
  | .exit _ => "SystemExit"

/-- The kind of trouble, and where it is at home. -/
def fullName : Trouble → String
  | .command e => "scpfmt.cli.errors." ++ e.kind.name
  | .issue i => i.kind.home ++ "." ++ i.kind.name
  | t => t.kindName

/-- The status with which the command ends. -/
def status : Trouble → Int
  | .command e => e.status
  | .exit s => s
  | _ => 1

/-- The lines that everybody is shown. -/
def headline : Trouble → List String
  | .command e => ("Error [" ++ e.code ++ "]: " ++ e.message) :: ((Issue.shown? e.hint).map ("Hint: " ++ ·)).toList
  | .issue i => ["Error: " ++ i.format]
  | t => ["Error: " ++ t.kindName ++ ": " ++ t.message]

/-- The lines about the context of a trouble. -/
def contextLines : Trouble → List String
  | .command e =>
    if e.context.isEmpty then []
    else "\nContext:" :: e.context.map fun (k, v) => "  " ++ String.ofList k ++ ": " ++ String.ofList v.text.shown
  | _ => []

/-- The length of the longest trace that is shown in full. -/
def traceLimit : Nat := 4000

/-- A trace, cut if it is too long. -/
def cutTrace (t : Text) : Text :=
  let trace := Text.trim t
  if trace.length ≤ traceLimit then trace else trace.take (traceLimit - 3) ++ "...".toList

/-- The last line of a trace: the kind of trouble, and the message unless it is empty. -/
def lastLine (name message : String) : Text := (if message = "" then name else name ++ ": " ++ message).toList

/-- The trace of a trouble. -/
def trace (t : Trouble) : Text := cutTrace (lastLine t.fullName t.message)

/-- The trace where there is no trouble. -/
def noTrace : Text := cutTrace (lastLine "NoneType" "None")

/-- What users are shown. -/
def text (t : Trouble) (verbose tracing : Bool) : String :=
  "\n".intercalate (t.headline
    ++ (if verbose then t.contextLines else [])
    ++ (if tracing then ["\nTraceback:", String.ofList t.trace] else []))

end Trouble

/-- What the environment of the program says about its output. -/
structure Environment where
  verbose : Option String
  logLevel : Option String
  deriving DecidableEq, Repr

namespace Environment

/-- The words that switch a setting on. -/
def affirmations : List Text := ["1".toList, "true".toList, "yes".toList, "on".toList]

/-- Details are wanted, by a switch or by the environment. -/
def isVerbose (e : Environment) (switch : Bool) : Bool :=
  switch || (e.verbose.map fun s => affirmations.contains (Text.lowerText (Text.trim s.toList))).getD false

end Environment
end ScriptCase
