import ScriptCase.Command.Trouble
import ScriptCase.Codec.Utf8
import ScriptCase.Files.Tree
import ScriptCase.Format.Report

/-!
# Consoles

A console is what a command works on: the files, what it has printed, and the notices that it gave besides. Log records
are notices too, if they are urgent enough.
-/

namespace ScriptCase

/-- A piece of what a command prints. -/
inductive Printed where
  /-- The script was formatted. -/
  | formatted (path : Path)
  /-- The script would be formatted. -/
  | wouldReformat (path : Path)
  /-- The changes of a script. -/
  | diff (text : Text)
  /-- The content of a formatted script. -/
  | content (bytes : Bytes)
  /-- What was asked for about the program itself. -/
  | about (text : String)
  deriving DecidableEq, Repr

/-- The bytes of a printed piece. -/
def Printed.bytes : Printed → Bytes
  | .formatted p => Utf8.encode ("Formatted " ++ p.text ++ "\n").toList
  | .wouldReformat p => Utf8.encode ("Would reformat " ++ p.text ++ "\n").toList
  | .diff t => Utf8.encode t
  | .content bs => bs
  | .about s => Utf8.encode s.toList

/-- A notice that a command gives besides what it prints. -/
inductive Notice where
  | record (r : Log.Record)
  /-- A script could not be read. -/
  | unreadable (name reason : String)
  /-- A line of a script could not be formatted. -/
  | lineFailure (name : String) (f : LineFailure)
  /-- The standard input would be formatted differently. -/
  | wouldReformatInput
  | toReformat (count : Nat)
  | allFormatted
  | formatted (count : Nat)
  | errors (count : Nat)
  /-- What ended a command early. -/
  | trouble (text : String)
  /-- The command line is at fault. -/
  | usage (summary program message : String)
  | serving
  | interrupted
  deriving DecidableEq, Repr

/-- The line of a log record, given the time. -/
def Log.Record.line (r : Log.Record) (time : String) : String :=
  time ++ " - " ++ r.channel.name ++ " - " ++ r.level.name ++ " - " ++ r.message

/-- The name under which the standard input is reported. -/
def inputName : String := "<stdin>"

/-- A notice as it is shown, given the time and the number of the process. -/
def Notice.text (time process : String) : Notice → String
  | .record r => r.line time ++ "\n"
  | .unreadable name reason => "Error processing " ++ name ++ ": " ++ reason ++ "\n"
  | .lineFailure name f => "Warning in " ++ name ++ ": " ++ f.text ++ "\n"
  | .wouldReformatInput => "Would reformat " ++ inputName ++ "\n"
  | .toReformat count => toString count ++ " file(s) would be reformatted\n"
  | .allFormatted => "All files are already formatted\n"
  | .formatted count => "Formatted " ++ toString count ++ " file(s)\n"
  | .errors count => "Encountered " ++ toString count ++ " error(s)\n"
  | .trouble text => text ++ "\n"
  | .usage summary program message => summary ++ program ++ ": error: " ++ message ++ "\n"
  | .serving => "Starting SCP language server (pid=" ++ process ++ ")\n"
  | .interrupted => "Language server interrupted by user.\n"

/-- The level of a name; a name that is none means warnings. -/
def Log.Level.ofName (name : String) : Log.Level :=
  match name with
  | "debug" => .debug
  | "info" => .info
  | "error" => .error
  | _ => .warning

/-- The least urgent level that is shown: the one asked for, or else that of the environment, or else warnings. -/
def Environment.threshold (e : Environment) (asked : Option String) : Log.Level :=
  Log.Level.ofName (Text.lowerString ((asked.filter (· != "")).getD (e.logLevel.getD "warn")))

/-- What a command works on. -/
structure Console where
  tree : Tree
  threshold : Log.Level
  printed : List Printed
  notices : List Notice

namespace Console

/-- The console at the start of a command. -/
def start (tree : Tree) (threshold : Log.Level) : Console := ⟨tree, threshold, [], []⟩

/-- Prints a piece. -/
def print (c : Console) (p : Printed) : Console := { c with printed := c.printed ++ [p] }

/-- Gives a notice. -/
def notify (c : Console) (n : Notice) : Console := { c with notices := c.notices ++ [n] }

/-- Gives the records that are urgent enough. -/
def log (c : Console) (rs : List Log.Record) : Console :=
  { c with notices := c.notices ++ (rs.filter fun r => decide (c.threshold.rank ≤ r.level.rank)).map .record }

/-- Overwrites a file. -/
def write (c : Console) (p : Path) (content : Bytes) : Console := { c with tree := c.tree.write p content }

/-- Everything printed. -/
def output (c : Console) : Bytes := c.printed.flatMap Printed.bytes

/-- All notices, given the time and the number of the process. -/
def noticeText (c : Console) (time process : String) : String := String.join (c.notices.map (Notice.text time process))

/-- Shows a trouble. -/
def complain (c : Console) (t : Trouble) (verbose : Bool) : Console :=
  match t with
  | .exit _ => c
  | t => c.notify (.trouble (t.text verbose verbose))

end Console
end ScriptCase
