/-!
# Log records

Every part of the program that reports on its work does so by log records, which the caller collects in order.
-/

namespace ScriptCase

/-- How urgent a record is. -/
inductive Log.Level where
  | debug
  | info
  | warning
  | error
  deriving DecidableEq, Repr

/-- The rank by which levels are compared. -/
def Log.Level.rank : Log.Level → Nat
  | .debug => 10
  | .info => 20
  | .warning => 30
  | .error => 40

/-- The name of a level as it is printed. -/
def Log.Level.name : Log.Level → String
  | .debug => "DEBUG"
  | .info => "INFO"
  | .warning => "WARNING"
  | .error => "ERROR"

/-- The part of the program that a record comes from. -/
inductive Log.Channel where
  | keywords
  | lines
  | configuration
  | formatCommand
  | workspace
  | server
  | probe
  deriving DecidableEq, Repr

/-- The name of a channel as it is printed. -/
def Log.Channel.name : Log.Channel → String
  | .keywords => "scpfmt.formatting.keywords"
  | .lines => "scpfmt.formatting.core"
  | .configuration => "scpfmt.config"
  | .formatCommand => "scpfmt.cli.commands.format"
  | .workspace => "scpfmt.lsp.workspace"
  | .server => "scpfmt.lsp.server"
  | .probe => "scpfmt.probe"

/-- One log record. -/
structure Log.Record where
  level : Log.Level
  channel : Log.Channel
  message : String
  deriving DecidableEq, Repr

/-- A computation that may fail and that keeps a log either way, newest record last. -/
abbrev Logged (ε α : Type) := ExceptT ε (StateM (List Log.Record)) α

/-- Adds a record to the log. -/
def Log.write {ε : Type} (level : Log.Level) (channel : Log.Channel) (message : String) : Logged ε Unit :=
  modify (· ++ [⟨level, channel, message⟩])

/-- The outcome of a computation and the log that it wrote. -/
def Logged.collect {ε α : Type} (x : Logged ε α) : Except ε α × List Log.Record := x.run.run []

end ScriptCase
