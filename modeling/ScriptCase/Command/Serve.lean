import ScriptCase.Command.Console

/-!
# Serving editors

The command that starts the language server. How the server ended is a fact about the editor and the machine; the
command tells it to users.
-/

namespace ScriptCase

/-- How a language server ended. -/
inductive Serving where
  /-- It could not be made. -/
  | notCreated (kind message : String)
  /-- The editor is gone. -/
  | finished
  /-- The user put an end to it. -/
  | interrupted
  | failed (message : String)
  | exited (status : Int)
  deriving DecidableEq, Repr

/-- The trouble of a server that failed. -/
def Trouble.serverStopped (message : String) : Trouble :=
  .command (.ofKind .runtime ("Language server stopped unexpectedly: " ++ message) none)

/-- Tells how the server ended. -/
def Serving.run (s : Serving) (c : Console) : Console × Except Trouble Int :=
  match s with
  | .notCreated kind message => (c, .error (.foreign kind message))
  | .finished => (c.notify .serving, .ok 0)
  | .interrupted => ((c.notify .serving).notify .interrupted, .ok 0)
  | .failed message => (c.notify .serving, .error (.serverStopped message))
  | .exited status => (c.notify .serving, .ok status)

end ScriptCase
