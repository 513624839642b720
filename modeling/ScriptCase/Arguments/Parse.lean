import ScriptCase.Arguments.Word

/-!
# Reading a command line

The words are acted on from left to right. Asking for help or for the version ends the reading at once, as does the
first fault; words that nothing asks for are kept and complained about at the end.

`Grammar.parse` reads words by one grammar. `Invocation.parse` reads a whole command line: the command and everything
behind it are read by the grammar of the command.
-/

namespace ScriptCase

/-- Why reading a command line ended before its end. -/
inductive Interruption where
  | help (g : Grammar)
  | version
  | fault (g : Grammar) (f : UsageFault)

/-- What was read by one grammar. -/
structure Parsed where
  given : List Given
  /-- The paths, or the command and everything behind it. -/
  operands : List String
  /-- Words that nothing asks for. -/
  extras : List String
  /-- The paths are complete: further operands are extras. -/
  closed : Bool

namespace Parsed

/-- Nothing was read yet. -/
def empty : Parsed := ⟨[], [], [], false⟩

/-- One word more that nothing asks for. -/
def addExtra (p : Parsed) (word : String) : Parsed := { p with extras := p.extras ++ [word] }

/-- The paths end where a switch follows them. -/
def close (p : Parsed) : Parsed := { p with closed := p.closed || !p.operands.isEmpty }

end Parsed

namespace Grammar

/-- The value, if there is one, is among the choices of the switch. -/
def checkChoice (g : Grammar) (s : Switch) (value : Option String) : Except Interruption Unit :=
  match s.choices?, value with
  | some choices, some v =>
    if choices.contains v then .ok () else .error (.fault g (.noSuchChoice s.shown v choices))
  | _, _ => .ok ()

/-- The switch is not excluded by one that was given before. -/
def checkRival (g : Grammar) (p : Parsed) (s : Switch) : Except Interruption Unit :=
  match s.rival? with
  | some r => if Given.has r p.given then .error (.fault g (.excluded s r)) else .ok ()
  | none => .ok ()

/-- Acts on a switch and its value. -/
def take (g : Grammar) (p : Parsed) (s : Switch) (value : Option String) : Except Interruption Parsed := do
  let value := value.filter (· != "--")
  g.checkChoice s value
  g.checkRival p s
  match s with
  | .help => .error (.help g)
  | .version => .error .version
  | s => .ok { p.close with given := p.given ++ [⟨s, value⟩] }

/-- The first fault in a word of short names, `rest` being what follows the name of `s`. -/
def clusterFault? (g : Grammar) : (s : Switch) → (rest : Text) → Option UsageFault
  | _, [] => none
  | s, c :: rest =>
    match g.switch? (String.ofList ['-', c]) with
    | none => some (.needlessValue s (String.ofList (c :: rest)))
    | some next => g.clusterFault? next rest

/-- A switch with the value that was joined to it. -/
def takeJoined (g : Grammar) (p : Parsed) (s : Switch) (value : String) : Except Interruption Parsed :=
  if s.takesValue then g.take p s (some value) else .error (.fault g (.needlessValue s value))

/-- A switch at the head of a word of short names. -/
def takeCluster (g : Grammar) (p : Parsed) (s : Switch) (rest : Text) : Except Interruption Parsed :=
  match g.clusterFault? s rest with
  | some f => .error (.fault g f)
  | none => g.take p s none

/-- An operand, where the paths are not complete. -/
def takeOperand (g : Grammar) (p : Parsed) (word : String) : Parsed :=
  match g.operands with
  | .none => p.addExtra word
  | _ => if p.closed then p.addExtra word else { p with operands := p.operands ++ [word] }

/-- Two hyphens, and whether more words follow. They are dropped in front of paths and behind them. -/
def takeTerminator (g : Grammar) (p : Parsed) (more : Bool) : Parsed :=
  match g.operands with
  | .none => p.addExtra "--"
  | _ => if p.closed || (p.operands.isEmpty && !more) then p.addExtra "--" else p

/-- Acts on the words from left to right. -/
def parseFrom (g : Grammar) : Parsed → List (String × Word) → Except Interruption Parsed
  | p, [] => .ok p
  | p, (word, .operand) :: rest =>
    if g.operands = .command then .ok { p with operands := word :: rest.map (·.1) }
    else g.parseFrom (g.takeOperand p word) rest
  | p, (word, .terminator) :: rest =>
    if g.operands = .command ∧ rest ≠ [] then .ok { p with operands := word :: rest.map (·.1) }
    else g.parseFrom (g.takeTerminator p !rest.isEmpty) rest
  | p, (word, .unknown) :: rest => g.parseFrom (p.close.addExtra word) rest
  | p, (_, .cluster s chars) :: rest => do g.parseFrom (← g.takeCluster p s chars) rest
  | p, (_, .switch s (some value)) :: rest => do g.parseFrom (← g.takeJoined p s value) rest
  | p, (_, .switch s none) :: (value, w) :: rest => do
    if s.takesValue then
      if w = .operand then g.parseFrom (← g.take p s (some value)) rest else .error (.fault g (.missingValue s))
    else g.parseFrom (← g.take p s none) ((value, w) :: rest)
  | p, [(_, .switch s none)] => do
    if s.takesValue then .error (.fault g (.missingValue s)) else g.take p s none

/-- Reads words by a grammar. -/
def parse (g : Grammar) (words : List String) : Except Interruption Parsed := do
  let classified ← (Word.classifyAll g words).mapError (.fault g)
  let p ← g.parseFrom .empty classified
  if g.operands = .paths ∧ p.operands = [] then .error (.fault g .missingPaths) else .ok p

end Grammar

/-- What is done with scripts that are not formatted. -/
inductive Mode where
  /-- They are overwritten with their formatted text. -/
  | write
  /-- They are listed. -/
  | check
  /-- The changes are shown. -/
  | diff
  deriving DecidableEq, Repr

/-- What the command that formats scripts is asked to do. -/
structure FormatRequest where
  paths : List String
  mode : Mode
  keywords : Option String
  /-- The name of the encoding; two hyphens in its place are none. -/
  encoding : Option String
  deriving DecidableEq, Repr

/-- A command. -/
inductive Request where
  | format (r : FormatRequest)
  | serve
  deriving DecidableEq, Repr

/-- A whole command line. -/
structure Invocation where
  config : Option String
  verbose : Bool
  logLevel : Option String
  request : Option Request
  deriving DecidableEq, Repr

namespace Invocation

/-- The request of the command that formats scripts. -/
def formatRequest (p : Parsed) : Request :=
  .format {
    paths := p.operands
    mode := if Given.has .check p.given then .check else if Given.has .diff p.given then .diff else .write
    keywords := Given.path? .keywords p.given
    encoding := ((Given.last? .encoding p.given).map (·.value)).getD (some "utf-8") }

/-- The names of the commands. -/
def commandNames : List String := ["format", "lsp"]

/-- Reads the command and everything behind it: the request, and the words that nothing asks for. -/
def parseCommand (command : String) (words : List String) : Except Interruption (Request × List String) :=
  match command with
  | "format" => (Grammar.format.parse words).map fun p => (formatRequest p, p.extras)
  | "lsp" => (Grammar.serve.parse words).map fun p => (.serve, p.extras)
  | _ => .error (.fault .commandLine (.noSuchChoice "command" command commandNames))

/-- The request on a command line, and the words that nothing asks for. -/
def parseRequest (p : Parsed) : Except Interruption (Option Request × List String) :=
  match p.operands with
  | [] => .ok (none, p.extras)
  | command :: words => (parseCommand command words).map fun r => (some r.1, p.extras ++ r.2)

/-- Reads a whole command line. -/
def parse (words : List String) : Except Interruption Invocation := do
  let p ← Grammar.commandLine.parse words
  let (request, extras) ← parseRequest p
  if extras = [] then
    .ok ⟨Given.text? .config p.given, Given.has .verbose p.given, Given.text? .logLevel p.given, request⟩
  else .error (.fault .commandLine (.unrecognized extras))

end Invocation
end ScriptCase
