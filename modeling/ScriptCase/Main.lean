import ScriptCase.Command.Run
import Std.Time

/-!
# The program

The outermost layer. What a run may look at is read from the disk into a file tree, the run itself is `World.run`, and
what it left is handed on: files that changed, the output, the notices and the exit status.
-/

namespace ScriptCase

/-! ## What a run looks at -/

/-- The workspace and the settings file that a command line asks for, if it can be read that far. -/
def placeOf? (cwd : Path) (words : List String) : Option Place :=
  match Grammar.workspace.parse words with
  | .ok p => (Place.ofGiven cwd p.given).toOption
  | .error _ => none

/-- The request of a command line, if it can be read to its end. -/
def requestOf? (words : List String) : Option Request :=
  match Invocation.parse words with
  | .ok i => i.request
  | .error _ => none

/-- Where the settings of a place may be. -/
def Place.settingsPaths (place : Place) : List Path :=
  match place.config with
  | some c => [c]
  | none => Settings.fileNames.map fun n => place.root.join ⟨0, [n]⟩

/-- The keyword table and the targets of a request. -/
def Request.paths (r : Request) (s : Settings) : List Path :=
  match r with
  | .format f =>
    ((s.tableAt f.table?).bind LoosePath.onDisk?).toList ++ f.targets.map fun t => s.root.join (Path.ofString t)
  | .serve => []

/-- A request reads the standard input: to format it, or to hear from an editor. -/
def Request.readsInput : Request → Bool
  | .format f => f.wantsInput
  | .serve => true

/-! ## The disk -/

/-- What stands at names from the root of the disk. -/
def nodeAt? (names : List String) : IO (Option Node) := do
  let path := (← IO.currentDir) / Path.text ⟨1, names⟩
  try
    if ← path.isDir then return some .directory
    else if ← path.pathExists then return some (.file (← IO.FS.readBinFile path).toList)
    else return none
  catch _ => return none

/-- Everything at names and below them, down to a depth. -/
def nodesFrom : (depth : Nat) → (names : List String) → IO (List (List String × Node))
  | 0, _ => return []
  | depth + 1, names => do
    match ← nodeAt? names with
    | none => return []
    | some (.file content) => return [(names, .file content)]
    | some .directory =>
      let path := (← IO.currentDir) / Path.text ⟨1, names⟩
      let entries ← try path.readDir catch _ => pure #[]
      let below ← entries.toList.mapM fun e => nodesFrom depth (names ++ [e.fileName])
      return (names, .directory) :: below.flatten

/-- The directories on the way to names. -/
def nodesBefore (names : List String) : IO (List (List String × Node)) := do
  let places := (List.range names.length).map fun k => Path.normalNames [] (names.take k)
  let nodes ← places.mapM fun place => do return (← nodeAt? place).map (place, ·)
  return nodes.filterMap id

/-- The tree with what is on the disk at paths, on the way to them and below them. -/
def readPaths (tree : Tree) (paths : List Path) : IO Tree := do
  let found ← paths.mapM fun p => do
    let names := (tree.cwd.join p).names
    if p.hasNull then return []
    else return (← nodesBefore names) ++ (← nodesFrom Tree.pathLimit (Path.normalNames [] names))
  return { tree with nodes := tree.nodes ++ found.flatten }

/-- The tree in which a command line is carried out. -/
def readTree (cwd : Path) (words : List String) : IO Tree := do
  let start : Tree := ⟨[], cwd⟩
  match placeOf? cwd words, requestOf? words with
  | some place, some request =>
    let tree ← readPaths start place.settingsPaths
    match (Settings.load tree place.root place.config).collect with
    | (.ok s, _) => readPaths tree (request.paths s)
    | (.error _, _) => return tree
  | _, _ => return start

/-- Writes the files that differ between two trees. -/
def writeChanges (before after : Tree) : IO Unit :=
  after.nodes.forM fun (names, n) => do
    match n with
    | .file content =>
      if before.node? names ≠ some n then
        IO.FS.writeBinFile ((← IO.currentDir) / Path.text ⟨1, names⟩) ⟨content.toArray⟩
    | .directory => return

/-! ## The console -/

/-- The rest of a stream. -/
partial def readRest (stream : IO.FS.Stream) (sofar : ByteArray) : IO ByteArray := do
  let chunk ← stream.read 65536
  if chunk.isEmpty then return sofar else readRest stream (sofar ++ chunk)

/-- The time of day as log lines show it. -/
def timeStamp : IO String := do
  return (← Std.Time.PlainDateTime.now).format "uuuu-MM-dd HH:mm:ss,SSS"

/-- The number of this process. -/
def processNumber : IO String := do
  try return String.ofList ((← IO.FS.readFile "/proc/self/stat").toList.takeWhile Char.isDigit)
  catch _ => return "0"

/-- Hands on what a run left and gives the exit status. -/
def handOn (before : Tree) (o : Outcome) : IO UInt32 := do
  writeChanges before o.console.tree
  (← IO.getStdout).write ⟨o.console.output.toArray⟩
  (← IO.getStdout).flush
  IO.eprint (o.console.noticeText (← timeStamp) (← processNumber))
  match o.ending with
  | .status code => return UInt32.ofNat (code % 256).toNat
  | .escaped m =>
    IO.eprintln (m.kind ++ ": " ++ m.message)
    return 1

/-- Runs the program on its command line. -/
def runProgram (words : List String) : IO UInt32 := do
  let cwd := Path.ofString (← IO.currentDir).toString
  let environment : Environment := ⟨← IO.getEnv "SCPFMT_VERBOSE", ← IO.getEnv "SCPFMT_LOG_LEVEL"⟩
  let tree ← readTree cwd words
  let input ← if ((requestOf? words).map Request.readsInput).getD false
    then readRest (← IO.getStdin) .empty else pure .empty
  handOn tree ((⟨tree, input.toList, environment, .plain⟩ : World).run words)

end ScriptCase

/-- The program. -/
def main (words : List String) : IO UInt32 := ScriptCase.runProgram words
