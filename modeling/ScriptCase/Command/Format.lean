import ScriptCase.Arguments.Parse
import ScriptCase.Codec.Registry
import ScriptCase.Command.Console
import ScriptCase.Diff.Unified
import ScriptCase.Settings.Load

/-!
# Formatting scripts

The command that formats scripts. Each script is read, formatted, and overwritten, listed or compared; one that cannot
be read is reported and passed over. A script that cannot be written in its encoding ends the command, with nothing
left in the file.
-/

namespace ScriptCase

/-- How scripts are formatted. The encoding is the name of one of the codecs. -/
structure Job where
  formatter : Formatter
  mode : Mode
  codecs : Codecs
  encoding : Option String

/-- How many scripts were changed and how many errors there were. -/
structure Tally where
  changed : Nat
  errors : Nat
  deriving DecidableEq, Repr

/-- Both counts together. -/
def Tally.add (a b : Tally) : Tally := ⟨a.changed + b.changed, a.errors + b.errors⟩

/-- Why a script cannot be read. -/
inductive ReadFault where
  /-- It is reported and passed over. -/
  | reported (reason : String)
  /-- It ends the command. -/
  | fatal (f : CodecFault)

/-- Failures to decode are reported, all others end the command. -/
def ReadFault.ofCodec : CodecFault → ReadFault
  | .undecodable f => .reported f.message
  | f => .fatal f

namespace Job

/-- The name of the encoding, for a file or for bytes at hand. -/
def codecName (j : Job) (file : Bool) : Except CodecFault String :=
  match j.encoding with
  | none => .error (.unnamed file)
  | some name => if name.toList.contains '\x00' then .error .nullInName else .ok name

/-- The codec of files. -/
def fileCodec (j : Job) : Except CodecFault Codec := do
  let name ← j.codecName true
  (j.codecs.file name).mapError .notFound

/-- The codec of the standard input and output. -/
def inlineCodec (j : Job) : Except CodecFault Codec := do
  let name ← j.codecName false
  (j.codecs.inline name).mapError .notFound

/-- The text of a file. -/
def readFile (j : Job) (tree : Tree) (path : Path) : Except ReadFault Text :=
  match j.codecName true, tree.read path with
  | .error f, _ => .error (.fatal f)
  | .ok _, .error f => .error (.reported (f.message path))
  | .ok _, .ok content => (j.fileCodec >>= fun codec => codec.decode content).mapError .ofCodec

/-- The text of the standard input. Nothing is an empty text by any codec, be there one or not. -/
def readInput (j : Job) (input : Bytes) : Except ReadFault Text :=
  match j.codecName false with
  | .error f => .error (.fatal f)
  | .ok _ =>
    if input.isEmpty then .ok []
    else (j.inlineCodec >>= fun codec => codec.decode input).mapError .ofCodec

/-- The bytes of a text in a file. -/
def encodeFile (j : Job) (t : Text) : Except CodecFault Bytes := j.fileCodec >>= fun codec => codec.encode t

/-- The bytes of a text on the standard output. -/
def encodeOutput (j : Job) (t : Text) : Except CodecFault Bytes := j.inlineCodec >>= fun codec => codec.encode t

/-- Tells about the lines that could not be formatted. -/
def report (c : Console) (name : String) (r : Report) : Console :=
  r.failures.foldl (fun c f => c.notify (.lineFailure name f)) (c.log r.records)

/-- Overwrites a script. A script that cannot be encoded was emptied before that was seen. -/
def overwrite (j : Job) (c : Console) (path : Path) (new : Text) : Console × Except CodecFault Unit :=
  match j.encodeFile new with
  | .ok content => ((c.write path content).print (.formatted path), .ok ())
  | .error f => (c.write path [], .error f)

/-- Deals with a script that is not formatted. -/
def settle (j : Job) (c : Console) (path : Path) (old new : Text) : Console × Except CodecFault Unit :=
  match j.mode with
  | .check => (c.print (.wouldReformat path), .ok ())
  | .diff => (c.print (.diff (Diff.unified old new path.text)), .ok ())
  | .write => j.overwrite c path new

/-- The record about a script that is formatted already. -/
def unchangedRecord (path : Path) : Log.Record := ⟨.debug, .formatCommand, path.text ++ " is already formatted"⟩

/-- Formats a script. -/
def formatFile (j : Job) (c : Console) (path : Path) : Console × Except CodecFault Tally :=
  match j.readFile c.tree path with
  | .error (.reported reason) => (c.notify (.unreadable path.text reason), .ok ⟨0, 1⟩)
  | .error (.fatal f) => (c, .error f)
  | .ok old =>
    let r := j.formatter.formatText old
    let c := report c path.text r
    if r.isChanged then
      let (c, result) := j.settle c path old r.text
      (c, result.map fun _ => ⟨1, r.failures.length⟩)
    else (c.log [unchangedRecord path], .ok ⟨0, r.failures.length⟩)

/-- Formats scripts one after another and counts on from a tally. -/
def formatFiles (j : Job) : Console → Tally → List Path → Console × Except CodecFault Tally
  | c, n, [] => (c, .ok n)
  | c, n, path :: paths =>
    match j.formatFile c path with
    | (c, .ok m) => j.formatFiles c (n.add m) paths
    | (c, .error f) => (c, .error f)

/-- Formats the standard input. -/
def formatInput (j : Job) (c : Console) (input : Bytes) : Console × Except CodecFault Tally :=
  match j.readInput input with
  | .error (.reported reason) => (c.notify (.unreadable inputName reason), .ok ⟨0, 1⟩)
  | .error (.fatal f) => (c, .error f)
  | .ok old =>
    let r := j.formatter.formatText old
    let c := report c inputName r
    let tally : Tally := ⟨if r.isChanged then 1 else 0, r.failures.length⟩
    match j.mode with
    | .check => (if r.isChanged then c.notify .wouldReformatInput else c, .ok tally)
    | .diff => (c.print (.diff (Diff.unified old r.text inputName)), .ok tally)
    | .write =>
      match j.encodeOutput r.text with
      | .ok content => (c.print (.content content), .ok tally)
      | .error f => (c, .error f)

/-- Formats the standard input, if it is asked for, and then the files. -/
def formatAll (j : Job) (c : Console) (input : Option Bytes) (files : List Path) :
    Console × Except CodecFault Tally :=
  match input with
  | none => j.formatFiles c ⟨0, 0⟩ files
  | some bytes =>
    match j.formatInput c bytes with
    | (c, .ok n) => j.formatFiles c n files
    | (c, .error f) => (c, .error f)

/-- The record about everything that was done. -/
def doneRecord (count : Nat) (n : Tally) : Log.Record :=
  ⟨.info, .formatCommand, "Processed " ++ toString count ++ " file(s), " ++ toString n.changed ++ " changed, "
    ++ toString n.errors ++ " error(s)"⟩

/-- The notice about changes; none if they were shown or if there were no files. -/
def summary? (j : Job) (files : List Path) (n : Tally) : Option Notice :=
  match j.mode with
  | .check => some (if n.changed = 0 then .allFormatted else .toReformat n.changed)
  | .diff => none
  | .write => if files.isEmpty then none else some (.formatted n.changed)

/-- Scripts that are not formatted and may not be written end the command before its errors are told. -/
def isRefused (j : Job) (n : Tally) : Bool := j.mode == .check && n.changed != 0

/-- Tells what was done and gives the status of the command. -/
def finish (j : Job) (c : Console) (count : Nat) (files : List Path) (n : Tally) : Console × Int :=
  let c := c.log [doneRecord count n]
  let c := match j.summary? files n with
    | some s => c.notify s
    | none => c
  if j.isRefused n then (c, 1)
  else if n.errors = 0 then (c, 0)
  else (c.notify (.errors n.errors), 1)

end Job

/-- The path that stands for the standard input. -/
def inputMark : String := "-"

/-- The trouble with a mishap. -/
def Trouble.ofMishap (m : Mishap) : Trouble := .foreign m.kind m.message

/-- The trouble with a table or settings that the formatter cannot be made from. -/
def Trouble.ofKeywords : Failure → Trouble
  | .issue i =>
    .command (.ofKind .configuration i.format (some "Fix the keyword table or workspace configuration"))
  | .mishap m => .ofMishap m

/-- The trouble with an encoding. -/
def Trouble.ofCodec (f : CodecFault) : Trouble := .foreign f.kind f.message

/-- The trouble that there is nothing to format. -/
def Trouble.noScripts (s : Settings) : Trouble :=
  .command (.ofKind .fileNotFound "No SCP files to format"
    (some ("Pass script files or directories containing "
      ++ ", ".intercalate (s.extensions.map fun e => String.ofList e.shown) ++ " files")))

namespace FormatRequest

/-- The standard input is to be formatted. -/
def wantsInput (r : FormatRequest) : Bool := r.paths.contains inputMark

/-- The files and directories to be formatted. -/
def targets (r : FormatRequest) : List String := r.paths.filter (· != inputMark)

/-- The keyword table to be used instead of that of the settings. -/
def table? (r : FormatRequest) : Option Path := r.keywords.map Path.ofString

/-- Formats files that were found, and the standard input if it is asked for, and gives the status of the command. -/
def runOn (r : FormatRequest) (codecs : Codecs) (formatter : Formatter) (s : Settings) (c : Console) (input : Bytes)
    (files : List Path) : Console × Except Trouble Int :=
  if files.isEmpty && !r.wantsInput then (c, .error (.noScripts s))
  else
    let j : Job := ⟨formatter, r.mode, codecs, r.encoding⟩
    match j.formatAll c (if r.wantsInput then some input else none) files with
    | (c, .error f) => (c, .error (.ofCodec f))
    | (c, .ok n) =>
      let (c, status) := j.finish c (files.length + if r.wantsInput then 1 else 0) files n
      (c, .ok status)

/-- Looks for the files and formats them with a formatter that was made. -/
def runWith (r : FormatRequest) (codecs : Codecs) (formatter : Formatter) (s : Settings) (c : Console)
    (input : Bytes) : Console × Except Trouble Int :=
  match s.collect c.tree r.targets with
  | (.error m, records) => (c.log records, .error (.ofMishap m))
  | (.ok files, records) => r.runOn codecs formatter s (c.log records) input files

/-- Formats scripts: makes the formatter, looks for the files, formats them. -/
def run (r : FormatRequest) (codecs : Codecs) (made : Except Failure Formatter × List Log.Record) (s : Settings)
    (c : Console) (input : Bytes) : Console × Except Trouble Int :=
  match made with
  | (.error f, records) => (c.log records, .error (.ofKeywords f))
  | (.ok formatter, records) => r.runWith codecs formatter s (c.log records) input

end FormatRequest
end ScriptCase
