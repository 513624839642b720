import ScriptCase.Codec.Utf8
import ScriptCase.Files.LoosePath
import ScriptCase.Keyword.Bundled
import ScriptCase.Log
import ScriptCase.Value.Toml.Document

/-!
# Loading keyword tables

A keyword table is a TOML file in UTF-8; without a path the bundled table is meant. Loading a table is logged with the
number of its tokens.
-/

namespace ScriptCase
namespace Table

/-- The record about a table that was loaded. -/
def recordLoaded (t : Table) : Logged Failure Table := do
  Log.write .debug .keywords
    ("Loaded keyword table from " ++ t.source.getD "" ++ " (" ++ t.census ++ ")")
  return t

/-- Loading the bundled table. -/
def loadBundled : Logged Failure Table := recordLoaded bundled

/-- The fault of the table from a source as a failure; a number that cannot be shown is a mishap of its own. -/
def failure (source : Option String) (f : TableFault) : Failure :=
  match f with
  | .invalidToken _ entry =>
    if entry.isShowable then .issue (f.issue source) else .mishap (.excess .unshownNumber)
  | f => .issue (f.issue source)

/-- The table of a text, read from `path`. -/
def ofText (content : Text) (path : String) : Except Failure Table :=
  match Toml.parse (Text.unifyBreaks content) with
  | .error (.malformed detail) => .error (failure (some path) (.malformed detail))
  | .error (.excess e) => .error (.mishap (.excess e))
  | .ok document => (ofDocument document (some path)).mapError (failure (some path))

/-- The content of the file of a table. A path that cannot be that of a file is a mishap, one that leads to no file is
an issue. -/
def contentAt (tree : Tree) (path : LoosePath) : Except Failure Bytes :=
  match path.mishap? with
  | some m => .error (.mishap m)
  | none => (tree.readLoose path).mapError fun f =>
    failure (some path.shown.text) (.unreadable (f.describe (String.ofList path.text.quoted)))

/-- Loads the table at a path. -/
def loadFrom (tree : Tree) (path : LoosePath) : Logged Failure Table :=
  match contentAt tree path with
  | .error f => throw f
  | .ok content =>
    match Utf8.decode content with
    | .error f => throw (.mishap (.undecodable f))
    | .ok text =>
      match ofText text path.shown.text with
      | .error f => throw f
      | .ok t => recordLoaded t

/-- Loads the table at a path, or the bundled one. -/
def load (tree : Tree) : Option LoosePath → Logged Failure Table
  | none => loadBundled
  | some path => loadFrom tree path

end Table
end ScriptCase
