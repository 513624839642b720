import ScriptCase.Files.LoosePath
import ScriptCase.Keyword.Category
import ScriptCase.Value.Reader

/-!
# Workspace settings

The settings of a workspace tell which keyword table to use, which further keywords to know and which files are scripts.
`Settings.ofValue` reads them from the value of a settings file; `SettingsFault` lists everything that may be wrong.
-/

namespace ScriptCase

/-- Why settings cannot be used. -/
inductive SettingsFault where
  /-- The file that was asked for is not there. -/
  | notFound
  /-- The file cannot be read. -/
  | unreadable (reason : String)
  /-- The file is not well formed. -/
  | malformed (detail : String)
  /-- The file holds something else than a table. -/
  | notATable
  /-- A section is not a table. -/
  | sectionNotATable (key : String)
  /-- The path of the keyword table is not a string. -/
  | tableNotAPath
  /-- A setting is neither a string nor a list. -/
  | notStrings (key : String)
  /-- There is no keyword category of this name. -/
  | unknownCategory (name : String)
  /-- Something that nobody foresees. -/
  | mishap (m : Mishap)
  deriving DecidableEq, Repr

namespace SettingsFault

/-- What users are told. -/
def message : SettingsFault → String
  | .notFound => "Configuration file not found"
  | .unreadable reason => "Cannot read configuration: " ++ reason
  | .malformed detail => "Invalid configuration: " ++ detail
  | .notATable => "Configuration must be a table of settings"
  | .sectionNotATable key => "'" ++ key ++ "' must be a table"
  | .tableNotAPath => "'format.keyword_table' must be a path string"
  | .notStrings key => "'" ++ key ++ "' must be a string or a list of strings"
  | .unknownCategory name => "Unknown keyword category '" ++ name ++ "'"
  | .mishap m => m.message

/-- What users may do about it. -/
def hint? : SettingsFault → Option String
  | .notATable => some "Use [format] and [keywords.extend] tables (or JSON objects)"
  | .unknownCategory _ => some ("Valid categories are: " ++ Category.listing)
  | _ => none

/-- The issue about the settings of a file. -/
def issue (f : SettingsFault) (path : Path) : Issue :=
  Issue.ofKind .configuration f.message ⟨some path.text, none, none⟩ f.hint?

/-- The fault in the settings of a file as a failure. -/
def failure (path : Path) (f : SettingsFault) : Failure :=
  match f with
  | .mishap m => .mishap m
  | f => .issue (f.issue path)

end SettingsFault

/-- The settings of a workspace. `source` is the file they were read from and `raw` what it held. -/
structure Settings where
  root : Path
  source : Option Path
  keywordTable : Option LoosePath
  extensions : List LooseText
  extraKeywords : List (Category × List LooseText)
  raw : List (LooseText × Value)

namespace Settings

/-- The suffix of scripts unless settings say otherwise. -/
def defaultExtensions : List LooseText := [.ofText ".scp".toList]

/-- The settings of a workspace without a settings file. -/
def default (root : Path) : Settings := ⟨root, none, none, defaultExtensions, [], []⟩

/-- A setting that is one string or a list, whose items count as texts. -/
def strings (key : String) : Value → Except SettingsFault (List LooseText)
  | .string t => .ok [t]
  | .array items =>
    if items.all Value.isShowable then .ok (items.map Value.text)
    else .error (.mishap (.excess .unshownNumber))
  | _ => .error (.notStrings key)

/-- A section, which may be left out or null. -/
def fieldsOf (key : String) : Option Value → Except SettingsFault (List (LooseText × Value))
  | none => .ok []
  | some (.table fields) => .ok fields
  | some _ => .error (.sectionNotATable key)

/-- The path of the keyword table; a relative one is seen from the root of the workspace. -/
def tablePath (root : Path) : Option Value → Except SettingsFault (Option LoosePath)
  | none => .ok none
  | some (.string []) => .ok none
  | some (.string t) =>
    let p := LoosePath.ofText t
    if p.isAbsolute then .ok (some p) else ((p.resolve? root).mapError .mishap).map some
  | some _ => .error .tableNotAPath

/-- A suffix with the dot at its start. -/
def withDot (t : LooseText) : LooseText := if t.head? = some (.char '.') then t else .char '.' :: t

/-- The suffixes of scripts. -/
def extensionList : Option Value → Except SettingsFault (List LooseText)
  | none => .ok defaultExtensions
  | some v => (strings "format.extensions" v).map fun ts => ts.map withDot

/-- The category with a name that may hold halves of surrogate pairs. -/
def categoryNamed? (name : LooseText) : Option Category := name.text?.bind fun n => Category.ofName? (String.ofList n)

/-- The further keywords of every category that is mentioned. -/
def extraList : List (LooseText × Value) → Except SettingsFault (List (Category × List LooseText))
  | [] => .ok []
  | (k, v) :: fs =>
    match categoryNamed? k with
    | none => .error (.unknownCategory (String.ofList k.shown))
    | some c => do
      let tokens ← strings ("keywords.extend." ++ c.name) v
      let rest ← extraList fs
      return (c, tokens) :: rest

/-- The settings in the value of a settings file. -/
def ofValue (root source : Path) (v : Value) : Except SettingsFault Settings :=
  match v with
  | .table fields => do
    let format ← fieldsOf "format" (Value.setting? "format" fields)
    let keywordTable ← tablePath root (Value.setting? "keyword_table" format)
    let extensions ← extensionList (Value.setting? "extensions" format)
    let keywords ← fieldsOf "keywords" (Value.setting? "keywords" fields)
    let extend ← fieldsOf "keywords.extend" (Value.setting? "extend" keywords)
    let extra ← extraList extend
    return ⟨root, some source, keywordTable, extensions, extra, fields⟩
  | _ => .error .notATable

/-- The suffix of the path is one of the suffixes of scripts, whatever their case. -/
def isScript (s : Settings) (p : Path) : Bool :=
  (s.extensions.map LooseText.lower).contains (.ofText (Text.lowerText p.suffix.toList))

end Settings
end ScriptCase
