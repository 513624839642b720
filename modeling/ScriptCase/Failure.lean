import ScriptCase.Files.Tree
import ScriptCase.Issue
import ScriptCase.Value.Reader

/-!
# Failures of loading

Loading settings or keywords fails with an issue, which is reported in its own words, or with a mishap, which passes
through to whoever asked.
-/

namespace ScriptCase

/-- What is wrong with a file in a way that nobody foresees. -/
inductive Mishap where
  /-- Its bytes are no text. -/
  | undecodable (f : DecodeFault)
  /-- Its path holds something that no path on a disk can. -/
  | unencodable (f : EncodeFault)
  /-- Its path cannot be that of a file. -/
  | unreachable (f : FileFault) (p : Path)
  /-- It cannot be read as a value although it may be well formed. -/
  | excess (e : Excess)
  deriving DecidableEq, Repr

namespace Mishap

/-- The name under which a mishap is reported. -/
def kind : Mishap → String
  | .undecodable _ => "UnicodeDecodeError"
  | .unencodable _ => "UnicodeEncodeError"
  | .unreachable .nullByte _ => "ValueError"
  | .unreachable _ _ => "OSError"
  | .excess e => e.kind

/-- What users are told. -/
def message : Mishap → String
  | .undecodable f => f.message
  | .unencodable f => f.message
  | .unreachable f p => f.message p
  | .excess e => e.message

end Mishap

/-- Why something could not be loaded. -/
inductive Failure where
  | issue (i : Issue)
  | mishap (m : Mishap)
  deriving DecidableEq, Repr

/-- What went wrong, without place and code. -/
def Failure.message : Failure → String
  | .issue i => i.message
  | .mishap m => m.message

/-- An absolute path without double dots, as seen from a working directory; none for a path that holds a null
character. -/
def Path.resolve? (cwd p : Path) : Except Mishap Path :=
  if p.hasNull then .error (.unreachable .nullByte p) else .ok (cwd.resolve p)

end ScriptCase
