import ScriptCase.Codec.Fault
import ScriptCase.Files.Path

/-!
# File trees

A file tree is what a disk holds, seen from a working directory. It is a value: reading looks a path up in it, and
writing gives another tree.
-/

namespace ScriptCase

/-- What stands at a path. -/
inductive Node where
  | directory
  | file (content : Bytes)
  deriving DecidableEq, Repr

/-- Why a path cannot be opened. -/
inductive FileFault where
  | noEntry
  | notADirectory
  | isADirectory
  /-- A name, or the whole path, is longer than any file's. -/
  | nameTooLong
  /-- The path holds a null character. -/
  | nullByte
  deriving DecidableEq, Repr

/-- What users are told about a path, which is given between quotes. -/
def FileFault.describe (f : FileFault) (path : String) : String :=
  match f with
  | .noEntry => "[Errno 2] No such file or directory: " ++ path
  | .notADirectory => "[Errno 20] Not a directory: " ++ path
  | .isADirectory => "[Errno 21] Is a directory: " ++ path
  | .nameTooLong => "[Errno 36] File name too long: " ++ path
  | .nullByte => "embedded null byte"

/-- What users are told about a path. -/
def FileFault.message (f : FileFault) (p : Path) : String := f.describe (Text.quotedString p.text)

/-- The nodes of a disk by the names that lead to them from its root, and the working directory. The root itself is
always a directory. -/
structure Tree where
  nodes : List (List String × Node)
  cwd : Path

namespace Tree

/-- The node at names without double dots. -/
def node? (t : Tree) (names : List String) : Option Node :=
  if names.isEmpty then some .directory else (t.nodes.find? (·.1 == names)).map (·.2)

/-- The bytes of the longest name. -/
def nameLimit : Nat := 255

/-- The bytes of the longest path. -/
def pathLimit : Nat := 4095

/-- Follows names from the directory `place`; every name but the last must lead to a directory. -/
def follow (t : Tree) : (place names : List String) → Except FileFault (List String × Node)
  | place, [] =>
    match t.node? place with
    | some n => .ok (place, n)
    | none => .error .noEntry
  | place, n :: ns =>
    match t.node? place with
    | some .directory =>
      if nameLimit < n.utf8ByteSize then .error .nameTooLong
      else if n = ".." then t.follow place.dropLast ns
      else t.follow (place ++ [n]) ns
    | some (.file _) => .error .notADirectory
    | none => .error .noEntry

/-- The place and the node that a path leads to. -/
def locate (t : Tree) (p : Path) : Except FileFault (List String × Node) :=
  if p.hasNull then .error .nullByte
  else if pathLimit < p.text.utf8ByteSize then .error .nameTooLong
  else t.follow [] (t.cwd.join p).names

/-- What stands at a path, if anything does. That a name is too long is not the same as that nothing is there. -/
def look (t : Tree) (p : Path) : Except FileFault (Option Node) :=
  match t.locate p with
  | .ok (_, n) => .ok (some n)
  | .error .nameTooLong => .error .nameTooLong
  | .error _ => .ok none

/-- The content of the file at a path. -/
def read (t : Tree) (p : Path) : Except FileFault Bytes :=
  match t.locate p with
  | .ok (_, .file content) => .ok content
  | .ok (_, .directory) => .error .isADirectory
  | .error f => .error f

/-- The tree with other content in the file at `names`. -/
def put (t : Tree) (names : List String) (content : Bytes) : Tree :=
  { t with nodes := t.nodes.map fun e => if e.1 = names then (e.1, .file content) else e }

/-- Overwrites the file at a path; a path that leads to no file changes nothing. -/
def write (t : Tree) (p : Path) (content : Bytes) : Tree :=
  match t.locate p with
  | .ok (names, .file _) => t.put names content
  | _ => t

/-- The names that lead from a place to the files below it. -/
def below (t : Tree) (place : List String) : List (List String) :=
  t.nodes.filterMap fun (names, n) =>
    match n with
    | .file _ => if place.isPrefixOf names && place.length < names.length then some (names.drop place.length) else none
    | .directory => none

/-- The names that lead from a place to everything below it. -/
def entriesBelow (t : Tree) (place : List String) : List (List String) :=
  t.nodes.filterMap fun (names, _) =>
    if place.isPrefixOf names && place.length < names.length then some (names.drop place.length) else none

/-- What stands below the directory at a path although its own path is too long for any file. A search of the directory
fails on it. -/
def overlong? (t : Tree) (p : Path) : Option Path :=
  match t.locate p with
  | .ok (place, .directory) =>
    (((t.entriesBelow place).map fun names => ⟨p.slashes, p.names ++ names⟩).mergeSort Path.le).find? fun q =>
      pathLimit < q.text.utf8ByteSize
  | _ => none

/-- The files below the directory at a path, in order. -/
def filesBelow (t : Tree) (p : Path) : List Path :=
  match t.locate p with
  | .ok (place, .directory) => ((t.below place).map fun names => ⟨p.slashes, p.names ++ names⟩).mergeSort Path.le
  | _ => []

end Tree

/-- A text with a line feed for every line break. -/
def Text.unifyBreaks : Text → Text
  | [] => []
  | '\r' :: '\n' :: cs => '\n' :: unifyBreaks cs
  | '\r' :: cs => '\n' :: unifyBreaks cs
  | c :: cs => c :: unifyBreaks cs

end ScriptCase
