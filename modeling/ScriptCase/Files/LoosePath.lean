import ScriptCase.Codec.Utf8
import ScriptCase.Failure

/-!
# Loose paths

A path in settings is a loose text. Some halves of surrogate pairs stand for single bytes there, so that any bytes can
be written as a path; all others are stray, and a path with one of these is refused before anything is looked for. A
path of bytes that are not UTF-8 leads nowhere, since no file has such a name.
-/

namespace ScriptCase

/-- The byte that a half stands for in a path. -/
def Half.byte? (h : Half) : Option UInt8 :=
  if 0xdc80 ≤ h.number ∧ h.number ≤ 0xdcff then some (UInt8.ofNat (h.number - 0xdc00)) else none

namespace CodePoint

/-- Half of a surrogate pair. -/
def isHalf : CodePoint → Bool
  | .char _ => false
  | .half _ => true

/-- A half that stands for no byte. -/
def isStray : CodePoint → Bool
  | .char _ => false
  | .half h => h.byte?.isNone

/-- The bytes of a code point in a path. -/
def bytes : CodePoint → Bytes
  | .char c => Utf8.encodeChar c
  | .half h => h.byte?.toList

end CodePoint

namespace LooseText

/-- The bytes of a path. -/
def bytes (t : LooseText) : Bytes := t.flatMap CodePoint.bytes

/-- The text of the bytes, if they are UTF-8. -/
def spelled? (t : LooseText) : Option String :=
  match Utf8.decode t.bytes with
  | .ok s => some (String.ofList s)
  | .error _ => none

/-- The first stray half as a fault, which goes on up to where the halves end. -/
def strayFault? (t : LooseText) : Option EncodeFault :=
  match t.dropWhile fun p => !p.isStray with
  | [] => none
  | p :: rest =>
    let start := (t.takeWhile fun p => !p.isStray).length
    some ⟨"utf-8", p, start, start + 1 + (rest.takeWhile CodePoint.isHalf).length, "surrogates not allowed"⟩

/-- The pieces of the text between slashes. -/
def pieces : LooseText → List LooseText
  | [] => [[]]
  | c :: cs =>
    if c = .char '/' then [] :: pieces cs
    else match pieces cs with
      | [] => [[c]]
      | piece :: rest => (c :: piece) :: rest

end LooseText

/-- A path that may hold halves of surrogate pairs. -/
structure LoosePath where
  slashes : Nat
  names : List LooseText
  deriving DecidableEq, Repr

namespace LoosePath

/-- A path as a loose one. -/
def ofPath (p : Path) : LoosePath := ⟨p.slashes, p.names.map fun n => .ofText n.toList⟩

/-- Reads a path. -/
def ofText (t : LooseText) : LoosePath :=
  ⟨Path.slashesFor (t.takeWhile (· == .char '/')).length, t.pieces.filter fun n => n != [] && n != [.char '.']⟩

/-- Writes a path. -/
def text (p : LoosePath) : LooseText :=
  if p.slashes = 0 ∧ p.names = [] then [.char '.']
  else List.replicate p.slashes (.char '/') ++ List.intercalate [.char '/'] p.names

/-- The path as it is shown, with its halves escaped. -/
def shown (p : LoosePath) : Path := ⟨p.slashes, p.names.map fun n => String.ofList n.shown⟩

/-- The path does not depend on a working directory. -/
def isAbsolute (p : LoosePath) : Bool := p.slashes != 0

/-- The second path as seen from the first one. -/
def join (p q : LoosePath) : LoosePath := if q.isAbsolute then q else ⟨p.slashes, p.names ++ q.names⟩

/-- A name of the path holds a null character. -/
def hasNull (p : LoosePath) : Bool := p.names.any fun n => n.contains (.char '\x00')

/-- Why the path cannot be that of a file: a stray half or else a null character. -/
def mishap? (p : LoosePath) : Option Mishap :=
  match p.text.strayFault? with
  | some f => some (.unencodable f)
  | none => if p.hasNull then some (.unreachable .nullByte p.shown) else none

/-- The name of the directory above. -/
def above : LooseText := [.char '.', .char '.']

/-- The names without double dots, each of which takes the name before it away. Every other name is looked at on the
way, in the path that leads to it; `done` are the names before, last one first. -/
def walk : (done names : List LooseText) → Except Mishap (List LooseText)
  | done, [] => .ok done.reverse
  | done, n :: ns =>
    if n = above then walk done.tail ns
    else match (⟨1, (n :: done).reverse⟩ : LoosePath).mishap? with
      | some m => .error m
      | none => walk (n :: done) ns

/-- The absolute path without double dots, as seen from a directory. -/
def resolve? (root : Path) (p : LoosePath) : Except Mishap LoosePath :=
  (walk [] ((ofPath root).join p).names).map (⟨1, ·⟩)

/-- The path of a file with the same bytes, if they are UTF-8. -/
def onDisk? (p : LoosePath) : Option Path := (p.names.mapM LooseText.spelled?).map (⟨p.slashes, ·⟩)

end LoosePath

namespace Tree

/-- Why nothing is at a path whose bytes are not UTF-8. The names before the first that is not are followed. -/
def lostFault (t : Tree) (p : LoosePath) : FileFault :=
  let names := ((LoosePath.ofPath t.cwd).join p).names
  let before := names.takeWhile fun n => n.spelled?.isSome
  if pathLimit < p.text.bytes.length then .nameTooLong
  else match t.follow [] (before.filterMap LooseText.spelled?) with
    | .error f => f
    | .ok (_, .file _) => .notADirectory
    | .ok (_, .directory) =>
      if (names.drop before.length).head?.any fun n => decide (nameLimit < n.bytes.length) then .nameTooLong
      else .noEntry

/-- The content of the file at a path without stray halves. -/
def readLoose (t : Tree) (p : LoosePath) : Except FileFault Bytes :=
  match p.onDisk? with
  | some q => t.read q
  | none => .error (t.lostFault p)

end Tree
end ScriptCase
