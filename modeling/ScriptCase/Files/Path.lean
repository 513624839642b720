import ScriptCase.Text.Lowercase

/-!
# Paths

A path is a list of names, absolute or relative. Empty names and single dots are dropped when a path is read; double
dots are kept until the path is resolved. Exactly two slashes at the start are told apart from one.
-/

namespace ScriptCase

/-- A path: the slashes at its start (none, one or two) and its names. -/
structure Path where
  slashes : Nat
  names : List String
  deriving DecidableEq, Repr

namespace Path

/-- The number of slashes that a path with `n` slashes at its start has. -/
def slashesFor : Nat → Nat
  | 0 => 0
  | 2 => 2
  | _ => 1

/-- Reads a path. -/
def ofString (s : String) : Path :=
  ⟨slashesFor (s.toList.takeWhile (· == '/')).length, (s.splitOn "/").filter fun n => n != "" && n != "."⟩

/-- Writes a path; the empty relative path is a dot. -/
def text (p : Path) : String :=
  if p.slashes = 0 ∧ p.names = [] then "."
  else String.ofList (List.replicate p.slashes '/') ++ "/".intercalate p.names

/-- A name of the path holds a null character. No file has such a name. -/
def hasNull (p : Path) : Bool := p.names.any fun n => n.toList.contains '\x00'

/-- The path does not depend on a working directory. -/
def isAbsolute (p : Path) : Bool := p.slashes != 0

/-- The second path as seen from the first one. -/
def join (p q : Path) : Path := if q.isAbsolute then q else ⟨p.slashes, p.names ++ q.names⟩

/-- The names without double dots: each takes the name before it away. `done` are the names before, last one first. -/
def normalNames : (done names : List String) → List String
  | done, [] => done.reverse
  | done, n :: ns => if n = ".." then normalNames done.tail ns else normalNames (n :: done) ns

/-- The absolute path without double dots, as seen from a working directory. -/
def resolve (cwd p : Path) : Path := ⟨1, normalNames [] (cwd.join p).names⟩

/-- The last name, empty if there is none. -/
def name (p : Path) : String := p.names.getLastD ""

/-- The suffix of a name, from its last dot on. A dot at the start or at the end begins none. -/
def suffixOf (n : String) : String :=
  let cs := n.toList
  let tail := (cs.reverse.takeWhile (· != '.')).reverse
  let dot := cs.length - tail.length
  if tail.length < cs.length ∧ 1 < dot ∧ tail ≠ [] then String.ofList ('.' :: tail) else ""

/-- The suffix of the last name. -/
def suffix (p : Path) : String := suffixOf p.name

/-- Names in the order of their code points, the first difference deciding. -/
def namesLe : List String → List String → Bool
  | [], _ => true
  | _ :: _, [] => false
  | a :: as, b :: bs => if a = b then namesLe as bs else decide (a < b)

/-- The order in which found files are listed. -/
def le (p q : Path) : Bool := namesLe p.names q.names

end Path
end ScriptCase
