import ScriptCase.Files.Path
import ScriptCase.Text.Layout
import ScriptCase.Text.Units

/-!
# Open documents

An editor keeps a document open and tells how its text changes. Positions are a line and a column in UTF-16 units;
`offsetAt` turns a position into an offset of the text. A column beyond its line means the end of that line; a line
beyond the document means the last one, in which the column counts as it is.
-/

namespace ScriptCase

/-- A reader of URIs gives the path in the file system that a URI stands for, and none for a text that is no URI. -/
abbrev UriReader := String → Option String

/-- The path that a text stands for; what is no URI is a path. -/
def UriReader.path (reader : UriReader) (s : String) : Path := Path.ofString ((reader s).getD s)

/-- A place in a document: line and column in UTF-16 units, both from 0. -/
structure Position where
  line : Int
  character : Int
  deriving DecidableEq, Repr

/-- A change of a document: new text for a range, or for the whole of it. -/
structure Change where
  range : Option (Position × Position)
  text : Text

/-- An open document. -/
structure Document where
  uri : String
  text : Text
  version : Int

namespace Document

/-- The lines of the document. -/
def lines (d : Document) : List Text := Text.lines d.text

/-- The path of the document. -/
def path (reader : UriReader) (d : Document) : Path := reader.path d.uri

/-- The offset at which line `n` begins. -/
def lineStart : (n : Nat) → (first : Text) → (rest : List (LineBreak × Text)) → Nat
  | n + 1, first, (b, next) :: rest => first.length + b.toText.length + lineStart n next rest
  | _, _, _ => 0

/-- The number of characters before a column. A column inside a character means the place behind it. -/
def columnAt : (character : Int) → Text → Nat
  | _, [] => 0
  | character, c :: cs => if character ≤ 0 then 0 else columnAt (character - Text.unitsOf c) cs + 1

/-- The line that is meant by a line number: the first one below, the last one above the lines that there are. -/
def lineIndex (count : Nat) (line : Int) : Nat := min line.toNat (count - 1)

/-- The offset of a position in a text. -/
def offsetAt (t : Text) (p : Position) : Nat :=
  let layout := Layout.ofText t
  let index := lineIndex layout.lines.length p.line
  lineStart index layout.first layout.rest + columnAt p.character ((layout.lines[index]?).getD [])

/-- The text after a change. -/
def applyChange (t : Text) (c : Change) : Text :=
  match c.range with
  | none => c.text
  | some (start, stop) => t.take (offsetAt t start) ++ c.text ++ t.drop (offsetAt t stop)

/-- The text after changes, each of which is about the text that the ones before it left. -/
def applyChanges (t : Text) (cs : List Change) : Text := cs.foldl applyChange t

/-- The document with another text and version. -/
def update (d : Document) (t : Text) (version : Int) : Document := { d with text := t, version := version }

end Document
end ScriptCase
