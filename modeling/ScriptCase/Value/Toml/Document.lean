import ScriptCase.Value.Toml.Scalars

/-!
# TOML: documents

A document is a sequence of statements: `key = value`, `[table]` and `[[array of tables]]`. What was already said about
a key limits what may be said later: a table is declared once, and the value of a key that was written in one piece
(an array or an inline table) is closed. Those limits are kept as marks on key paths.
-/

namespace ScriptCase
namespace Toml

open Text

/-- A path of keys from the root of a document. -/
abbrev Key := List Text

/-- The fields of a table under construction. -/
abbrev Fields := List (LooseText × Value)

/-- What a mark says about the table of its path. -/
inductive MarkKind where
  /-- The table was declared and may not be declared again. -/
  | declared
  /-- Nothing may be added to the value or to anything inside it. -/
  | closed
  deriving DecidableEq

/-- A mark on a path. -/
structure Mark where
  path : Key
  kind : MarkKind

/-- The marks forbid a statement about the path: a declaration marks its path alone, a closed value all below it. -/
def isMarked (marks : List Mark) (kind : MarkKind) (path : Key) : Bool :=
  marks.any fun m => m.kind == kind && (if kind == .closed then m.path.isPrefixOf path else m.path == path)
    && !path.isEmpty

/-- The marks without those on the path and below it. -/
def unmark (marks : List Mark) (path : Key) : List Mark := marks.filter fun m => !path.isPrefixOf m.path

/--
Changes the table at a path and creates the tables on the way. Where an array of tables is on the way, its last table
is meant, unless `arrays` is false. No table is found behind any other value.
-/
def within (arrays : Bool) (change : Fields → Option Fields) : Key → Fields → Option Fields
  | [], fs => change fs
  | k :: ks, fs =>
    match (fs.find? (·.1 == .ofText k)).map (·.2) with
    | none => (within arrays change ks []).map fun sub => fs ++ [(.ofText k, .table sub)]
    | some (.table sub) => (within arrays change ks sub).map fun sub => Value.setField (.ofText k) (.table sub) fs
    | some (.array items) =>
      match arrays, items.getLast? with
      | true, some (.table sub) =>
        (within arrays change ks sub).map fun sub =>
          Value.setField (.ofText k) (.array (items.dropLast ++ [.table sub])) fs
      | _, _ => none
    | some _ => none

/-- Adds a field that is not there yet. -/
def addField (k : Text) (v : Value) (fs : Fields) : Option Fields :=
  if fs.any (·.1 == .ofText k) then none else some (fs ++ [(.ofText k, v)])

/-- Adds an empty table to the array of tables of a key. -/
def addTable (k : Text) (fs : Fields) : Option Fields :=
  match (fs.find? (·.1 == .ofText k)).map (·.2) with
  | none => some (fs ++ [(.ofText k, .array [.table []])])
  | some (.array items) => some (Value.setField (.ofText k) (.array (items ++ [.table []])) fs)
  | some _ => none

/-- A character of a key that is written without quotes. -/
def isBareKeyChar (c : Char) : Bool := c.isAlphanum || c == '-' || c == '_'

/-- One part of a key. -/
def keyPart (t : Text) : Reading Text :=
  match t with
  | '\x22' :: rest => basic rest
  | '\x27' :: rest => literal rest
  | _ =>
    let word := t.takeWhile isBareKeyChar
    if word.isEmpty then stop t else .ok (word, t.drop word.length)

/-- A key: parts with full stops between them, and the blanks behind it. -/
def key : (fuel : Nat) → Text → Reading Key
  | 0, t => stop t
  | fuel + 1, t =>
    match keyPart t with
    | .error h => .error h
    | .ok (part, rest) =>
      match skipSpace rest with
      | '.' :: rest => (key fuel (skipSpace rest)).map fun (parts, rest) => (part :: parts, rest)
      | rest => .ok ([part], rest)

/-- The value was written in one piece with parts of its own. -/
def isCompound : Value → Bool
  | .array _ => true
  | .table _ => true
  | _ => false

/-- The room that an array takes up for what lies inside it. -/
def arrayRoom : Nat := 2

/-- The room that an inline table takes up for what lies inside it. -/
def tableRoom : Nat := 3

/-- Values lie too deep inside one another. -/
def tooDeep : Halt := .excess (.nesting "")

mutual
/-- A value, with room for values inside one another. Every step reads a character, so the length of the text bounds
the steps. -/
def value : (fuel room : Nat) → Text → Reading Value
  | 0, _, t => stop t
  | fuel + 1, room, t =>
    match t with
    | '\x22' :: '\x22' :: '\x22' :: rest => (multilineBasic rest).map fun (s, rest) => (.string (.ofText s), rest)
    | '\x22' :: rest => (basic rest).map fun (s, rest) => (.string (.ofText s), rest)
    | '\x27' :: '\x27' :: '\x27' :: rest => (multilineLiteral rest).map fun (s, rest) => (.string (.ofText s), rest)
    | '\x27' :: rest => (literal rest).map fun (s, rest) => (.string (.ofText s), rest)
    | '[' :: rest => if room < arrayRoom then .error tooDeep else arrayItems fuel (room - arrayRoom) [] rest
    | '\x7b' :: rest =>
      if room < tableRoom then .error tooDeep
      else match skipSpace rest with
        | '\x7d' :: rest => .ok (.table [], rest)
        | rest => inlineFields fuel (room - tableRoom) [] [] rest
    | _ => bare t

/-- The items of an array that are left, up to its closing bracket; `done` are the ones before, last one first. -/
def arrayItems : (fuel room : Nat) → (done : List Value) → Text → Reading Value
  | 0, _, _, t => stop t
  | fuel + 1, room, done, t =>
    match skipFiller (t.length + 1) t with
    | .error h => .error h
    | .ok (']' :: rest) => .ok (.array done.reverse, rest)
    | .ok rest =>
      match value fuel room rest with
      | .error h => .error h
      | .ok (v, rest) =>
        match skipFiller (rest.length + 1) rest with
        | .error h => .error h
        | .ok (',' :: rest) => arrayItems fuel room (v :: done) rest
        | .ok (']' :: rest) => .ok (.array (v :: done).reverse, rest)
        | .ok rest => stop rest

/-- The fields of an inline table from the first one on. -/
def inlineFields : (fuel room : Nat) → (done : Fields) → (marks : List Mark) → Text → Reading Value
  | 0, _, _, _, t => stop t
  | fuel + 1, room, done, marks, t =>
    match key (t.length + 1) t with
    | .error h => .error h
    | .ok (path, rest) =>
      match rest with
      | '=' :: rest =>
        match value fuel room (skipSpace rest) with
        | .error h => .error h
        | .ok (v, rest) =>
          if isMarked marks .closed path then stop rest
          else match within false (addField (path.getLastD []) v) path.dropLast done with
            | none => stop rest
            | some done =>
              match skipSpace rest with
              | '\x7d' :: rest => .ok (.table done, rest)
              | ',' :: rest =>
                let marks := if isCompound v then ⟨path, .closed⟩ :: marks else marks
                inlineFields fuel room done marks (skipSpace rest)
              | rest => stop rest
      | _ => stop rest
end

/-- A document under construction: its fields, the marks on them, the paths that will count as declared when the next
table begins, and the path of the present table. -/
structure Draft where
  fields : Fields
  marks : List Mark
  pending : List Key
  header : Key

/-- The draft before a table begins: the pending paths are declared. -/
def Draft.settle (d : Draft) : Draft :=
  { d with marks := d.pending.map (⟨·, .declared⟩) ++ d.marks, pending := [] }

/-- Declares the table at a path. -/
def Draft.declare (d : Draft) (path : Key) : Option Draft :=
  if isMarked d.marks .declared path || isMarked d.marks .closed path then none
  else (within true some path d.fields).map fun fs =>
    { d with fields := fs, marks := ⟨path, .declared⟩ :: d.marks, header := path }

/-- Adds a table to the array of tables at a path. -/
def Draft.append (d : Draft) (path : Key) : Option Draft :=
  if isMarked d.marks .closed path then none
  else (within true (addTable (path.getLastD [])) path.dropLast d.fields).map fun fs =>
    { d with fields := fs, marks := ⟨path, .declared⟩ :: unmark d.marks path, header := path }

/-- The paths of the tables on the way to a key, from the present table on. -/
def Draft.onTheWay (d : Draft) (path : Key) : List Key :=
  ((List.range path.length).tail).map fun n => d.header ++ path.take n

/-- Sets the value of a key in the present table. -/
def Draft.assign (d : Draft) (path : Key) (v : Value) : Option Draft :=
  let way := d.onTheWay path
  let parent := d.header ++ path.dropLast
  if way.any (isMarked d.marks .declared) || isMarked d.marks .closed parent then none
  else (within true (addField (path.getLastD []) v) parent d.fields).map fun fs =>
    { d with
      fields := fs
      pending := way ++ d.pending
      marks := if isCompound v then ⟨d.header ++ path, .closed⟩ :: d.marks else d.marks }

/-- One statement, from its first character on. -/
def statement (d : Draft) (t : Text) : Reading Draft :=
  match t with
  | '[' :: '[' :: rest =>
    match key (rest.length + 1) (skipSpace rest) with
    | .error h => .error h
    | .ok (path, rest) =>
      match d.settle.append path, after? [']', ']'] rest with
      | some d, some rest => .ok (d, rest)
      | _, _ => stop rest
  | '[' :: rest =>
    match key (rest.length + 1) (skipSpace rest) with
    | .error h => .error h
    | .ok (path, rest) =>
      match d.settle.declare path, after? [']'] rest with
      | some d, some rest => .ok (d, rest)
      | _, _ => stop rest
  | '#' :: _ => .ok (d, t)
  | _ =>
    match key (t.length + 1) t with
    | .error h => .error h
    | .ok (path, rest) =>
      match rest with
      | '=' :: rest =>
        match value (rest.length + 1) nestingRoom (skipSpace rest) with
        | .error h => .error h
        | .ok (v, rest) =>
          match d.assign path v with
          | some d => .ok (d, rest)
          | none => stop rest
      | _ => stop rest

/-- The statements that are left, each on a line of its own. -/
def statements : (fuel : Nat) → Draft → Text → Except Halt Draft
  | 0, _, t => stop t
  | fuel + 1, d, t =>
    match skipSpace t with
    | [] => .ok d
    | '\n' :: rest => statements fuel d rest
    | start =>
      match statement d start with
      | .error h => .error h
      | .ok (d, rest) =>
        match skipComment (skipSpace rest) with
        | .error h => .error h
        | .ok [] => .ok d
        | .ok ('\n' :: rest) => statements fuel d rest
        | .ok rest => stop rest

/-- A text in which a carriage return before a line feed is left out. -/
def plainBreaks : Text → Text
  | [] => []
  | '\r' :: '\n' :: cs => '\n' :: plainBreaks cs
  | c :: cs => c :: plainBreaks cs

/-- What messages say about a document that is not well formed. -/
def faultText (whole rest : Text) : String := "Unexpected text " ++ Reading.placeText whole rest

/-- Reads a whole document into the fields of its root table. -/
def parse (t : Text) : Except DocumentFault Fields :=
  let src := plainBreaks t
  match statements (src.length + 1) ⟨[], [], [], []⟩ src with
  | .ok d => .ok d.fields
  | .error h => .error (h.fault (faultText src))

end Toml
end ScriptCase
