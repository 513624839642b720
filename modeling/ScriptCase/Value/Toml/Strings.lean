import ScriptCase.Value.Reader

/-!
# TOML: blanks, comments and strings

The four kinds of strings, and what may stand between the parts of a document.
-/

namespace ScriptCase
namespace Toml

open Text

/-- Control characters, except the tab. They stand in no comment and in no string of one line. -/
def isControl (c : Char) : Bool := (decide (c.toNat < 0x20) || c == '\x7f') && c != '\t'

/-- Control characters that may not stand in a string of several lines. -/
def isMultilineControl (c : Char) : Bool := isControl c && c != '\n'

/-- A space or a tab. -/
def isSpace (c : Char) : Bool := c == ' ' || c == '\t'

/-- A space, a tab or a line feed. -/
def isSpaceOrNewline (c : Char) : Bool := isSpace c || c == '\n'

/-- The text without leading spaces and tabs. -/
def skipSpace (t : Text) : Text := t.dropWhile isSpace

/-- The text behind a comment, if one begins here, up to the end of its line. -/
def skipComment (t : Text) : Except Halt Text :=
  match t with
  | '#' :: rest =>
    let body := rest.takeWhile (· != '\n')
    if body.any isControl then stop t else .ok (rest.drop body.length)
  | _ => .ok t

/-- The text behind any blanks, line feeds and comments. Every round but the last one gets further. -/
def skipFiller : (fuel : Nat) → Text → Except Halt Text
  | 0, t => .ok t
  | fuel + 1, t =>
    match skipComment (t.dropWhile isSpaceOrNewline) with
    | .error h => .error h
    | .ok rest => if rest.length = t.length then .ok rest else skipFiller fuel rest

/-- The character of a one-letter escape. -/
def simpleEscape? : Char → Option Char
  | 'b' => some '\x08'
  | 't' => some '\t'
  | 'n' => some '\n'
  | 'f' => some '\x0c'
  | 'r' => some '\r'
  | '\x22' => some '\x22'
  | '\\' => some '\\'
  | _ => none

/-- The character with this code point, which must be a scalar value. -/
def scalar? (n : Nat) : Option Char := if n.isValidChar then some (Char.ofNat n) else none

/-- The character that `count` hexadecimal digits stand for. -/
def hexEscape (count : Nat) (t : Text) : Reading Text :=
  match hexNumber? count t with
  | none => stop t
  | some (n, rest) =>
    match scalar? n with
    | some c => .ok ([c], rest)
    | none => stop t

/-- What an escape stands for, from the character behind its backslash on. In a string of several lines a backslash at
the end of a line stands for nothing and takes the blanks and line feeds behind it along. -/
def escape (multiline : Bool) (t : Text) : Reading Text :=
  match t with
  | [] => stop []
  | c :: rest =>
    if multiline && c == '\n' then .ok ([], rest.dropWhile isSpaceOrNewline)
    else if multiline && isSpace c then
      match skipSpace rest with
      | [] => .ok ([], [])
      | '\n' :: rest => .ok ([], rest.dropWhile isSpaceOrNewline)
      | rest => stop rest
    else if c = 'u' then hexEscape 4 rest
    else if c = 'U' then hexEscape 8 rest
    else match simpleEscape? c with
      | some e => .ok ([e], rest)
      | none => stop t

/-- The rest of a basic string; `done` is what was read of it, last character first. -/
def basicRest (multiline : Bool) : (fuel : Nat) → (done t : Text) → Reading Text
  | 0, _, t => stop t
  | _ + 1, _, [] => stop []
  | fuel + 1, done, c :: cs =>
    if c = '\x22' then
      if multiline then
        match after? ['\x22', '\x22'] cs with
        | some rest => .ok (done.reverse, rest)
        | none => basicRest multiline fuel (c :: done) cs
      else .ok (done.reverse, cs)
    else if c = '\\' then
      match escape multiline cs with
      | .ok (e, rest) => basicRest multiline fuel (e.reverse ++ done) rest
      | .error h => .error h
    else if (if multiline then isMultilineControl c else isControl c) then stop (c :: cs)
    else basicRest multiline fuel (c :: done) cs

/-- A basic string of one line behind its opening quote. -/
def basic (t : Text) : Reading Text := basicRest false (t.length + 1) [] t

/-- A literal string of one line behind its opening quote. -/
def literal (t : Text) : Reading Text :=
  let body := t.takeWhile (· != '\x27')
  match t.drop body.length with
  | _ :: rest => if body.any isControl then stop t else .ok (body, rest)
  | [] => stop []

/-- The text up to three apostrophes, and the rest behind them. -/
def untilTripleQuote : (done t : Text) → Option (Text × Text)
  | _, [] => none
  | done, c :: cs =>
    match after? ['\x27', '\x27', '\x27'] (c :: cs) with
    | some rest => some (done.reverse, rest)
    | none => untilTripleQuote (c :: done) cs

/-- One or two quotes directly behind the three that close a string belong to the string. -/
def extraQuotes (q : Char) (body t : Text) : Text × Text :=
  match t with
  | a :: b :: rest => if a = q then (if b = q then (body ++ [q, q], rest) else (body ++ [q], b :: rest)) else (body, t)
  | [a] => if a = q then (body ++ [q], []) else (body, t)
  | [] => (body, [])

/-- The text without the line feed that follows an opening of three quotes. -/
def dropFirstNewline : Text → Text
  | '\n' :: rest => rest
  | t => t

/-- A basic string of several lines behind its three quotes. -/
def multilineBasic (t : Text) : Reading Text :=
  match basicRest true (t.length + 1) [] (dropFirstNewline t) with
  | .ok (body, rest) => .ok (extraQuotes '\x22' body rest)
  | .error h => .error h

/-- A literal string of several lines behind its three apostrophes. -/
def multilineLiteral (t : Text) : Reading Text :=
  match untilTripleQuote [] (dropFirstNewline t) with
  | some (body, rest) => if body.any isMultilineControl then stop t else .ok (extraQuotes '\x27' body rest)
  | none => stop []

end Toml
end ScriptCase
