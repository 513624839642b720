import ScriptCase.Value.Reader

/-!
# JSON

Reads a JSON document into a value. The names `NaN`, `Infinity` and `-Infinity` are numbers; of fields with the same
key the last one counts; control characters may not stand in strings. An escape may stand for half of a surrogate pair.
A document may not begin with a byte order mark.
-/

namespace ScriptCase
namespace Json

open Text

/-- The text without leading white space. -/
def skipSpace (t : Text) : Text := t.dropWhile fun c => c == ' ' || c == '\t' || c == '\n' || c == '\r'

/-- The character of a surrogate pair. -/
def charOfPair (high low : Nat) : Char := Char.ofNat (0x10000 + (high - 0xd800) * 0x400 + (low - 0xdc00))

/-- The code point behind `\u`: four digits, or eight in two escapes that form a surrogate pair. -/
def unicodeEscape? (t : Text) : Option (CodePoint × Text) :=
  match hexNumber? 4 t with
  | none => none
  | some (high, rest) =>
    if 0xd800 ≤ high ∧ high < 0xdc00 then
      match (after? ['\\', 'u'] rest).bind (hexNumber? 4) with
      | some (low, rest') =>
        if 0xdc00 ≤ low ∧ low < 0xe000 then some (.char (charOfPair high low), rest')
        else some (.ofNumber high, rest)
      | none => some (.ofNumber high, rest)
    else some (.ofNumber high, rest)

/-- The character of a one-letter escape. -/
def simpleEscape? : Char → Option Char
  | '\x22' => some '\x22'
  | '\\' => some '\\'
  | '/' => some '/'
  | 'b' => some '\x08'
  | 'f' => some '\x0c'
  | 'n' => some '\n'
  | 'r' => some '\r'
  | 't' => some '\t'
  | _ => none

/-- The rest of a string behind its opening quote; `done` is what was read of it, last character first. -/
def stringRest : (fuel : Nat) → (done : LooseText) → (t : Text) → Reading LooseText
  | 0, _, t => stop t
  | _ + 1, _, [] => stop []
  | fuel + 1, done, c :: cs =>
    if c = '\x22' then .ok (done.reverse, cs)
    else if c = '\\' then
      match cs with
      | [] => stop []
      | e :: rest =>
        if e = 'u' then
          match unicodeEscape? rest with
          | some (p, rest') => stringRest fuel (p :: done) rest'
          | none => stop cs
        else
          match simpleEscape? e with
          | some ch => stringRest fuel (.char ch :: done) rest
          | none => stop cs
    else if c.toNat < 0x20 then stop (c :: cs)
    else stringRest fuel (.char c :: done) cs

/-- A string behind its opening quote. -/
def string (t : Text) : Reading LooseText := stringRest (t.length + 1) [] t

/-- The digits of a fraction, if a point and a digit stand here, and the rest. -/
def fraction (t : Text) : Option Text × Text :=
  match t with
  | '.' :: rest =>
    let ds := rest.takeWhile Char.isDigit
    if ds.isEmpty then (none, t) else (some ds, rest.drop ds.length)
  | _ => (none, t)

/-- The exponent, if its mark and a digit stand here, and the rest. -/
def exponent (t : Text) : Option Int × Text :=
  match t with
  | c :: rest =>
    if c = 'e' ∨ c = 'E' then
      let (negative, body) := match rest with
        | '-' :: r => (true, r)
        | '+' :: r => (false, r)
        | r => (false, r)
      let ds := body.takeWhile Char.isDigit
      if ds.isEmpty then (none, t)
      else
        let n : Int := number 10 ds
        (some (if negative then -n else n), body.drop ds.length)
    else (none, t)
  | [] => (none, t)

/-- The number with these digits, fraction and exponent. A number without the latter two is whole. -/
def assemble (negative : Bool) (whole : Text) (frac : Option Text) (exp : Option Int) : Except Halt Value :=
  match frac, exp with
  | none, none => wholeNumber negative whole
  | _, _ =>
    let fs := frac.getD []
    .ok (.float (Double.ofDecimal negative (number 10 (whole ++ fs)) (exp.getD 0 - fs.length)))

/-- A number behind its sign. -/
def unsignedNumber (negative : Bool) (t : Text) : Reading Value :=
  let whole := match t with
    | '0' :: _ => ['0']
    | _ => t.takeWhile Char.isDigit
  if whole.isEmpty then stop t
  else
    let (frac, rest) := fraction (t.drop whole.length)
    let (exp, rest) := exponent rest
    (assemble negative whole frac exp).map fun v => (v, rest)

/-- A value that begins with neither a quote nor a bracket. -/
def scalar (t : Text) : Reading Value :=
  match after? "null".toList t, after? "true".toList t, after? "false".toList t with
  | some rest, _, _ => .ok (.null, rest)
  | _, some rest, _ => .ok (.bool true, rest)
  | _, _, some rest => .ok (.bool false, rest)
  | none, none, none =>
    match after? "NaN".toList t, after? "Infinity".toList t, after? "-Infinity".toList t with
    | some rest, _, _ => .ok (.float .notANumber, rest)
    | _, some rest, _ => .ok (.float (.infinite false), rest)
    | _, _, some rest => .ok (.float (.infinite true), rest)
    | none, none, none =>
      match t with
      | '-' :: rest => unsignedNumber true rest
      | _ => unsignedNumber false t

/-- Arrays lie too deep inside other values. -/
def arrayTooDeep : Halt := .excess (.nesting " while decoding a JSON array from a unicode string")

/-- Tables lie too deep inside other values. -/
def tableTooDeep : Halt := .excess (.nesting " while decoding a JSON object from a unicode string")

mutual
/-- A value, with room for so many values inside one another. Every step reads a character, so the length of the text
bounds the steps. -/
def value : (fuel room : Nat) → Text → Reading Value
  | 0, _, t => stop t
  | fuel + 1, room, t =>
    match t with
    | '\x22' :: rest => (string rest).map fun (s, rest) => (.string s, rest)
    | '[' :: rest =>
      if room = 0 then .error arrayTooDeep
      else match skipSpace rest with
        | ']' :: rest => .ok (.array [], rest)
        | rest => items fuel (room - 1) [] rest
    | '\x7b' :: rest =>
      if room = 0 then .error tableTooDeep
      else match skipSpace rest with
        | '\x7d' :: rest => .ok (.table [], rest)
        | rest => fields fuel (room - 1) [] rest
    | _ => scalar t

/-- The items of an array from the first one on; `done` are the ones before, last one first. -/
def items : (fuel room : Nat) → (done : List Value) → Text → Reading Value
  | 0, _, _, t => stop t
  | fuel + 1, room, done, t =>
    match value fuel room t with
    | .error h => .error h
    | .ok (v, rest) =>
      match skipSpace rest with
      | ',' :: rest => items fuel room (v :: done) (skipSpace rest)
      | ']' :: rest => .ok (.array (v :: done).reverse, rest)
      | rest => stop rest

/-- The fields of a table from the first one on. -/
def fields : (fuel room : Nat) → (done : List (LooseText × Value)) → Text → Reading Value
  | 0, _, _, t => stop t
  | fuel + 1, room, done, t =>
    match t with
    | '\x22' :: rest =>
      match string rest with
      | .error h => .error h
      | .ok (key, rest) =>
        match skipSpace rest with
        | ':' :: rest =>
          match value fuel room (skipSpace rest) with
          | .error h => .error h
          | .ok (v, rest) =>
            match skipSpace rest with
            | ',' :: rest => fields fuel room (Value.setField key v done) (skipSpace rest)
            | '\x7d' :: rest => .ok (.table (Value.setField key v done), rest)
            | rest => stop rest
        | rest => stop rest
    | _ => stop t
end

/-- Reads a whole document, up to where that ends early. -/
def document (t : Text) : Except Halt Value :=
  match value (t.length + 1) nestingRoom (skipSpace t) with
  | .ok (v, rest) => if (skipSpace rest).isEmpty then .ok v else stop (skipSpace rest)
  | .error h => .error h

/-- What messages say about a document that is not well formed. -/
def faultText (whole rest : Text) : String :=
  let (line, column) := Reading.place whole rest
  "Unexpected text: line " ++ toString line ++ " column " ++ toString column
    ++ " (char " ++ toString (whole.length - rest.length) ++ ")"

/-- Reads a whole document. -/
def parse (t : Text) : Except DocumentFault Value := (document t).mapError fun h => h.fault (faultText t)

end Json
end ScriptCase
