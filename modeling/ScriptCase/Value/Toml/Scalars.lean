import ScriptCase.Value.Toml.Strings

/-!
# TOML: numbers, dates and times

The values that are written without quotes or brackets. A date or time is looked for before a number, as both begin
with digits.
-/

namespace ScriptCase
namespace Toml

open Text

/-- The number of two digits, if it lies in the range. -/
def twoDigits? (least most : Nat) (t : Text) : Option (Nat × Text) :=
  match t with
  | a :: b :: rest =>
    if a.isDigit && b.isDigit then
      let n := number 10 [a, b]
      if least ≤ n ∧ n ≤ most then some (n, rest) else none
    else none
  | _ => none

/-- Year, month and day. Whether the month has the day is not looked at. -/
def date? (t : Text) : Option (Date × Text) := do
  let year := t.take 4
  guard (year.length = 4 ∧ year.all Char.isDigit)
  let (month, rest) ← twoDigits? 1 12 (← after? ['-'] (t.drop 4))
  let (day, rest) ← twoDigits? 1 31 (← after? ['-'] rest)
  return (⟨number 10 year, month, day⟩, rest)

/-- The first six digits of a fraction as a number of millionths. -/
def micros (ds : Text) : Nat :=
  let six := ds.take 6
  number 10 (six ++ List.replicate (6 - six.length) '0')

/-- A time of day. -/
def time? (t : Text) : Option (TimeOfDay × Text) := do
  let (hour, rest) ← twoDigits? 0 23 t
  let (minute, rest) ← twoDigits? 0 59 (← after? [':'] rest)
  let (second, rest) ← twoDigits? 0 59 (← after? [':'] rest)
  match rest with
  | '.' :: more =>
    let ds := more.takeWhile Char.isDigit
    if ds.isEmpty then return (⟨hour, minute, second, 0⟩, rest)
    else return (⟨hour, minute, second, micros ds⟩, more.drop ds.length)
  | _ => return (⟨hour, minute, second, 0⟩, rest)

/-- A distance to universal time in minutes, if one stands here. -/
def offset (t : Text) : Option Int × Text :=
  match t with
  | c :: rest =>
    if c = 'Z' ∨ c = 'z' then (some 0, rest)
    else if c = '+' ∨ c = '-' then
      match (do
        let (h, rest) ← twoDigits? 0 23 rest
        let (m, rest) ← twoDigits? 0 59 (← after? [':'] rest)
        return (h * 60 + m, rest) : Option (Nat × Text)) with
      | some (n, rest) => (some (if c = '-' then -(n : Int) else n), rest)
      | none => (none, t)
    else (none, t)
  | [] => (none, t)

/-- A date, with a time behind it if there is one. -/
def dateTime? (t : Text) : Option (Moment × Text) :=
  match date? t with
  | none => none
  | some (d, rest) =>
    match rest with
    | c :: more =>
      if c = 'T' ∨ c = 't' ∨ c = ' ' then
        match time? more with
        | some (tm, rest) =>
          let (o, rest) := offset rest
          some (.dateTime d tm o, rest)
        | none => some (.date d, rest)
      else some (.date d, rest)
    | [] => some (.date d, rest)

/-- The day of a moment exists, if it has one. -/
def dayExists : Moment → Bool
  | .date d => d.isValid
  | .dateTime d _ _ => d.isValid
  | .time _ => true

/-- Further digits, each with or without an underscore before it, and the rest. -/
def moreDigits (isDigit : Char → Bool) : Text → Text × Text
  | [] => ([], [])
  | '_' :: d :: rest =>
    if isDigit d then
      let (ds, rest) := moreDigits isDigit rest
      (d :: ds, rest)
    else ([], '_' :: d :: rest)
  | d :: rest =>
    if isDigit d then
      let (ds, rest) := moreDigits isDigit rest
      (d :: ds, rest)
    else ([], d :: rest)

/-- Digits with single underscores between them. -/
def digits? (isDigit : Char → Bool) (t : Text) : Option (Text × Text) :=
  match t with
  | d :: rest =>
    if isDigit d then
      let (ds, rest) := moreDigits isDigit rest
      some (d :: ds, rest)
    else none
  | [] => none

/-- A whole number in base sixteen, two or eight. -/
def based? (t : Text) : Option (Value × Text) :=
  match t with
  | '0' :: c :: rest =>
    let digitsOf (base : Nat) (ok : Char → Bool) : Option (Value × Text) :=
      (digits? ok rest).map fun (ds, rest) => (.int (number base ds), rest)
    if c = 'x' then digitsOf 16 fun d => (hexDigit? d).isSome
    else if c = 'b' then digitsOf 2 fun d => d == '0' || d == '1'
    else if c = 'o' then digitsOf 8 fun d => decide ('0' ≤ d ∧ d ≤ '7')
    else none
  | _ => none

/-- A sign, if one stands here. -/
def sign (t : Text) : Bool × Text :=
  match t with
  | '-' :: rest => (true, rest)
  | '+' :: rest => (false, rest)
  | _ => (false, t)

/-- The digits of a fraction behind its point, if there is one. -/
def fraction (t : Text) : Option Text × Text :=
  match t with
  | '.' :: rest =>
    match digits? Char.isDigit rest with
    | some (ds, rest) => (some ds, rest)
    | none => (none, t)
  | _ => (none, t)

/-- An exponent, if there is one. -/
def exponent (t : Text) : Option Int × Text :=
  match t with
  | c :: rest =>
    if c = 'e' ∨ c = 'E' then
      let (negative, body) := sign rest
      match digits? Char.isDigit body with
      | some (ds, rest) =>
        let n : Int := number 10 ds
        (some (if negative then -n else n), rest)
      | none => (none, t)
    else (none, t)
  | [] => (none, t)

/-- A decimal number; one with a fraction or an exponent is a float. -/
def decimal? (t : Text) : Option (Reading Value) :=
  let (negative, body) := sign t
  let whole? := match body with
    | '0' :: rest => some (['0'], rest)
    | _ => digits? Char.isDigit body
  whole?.map fun (whole, rest) =>
    let (frac, rest) := fraction rest
    let (exp, rest) := exponent rest
    match frac, exp with
    | none, none => (wholeNumber negative whole).map fun v => (v, rest)
    | _, _ =>
      let fs := frac.getD []
      .ok (.float (Double.ofDecimal negative (number 10 (whole ++ fs)) (exp.getD 0 - fs.length)), rest)

/-- The infinite numbers and the one that is no number. -/
def special? (t : Text) : Option (Value × Text) :=
  let (negative, body) := sign t
  match after? "inf".toList body, after? "nan".toList body with
  | some rest, _ => some (.float (.infinite negative), rest)
  | none, some rest => some (.float .notANumber, rest)
  | none, none => none

/-- A value without quotes or brackets. -/
def bare (t : Text) : Reading Value :=
  match after? "true".toList t, after? "false".toList t with
  | some rest, _ => .ok (.bool true, rest)
  | none, some rest => .ok (.bool false, rest)
  | none, none =>
    match dateTime? t, time? t with
    | some (m, rest), _ => if dayExists m then .ok (.moment m, rest) else stop t
    | none, some (tm, rest) => .ok (.moment (.time tm), rest)
    | none, none =>
      match based? t, decimal? t, special? t with
      | some r, _, _ => .ok r
      | none, some r, _ => r
      | none, none, some r => .ok r
      | none, none, none => stop t

end Toml
end ScriptCase
