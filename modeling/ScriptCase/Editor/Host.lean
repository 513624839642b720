import ScriptCase.Value.Reader

/-!
# Hosts in brackets

The host of an address may stand in brackets if it is an address of the sixth version of the internet protocol, or
says that it is of a later one.
-/

namespace ScriptCase
namespace Host

open Text

/-- The parts of a text between separators. -/
def splitAt (separator : Char) (t : Text) : List Text := t.splitOnP (· == separator)

/-- A decimal number up to 255 without leading zeros. -/
def isOctet (t : Text) : Bool :=
  !t.isEmpty && t.length ≤ 3 && t.all Char.isDigit && (t == ['0'] || t.head? != some '0') && number 10 t ≤ 255

/-- Four octets with full stops between them. -/
def isFourOctets (t : Text) : Bool :=
  let parts := splitAt '.' t
  parts.length == 4 && parts.all isOctet

/-- Up to four hexadecimal digits. -/
def isGroup (t : Text) : Bool := !t.isEmpty && t.length ≤ 4 && t.all fun c => (hexDigit? c).isSome

/-- The groups of an address, where four octets at the end stand for two groups; none if the octets are wrong. -/
def groups? (t : Text) : Option (List Text) :=
  let parts := splitAt ':' t
  let last := parts.getLastD []
  if last.contains '.' then
    if isFourOctets last then some (parts.dropLast ++ [['0'], ['0']]) else none
  else some parts

/-- Eight groups, or fewer with one gap. `gaps` are the places of empty groups between the first and the last. -/
def isGrouped (parts : List Text) : Bool :=
  let gaps := (List.range parts.length).filter fun i => 0 < i && i + 1 < parts.length && (parts[i]?).getD [] == []
  let first := parts.headD []
  let last := parts.getLastD []
  match gaps with
  | [] => parts.length == 8 && parts.all isGroup
  | [gap] =>
    let high := if first.isEmpty then gap - 1 else gap
    let low := if last.isEmpty then parts.length - gap - 2 else parts.length - gap - 1
    !(first.isEmpty && high != 0) && !(last.isEmpty && low != 0) && high + low ≤ 7
      && (parts.take high).all isGroup && (parts.drop (parts.length - low)).all isGroup
  | _ => false

/-- An address without its scope. -/
def isAddress (t : Text) : Bool :=
  3 ≤ (splitAt ':' t).length &&
    match groups? t with
    | some parts => parts.length ≤ 9 && isGrouped parts
    | none => false

/-- An address with or without a scope behind a percent sign. -/
def isScopedAddress (t : Text) : Bool :=
  match splitAt '%' t with
  | [a] => isAddress a
  | [a, scope] => isAddress a && !scope.isEmpty
  | _ => false

/-- A version, a full stop and something behind it. -/
def isLaterVersion (t : Text) : Bool :=
  let version := t.takeWhile fun c => (hexDigit? c).isSome
  !version.isEmpty &&
    match t.drop version.length with
    | '.' :: _ :: _ => true
    | _ => false

/-- What may stand in brackets. -/
def mayBeBracketed (t : Text) : Bool :=
  match t with
  | 'v' :: rest => isLaterVersion rest
  | _ => isScopedAddress t

end Host
end ScriptCase
