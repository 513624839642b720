import ScriptCase.Codec.Utf8
import ScriptCase.Editor.Host
import ScriptCase.Files.Path

/-!
# Document addresses

Editors name documents by URIs. `Uri.fsPath?` is the path in the file system that a URI stands for: a host is kept in
front of it, a drive letter is put in lower case, and percent escapes are decoded. It is the reader of URIs that the
program runs with; nothing that is said about workspaces depends on it.
-/

namespace ScriptCase

/-- The parts of a URI that matter for its path. -/
structure Uri where
  scheme : Text
  host : Text
  route : Text
  deriving DecidableEq, Repr

namespace Uri

open Text

/-- A character of a scheme. -/
def isSchemeChar (c : Char) : Bool := c.isAlphanum || c == '+' || c == '-' || c == '.'

/-- The text without what may not stand in a URI at all: blanks and controls at its start, tabs and breaks anywhere. -/
def cleaned (t : Text) : Text :=
  (t.dropWhile fun c => decide (c.toNat ≤ 0x20)).filter fun c => c != '\t' && c != '\r' && c != '\n'

/-- The scheme in lower case, empty if there is none, and the rest. -/
def splitScheme (t : Text) : Text × Text :=
  let scheme := t.takeWhile (· != ':')
  match scheme, t.drop scheme.length with
  | c :: _, _ :: rest => if c.isAlpha && scheme.all isSchemeChar then (scheme.map Char.toLower, rest) else ([], t)
  | _, _ => ([], t)

/-- The host behind two slashes, empty if there is none, and the rest. -/
def splitHost (t : Text) : Text × Text :=
  match t with
  | '/' :: '/' :: rest =>
    let host := rest.takeWhile fun c => c != '/' && c != '?' && c != '#'
    (host, rest.drop host.length)
  | _ => ([], t)

/-- Characters that would turn into a delimiter when a host is normalised. -/
def delimiterLikes : List (Nat × Nat) := [
  (0x2047, 0x2049), (0x2100, 0x2101), (0x2105, 0x2106), (0x2a74, 0x2a74), (0xfe13, 0xfe13), (0xfe16, 0xfe16),
  (0xfe55, 0xfe56), (0xfe5f, 0xfe5f), (0xfe6b, 0xfe6b), (0xff03, 0xff03), (0xff0f, 0xff0f), (0xff1a, 0xff1a),
  (0xff1f, 0xff20)]

/-- The text behind the last at sign, which is the host and perhaps a colon with a number. -/
def hostPart (authority : Text) : Text := (authority.reverse.takeWhile (· != '@')).reverse

/-- The host is in brackets if it begins with one, with nothing but a colon and a number behind them. Where brackets
stand before an at sign only, the host is held to the same rule without any. -/
def isBracketed (t : Text) : Bool :=
  match t with
  | '[' :: rest =>
    let host := rest.takeWhile (· != ']')
    let behind := (rest.drop host.length).drop 1
    Host.mayBeBracketed host && (behind.isEmpty || behind.head? == some ':')
  | t => !t.contains '[' && Host.mayBeBracketed (t.takeWhile (· != ':'))

/-- The authority may stand in a URI. -/
def isAuthority (authority : Text) : Bool :=
  let opens := authority.contains '['
  let closes := authority.contains ']'
  opens == closes && (!opens || isBracketed (hostPart authority)) && !authority.any (inRanges delimiterLikes)

/-- The schemes whose paths may end in parameters. -/
def parameterSchemes : List String :=
  ["", "ftp", "hdl", "prospero", "http", "imap", "https", "shttp", "rtsp", "rtspu", "sip", "sips", "mms",
    "sftp", "tel"]

/-- The path without the parameters of its last name. -/
def dropParameters (t : Text) : Text :=
  let last := (t.reverse.takeWhile (· != '/')).reverse
  t.take (t.length - last.length) ++ last.takeWhile (· != ';')

/-- The parts of a URI. -/
def parse? (t : Text) : Option Uri :=
  let (scheme, rest) := splitScheme (cleaned t)
  let (host, rest) := splitHost rest
  let path := (rest.takeWhile (· != '#')).takeWhile (· != '?')
  if isAuthority host then
    some ⟨scheme, host, if parameterSchemes.contains (String.ofList scheme) then dropParameters path else path⟩
  else none

/-- The bytes that an ASCII text with percent escapes stands for; an escape that is none stands for itself. -/
def unescapedBytes : Text → Bytes
  | [] => []
  | '%' :: a :: b :: rest =>
    match hexDigit? a, hexDigit? b with
    | some x, some y => UInt8.ofNat (x * 16 + y) :: unescapedBytes rest
    | _, _ => UInt8.ofNat '%'.toNat :: unescapedBytes (a :: b :: rest)
  | c :: rest => UInt8.ofNat c.toNat :: unescapedBytes rest

/-- Decodes the percent escapes of a text, the ASCII stretches of it one by one; `run` is the present one, reversed. -/
def unescapeFrom : (run : Text) → Text → Text
  | run, [] => Utf8.decodeLossy (unescapedBytes run.reverse)
  | run, c :: cs =>
    if c.toNat < 0x80 then unescapeFrom (c :: run) cs
    else Utf8.decodeLossy (unescapedBytes run.reverse) ++ c :: unescapeFrom [] cs

/-- Decodes the percent escapes of a text. -/
def unescape (t : Text) : Text := unescapeFrom [] t

/-- A slash and a drive letter with its colon begin the path. -/
def hasDrive : Text → Bool
  | '/' :: c :: ':' :: _ => c.isAlpha
  | _ => false

/-- The path in the file system. -/
def fileText (u : Uri) : Text :=
  let host := unescape u.host
  let path := unescape u.route
  if !host.isEmpty && !path.isEmpty && u.scheme == "file".toList then '/' :: '/' :: host ++ path
  else if hasDrive path then
    match path with
    | _ :: c :: rest => c.toLower :: rest
    | _ => path
  else path

/-- The path that a text stands for, if it is a URI. -/
def fsPath? (s : String) : Option String := (parse? s.toList).map fun u => String.ofList u.fileText

/-- Characters that need no escape in the path of a URI. -/
def isUnreserved (c : Char) : Bool := c.isAlphanum || c == '_' || c == '.' || c == '-' || c == '~' || c == '/'

/-- A byte as a character or as a percent escape. -/
def escapedByte (b : UInt8) : Text :=
  if b < 0x80 && isUnreserved (Char.ofNat b.toNat) then [Char.ofNat b.toNat]
  else '%' :: (Text.hex 2 b.toNat).map Char.toUpper

/-- The URI of an absolute path. -/
def ofPath (p : Path) : String :=
  "file://" ++ String.ofList ((Utf8.encode p.text.toList).flatMap escapedByte)

end Uri
end ScriptCase
