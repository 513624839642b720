import ScriptCase.Codec.Utf16
import ScriptCase.Codec.Utf8

/-!
# Encodings

The encodings in which script files may be kept, by name. Bytes at hand (`decode`) and bytes of a file that is read as
a stream (`decodeStream`) differ in what is asked of a byte order mark.
-/

namespace ScriptCase

/-- The encodings of script files. -/
inductive Encoding where
  | utf8
  | utf8Marked
  | latin1
  | ascii
  | utf16
  | utf16Little
  | utf16Big
  deriving DecidableEq, Repr

namespace Encoding

/-- The words of a name, which are runs of letters, digits and full stops; `word` is the present one, reversed. -/
def nameWords : (word : Text) → Text → List Text
  | word, [] => if word.isEmpty then [] else [word.reverse]
  | word, c :: cs =>
    if c.isAlphanum || c == '.' then nameWords (c.toLower :: word) cs
    else if word.isEmpty then nameWords [] cs
    else word.reverse :: nameWords [] cs

/-- The name of an encoding in one spelling: its words in lower case with hyphens between them. -/
def plainName (s : String) : String := String.ofList (Text.join ['-'] (nameWords [] s.toList))

/-- The proper name of an encoding. -/
def properName : Encoding → String
  | .utf8 => "utf-8"
  | .utf8Marked => "utf-8-sig"
  | .latin1 => "latin-1"
  | .ascii => "ascii"
  | .utf16 => "utf-16"
  | .utf16Little => "utf-16-le"
  | .utf16Big => "utf-16-be"

/-- The further names of an encoding. -/
def aliases : Encoding → List String
  | .utf8 => ["u8", "utf", "utf8", "utf8-ucs2", "utf8-ucs4", "cp65001"]
  | .utf8Marked => []
  | .latin1 => ["8859", "cp819", "csisolatin1", "ibm819", "iso8859", "iso8859-1", "iso-8859-1", "iso-8859-1-1987",
    "iso-ir-100", "l1", "latin", "latin1"]
  | .ascii => ["646", "ansi-x3.4-1968", "ansi-x3-4-1968", "ansi-x3.4-1986", "cp367", "csascii", "ibm367", "iso646-us",
    "iso-646.irv-1991", "iso-ir-6", "us", "us-ascii"]
  | .utf16 => ["u16", "utf16"]
  | .utf16Little => ["unicodelittleunmarked", "utf-16le"]
  | .utf16Big => ["unicodebigunmarked", "utf-16be"]

/-- All encodings. -/
def all : List Encoding := [.utf8, .utf8Marked, .latin1, .ascii, .utf16, .utf16Little, .utf16Big]

/-- The name with hyphens in place of its full stops. -/
def withoutStops (name : String) : String := String.ofList (name.toList.map fun c => if c = '.' then '-' else c)

/-- The encoding of a name. Full stops may stand for hyphens in further names, but not in a proper name. -/
def ofName? (s : String) : Option Encoding :=
  let name := plainName s
  all.find? fun e => e.aliases.contains name || e.aliases.contains (withoutStops name) || e.properName == name

/-- The encoding of a file by its name; files may also be in the encoding of the place, which is UTF-8. -/
def ofFileName? (s : String) : Option Encoding := if s = "locale" then some .utf8 else ofName? s

/-- Decodes bytes that are single characters below `bound`. -/
def decodeBelow (bound : Nat) (name : String) (bs : Bytes) : Except DecodeFault Text :=
  match bs.zipIdx.find? fun (b, _) => decide (bound ≤ b.toNat) with
  | some (b, i) => .error ⟨name, b, i, i + 1, "ordinal not in range(" ++ toString bound ++ ")"⟩
  | none => .ok (bs.map fun b => Char.ofNat b.toNat)

/-- Encodes characters below `bound` as single bytes. -/
def encodeBelow (bound : Nat) (name : String) (t : Text) : Except EncodeFault Bytes :=
  let fits := t.takeWhile fun c => decide (c.toNat < bound)
  match t.drop fits.length with
  | [] => .ok (t.map fun c => UInt8.ofNat c.toNat)
  | c :: rest =>
    let more := rest.takeWhile fun c => decide (bound ≤ c.toNat)
    .error ⟨name, .char c, fits.length, fits.length + 1 + more.length, "ordinal not in range(" ++ toString bound ++ ")"⟩

/-- Decodes bytes at hand. -/
def decode (e : Encoding) (bs : Bytes) : Except DecodeFault Text :=
  match e with
  | .utf8 => Utf8.decode bs
  | .utf8Marked => Utf8.decode (if Utf8.mark.isPrefixOf bs then bs.drop Utf8.mark.length else bs)
  | .latin1 => decodeBelow 256 "latin-1" bs
  | .ascii => decodeBelow 128 "ascii" bs
  | .utf16 => Utf16.decodeMarked bs
  | .utf16Little => Utf16.decode .little bs
  | .utf16Big => Utf16.decode .big bs

/-- Decodes a stream. An unfinished byte order mark is waited for in vain, and 16-bit units need one. -/
def decodeStream (e : Encoding) (bs : Bytes) : Except CodecFault Text :=
  match e with
  | .utf8Marked =>
    if bs.length < Utf8.mark.length && bs.isPrefixOf Utf8.mark then .ok []
    else (e.decode bs).mapError .undecodable
  | .utf16 =>
    match e.decode bs with
    | .error f => .error (.undecodable f)
    | .ok t => if (Utf16.marked? bs).isNone && !bs.isEmpty then .error .noByteOrder else .ok t
  | _ => (e.decode bs).mapError .undecodable

/-- Encodes a text. -/
def encode (e : Encoding) (t : Text) : Except EncodeFault Bytes :=
  match e with
  | .utf8 => .ok (Utf8.encode t)
  | .utf8Marked => .ok (Utf8.mark ++ Utf8.encode t)
  | .latin1 => encodeBelow 256 "latin-1" t
  | .ascii => encodeBelow 128 "ascii" t
  | .utf16 => .ok (Utf16.mark ++ Utf16.encode .little t)
  | .utf16Little => .ok (Utf16.encode .little t)
  | .utf16Big => .ok (Utf16.encode .big t)

end Encoding
end ScriptCase
