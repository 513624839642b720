import ScriptCase.Text.Loose

/-!
# Failures of encodings

Bytes that stand for no text and texts that have no bytes. A failure names the encoding, the first and the last
position it concerns, and the reason.
-/

namespace ScriptCase

/-- The content of a file. -/
abbrev Bytes := List UInt8

/-- Bytes that cannot be decoded, from position `start` up to before `stop`; `first` is the first of them. -/
structure DecodeFault where
  encoding : String
  first : UInt8
  start : Nat
  stop : Nat
  reason : String
  deriving DecidableEq, Repr

/-- What users are told. -/
def DecodeFault.message (f : DecodeFault) : String :=
  "'" ++ f.encoding ++ "' codec can't decode "
    ++ (if f.stop = f.start + 1 then
          "byte 0x" ++ String.ofList (Text.hex 2 f.first.toNat) ++ " in position " ++ toString f.start
        else "bytes in position " ++ toString f.start ++ "-" ++ toString (f.stop - 1))
    ++ ": " ++ f.reason

/-- Code points that cannot be encoded, from position `start` up to before `stop`; `first` is the first of them. -/
structure EncodeFault where
  encoding : String
  first : CodePoint
  start : Nat
  stop : Nat
  reason : String
  deriving DecidableEq, Repr

/-- What users are told. -/
def EncodeFault.message (f : EncodeFault) : String :=
  "'" ++ f.encoding ++ "' codec can't encode "
    ++ (if f.stop = f.start + 1 then
          "character '" ++ String.ofList f.first.numberedEscape ++ "' in position " ++ toString f.start
        else "characters in position " ++ toString f.start ++ "-" ++ toString (f.stop - 1))
    ++ ": " ++ f.reason

/-- Why a text and bytes cannot be turned into one another. -/
inductive CodecFault where
  | undecodable (f : DecodeFault)
  | unencodable (f : EncodeFault)
  /-- A stream of 16-bit units does not tell the order of its bytes. -/
  | noByteOrder
  /-- There is no codec of the name that was given. -/
  | notFound (message : String)
  /-- What else a codec fails with. -/
  | other (kind message : String)
  /-- No name was given for the encoding of a file or of bytes at hand. -/
  | unnamed (file : Bool)
  /-- The name of the encoding holds a null character. -/
  | nullInName
  deriving DecidableEq, Repr

/-- The name under which a failure is reported. -/
def CodecFault.kind : CodecFault → String
  | .undecodable _ => "UnicodeDecodeError"
  | .unencodable _ => "UnicodeEncodeError"
  | .noByteOrder => "UnicodeError"
  | .notFound _ => "LookupError"
  | .other kind _ => kind
  | .unnamed _ => "TypeError"
  | .nullInName => "ValueError"

/-- What users are told. -/
def CodecFault.message : CodecFault → String
  | .undecodable f => f.message
  | .unencodable f => f.message
  | .noByteOrder => "UTF-16 stream does not start with BOM"
  | .notFound message => message
  | .other _ message => message
  | .unnamed true => "open() argument 'encoding' must be str or None, not list"
  | .unnamed false => "decode() argument 'encoding' must be str, not list"
  | .nullInName => "embedded null character"

end ScriptCase
