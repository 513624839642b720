import ScriptCase.Codec.ReadBack
import ScriptCase.Result
import ScriptCase.Text.Case

/-!
# Codecs by name

A codec reads a text from bytes and writes it as bytes, and may fail at both. Commands are given the name of a codec and
look it up in a registry (`Codecs`), where there may be any number of codecs beside those of `Encoding`.

Formatting changes nothing but the case of letters. So all that is asked of a codec is that a text is read back as it
was written if its characters are those of a text that was read, or their upper-case forms (`Codec.readsBack`).
-/

namespace ScriptCase

/-- Every character of the text is one of the other text, or the upper-case form of one. -/
def Text.IsCasedFrom (t old : Text) : Prop := ∀ c ∈ t, ∃ d ∈ old, c = d ∨ c = Text.upper d

/-- How texts are kept as bytes. -/
structure Codec where
  decode : Bytes → Except CodecFault Text
  encode : Text → Except CodecFault Bytes
  readsBack : ∀ {b b' : Bytes} {old t : Text}, decode b = .ok old → Text.IsCasedFrom t old → encode t = .ok b' →
    decode b' = .ok t

namespace Encoding

/-- The codec of files, which are read as streams. -/
def fileCodec (e : Encoding) : Codec where
  decode := e.decodeStream
  encode t := (e.encode t).mapError .unencodable
  readsBack _ _ h := decodeStream_encode (mapError_eq_ok_iff.mp h)

/-- The codec of bytes at hand. -/
def inlineCodec (e : Encoding) : Codec where
  decode bs := (e.decode bs).mapError .undecodable
  encode t := (e.encode t).mapError .unencodable
  readsBack _ _ h := mapError_eq_ok_iff.mpr (decode_encode (mapError_eq_ok_iff.mp h))

end Encoding

/-- The codecs that there are, by name: those of files and those of bytes at hand. A name without a codec gives the
message about it; the names of encodings give their codecs. -/
structure Codecs where
  file : String → Except String Codec
  inline : String → Except String Codec
  file_encoding : ∀ {name : String} {e : Encoding}, Encoding.ofFileName? name = some e →
    file name = .ok e.fileCodec
  inline_encoding : ∀ {name : String} {e : Encoding}, Encoding.ofName? name = some e →
    inline name = .ok e.inlineCodec

namespace Codecs

/-- The codec of the encoding that was found under a name. -/
def found (codec : Encoding → Codec) (name : String) : Option Encoding → Except String Codec
  | some e => .ok (codec e)
  | none => .error ("unknown encoding: " ++ name)

/-- The codecs of the encodings, and no others. -/
def plain : Codecs where
  file name := found Encoding.fileCodec name (Encoding.ofFileName? name)
  inline name := found Encoding.inlineCodec name (Encoding.ofName? name)
  file_encoding h := by rw [h]; rfl
  inline_encoding h := by rw [h]; rfl

end Codecs
end ScriptCase
