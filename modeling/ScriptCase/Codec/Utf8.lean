import ScriptCase.Codec.Fault

/-!
# UTF-8

Reads and writes UTF-8. `step` reads one character or tells how many bytes at the start of the text spoil it: the
longest beginning of a sequence that could still have become one, and at least one byte.
-/

namespace ScriptCase
namespace Utf8

/-- One step of reading: a character of `size` bytes, or `size` bytes that form none. -/
inductive Step where
  | char (c : Char) (size : Nat)
  | fault (size : Nat) (reason : String)

/-- A byte of a sequence behind its first one. -/
def isContinuation (b : UInt8) : Bool := 0x80 ≤ b && b < 0xc0

/-- The six bits that a continuation byte carries. -/
def payload (b : UInt8) : Nat := b.toNat % 0x40

/-- The second byte may follow the first one: sequences that are too long, surrogates and numbers beyond the last
code point are ruled out here. -/
def mayFollow (first second : UInt8) : Bool :=
  isContinuation second
    && !(first == 0xe0 && second < 0xa0) && !(first == 0xed && 0xa0 ≤ second)
    && !(first == 0xf0 && second < 0x90) && !(first == 0xf4 && 0x90 ≤ second)

/-- The reason of a fault at a byte that begins no sequence. -/
def invalidStart : String := "invalid start byte"

/-- The reason of a fault at a byte that does not continue a sequence. -/
def invalidContinuation : String := "invalid continuation byte"

/-- The reason of a fault at a sequence that breaks off. -/
def endOfData : String := "unexpected end of data"

/-- Reads at the first byte `b`, with `rest` behind it. -/
def step (b : UInt8) (rest : Bytes) : Step :=
  if b < 0x80 then .char (Char.ofNat b.toNat) 1
  else if b < 0xc2 ∨ 0xf5 ≤ b then .fault 1 invalidStart
  else match rest with
    | [] => .fault 1 endOfData
    | b1 :: rest =>
      if !mayFollow b b1 then .fault 1 invalidContinuation
      else if b < 0xe0 then .char (Char.ofNat (b.toNat % 0x20 * 0x40 + payload b1)) 2
      else match rest with
        | [] => .fault 2 endOfData
        | b2 :: rest =>
          if !isContinuation b2 then .fault 2 invalidContinuation
          else if b < 0xf0 then .char (Char.ofNat ((b.toNat % 0x10 * 0x40 + payload b1) * 0x40 + payload b2)) 3
          else match rest with
            | [] => .fault 3 endOfData
            | b3 :: _ =>
              if !isContinuation b3 then .fault 3 invalidContinuation
              else .char (Char.ofNat (((b.toNat % 0x08 * 0x40 + payload b1) * 0x40 + payload b2) * 0x40 + payload b3)) 4

/-- Decodes the bytes from `position` on; `done` is the text before, last character first. -/
def decodeFrom : (fuel : Nat) → (position : Nat) → (done : Text) → Bytes → Except DecodeFault Text
  | _, _, done, [] => .ok done.reverse
  | 0, _, done, _ :: _ => .ok done.reverse
  | fuel + 1, position, done, b :: rest =>
    match step b rest with
    | .char c size => decodeFrom fuel (position + size) (c :: done) (rest.drop (size - 1))
    | .fault size reason => .error ⟨"utf-8", b, position, position + size, reason⟩

/-- Decodes bytes. -/
def decode (bs : Bytes) : Except DecodeFault Text := decodeFrom bs.length 0 [] bs

/-- Decodes bytes with a replacement character for every fault. -/
def decodeLossyFrom : (fuel : Nat) → (done : Text) → Bytes → Text
  | _, done, [] => done.reverse
  | 0, done, _ :: _ => done.reverse
  | fuel + 1, done, b :: rest =>
    match step b rest with
    | .char c size => decodeLossyFrom fuel (c :: done) (rest.drop (size - 1))
    | .fault size _ => decodeLossyFrom fuel ('\ufffd' :: done) (rest.drop (size - 1))

/-- Decodes bytes; what cannot be decoded becomes replacement characters. -/
def decodeLossy (bs : Bytes) : Text := decodeLossyFrom bs.length [] bs

/-- The bytes of a character. -/
def encodeChar (c : Char) : Bytes :=
  let n := c.toNat
  let tail (shift : Nat) : UInt8 := UInt8.ofNat (0x80 + n / shift % 0x40)
  if n < 0x80 then [UInt8.ofNat n]
  else if n < 0x800 then [UInt8.ofNat (0xc0 + n / 0x40), tail 1]
  else if n < 0x10000 then [UInt8.ofNat (0xe0 + n / 0x1000), tail 0x40, tail 1]
  else [UInt8.ofNat (0xf0 + n / 0x40000), tail 0x1000, tail 0x40, tail 1]

/-- Encodes a text. -/
def encode (t : Text) : Bytes := t.flatMap encodeChar

/-- The bytes of a byte order mark. -/
def mark : Bytes := [0xef, 0xbb, 0xbf]

end Utf8
end ScriptCase
