import ScriptCase.Codec.Fault

/-!
# UTF-16

Reads and writes UTF-16 with either order of bytes.
-/

namespace ScriptCase
namespace Utf16

/-- The order of the two bytes of a unit. -/
inductive Order where
  | little
  | big
  deriving DecidableEq, Repr

/-- The name under which failures are reported. -/
def Order.name : Order → String
  | .little => "utf-16-le"
  | .big => "utf-16-be"

/-- The unit that two bytes form. -/
def Order.unit : Order → UInt8 → UInt8 → Nat
  | .little, a, b => b.toNat * 0x100 + a.toNat
  | .big, a, b => a.toNat * 0x100 + b.toNat

/-- The bytes of a unit. -/
def Order.bytes (o : Order) (u : Nat) : Bytes :=
  let high := UInt8.ofNat (u / 0x100)
  let low := UInt8.ofNat (u % 0x100)
  match o with
  | .little => [low, high]
  | .big => [high, low]

/-- The first unit of a pair. -/
def isHigh (u : Nat) : Bool := 0xd800 ≤ u && u < 0xdc00

/-- The second unit of a pair. -/
def isLow (u : Nat) : Bool := 0xdc00 ≤ u && u < 0xe000

/-- The character of a pair. -/
def pair (high low : Nat) : Char := Char.ofNat (0x10000 + (high - 0xd800) * 0x400 + (low - 0xdc00))

/-- Decodes the bytes from `position` on; `done` is the text before, last character first. -/
def decodeFrom (o : Order) : (position : Nat) → (done : Text) → Bytes → Except DecodeFault Text
  | _, done, [] => .ok done.reverse
  | position, _, [a] => .error ⟨o.name, a, position, position + 1, "truncated data"⟩
  | position, done, a :: b :: rest =>
    let u := o.unit a b
    if isLow u then .error ⟨o.name, a, position, position + 2, "illegal encoding"⟩
    else if !isHigh u then decodeFrom o (position + 2) (Char.ofNat u :: done) rest
    else match rest with
      | c :: d :: rest =>
        if isLow (o.unit c d) then decodeFrom o (position + 4) (pair u (o.unit c d) :: done) rest
        else .error ⟨o.name, a, position, position + 2, "illegal UTF-16 surrogate"⟩
      | short => .error ⟨o.name, a, position, position + 2 + short.length, "unexpected end of data"⟩

/-- Decodes bytes of a known order. -/
def decode (o : Order) (bs : Bytes) : Except DecodeFault Text := decodeFrom o 0 [] bs

/-- The order that a byte order mark at the start tells. -/
def marked? : Bytes → Option Order
  | 0xff :: 0xfe :: _ => some .little
  | 0xfe :: 0xff :: _ => some .big
  | _ => none

/-- Decodes bytes that may begin with a byte order mark; without one the order is little. -/
def decodeMarked (bs : Bytes) : Except DecodeFault Text :=
  match marked? bs with
  | some o => decodeFrom o 2 [] (bs.drop 2)
  | none => decodeFrom .little 0 [] bs

/-- The units of a character. -/
def unitsOf (c : Char) : List Nat :=
  if c.toNat < 0x10000 then [c.toNat]
  else [0xd800 + (c.toNat - 0x10000) / 0x400, 0xdc00 + (c.toNat - 0x10000) % 0x400]

/-- Encodes a text. -/
def encode (o : Order) (t : Text) : Bytes := (t.flatMap unitsOf).flatMap o.bytes

/-- The bytes of the byte order mark of little order. -/
def mark : Bytes := [0xff, 0xfe]

end Utf16
end ScriptCase
