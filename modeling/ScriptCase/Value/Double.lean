/-!
# Binary floating-point numbers

A number of the double format is a sign, a significand of at most 53 bits and a power of two, or infinite, or no number.
`ofDecimal` rounds a decimal to the nearest double, a tie to the even significand; `shortest` gives the decimal with the
fewest digits that rounds back. Both are exact natural-number arithmetic.
-/

namespace ScriptCase

/-- A number of the double format. The finite ones have the value `± significand · 2 ^ exponent`. -/
inductive Double where
  | finite (negative : Bool) (significand : Nat) (exponent : Int)
  | infinite (negative : Bool)
  | notANumber
  deriving DecidableEq, Repr

namespace Double

/-- Significands lie below this bound, and normal ones are at least half of it. -/
def significandBound : Nat := Nat.pow 2 53

/-- The exponent of the subnormal numbers. -/
def minExponent : Int := -1074

/-- The largest exponent of a finite number. -/
def maxExponent : Int := 971

/-- `num / den` rounded to a whole number, a tie to the even one. -/
def roundDiv (num den : Nat) : Nat :=
  let q := num / den
  let r := num % den
  if 2 * r < den ∨ (2 * r = den ∧ q % 2 = 0) then q else q + 1

/-- The numerator and denominator of `(num / den) / 2 ^ e`. -/
def scale (num den : Nat) (e : Int) : Nat × Nat :=
  if e < 0 then (num * Nat.pow 2 e.natAbs, den) else (num, den * Nat.pow 2 e.natAbs)

/-- The exponent at which `num / den` has a significand of 53 bits, or the smallest one. -/
def exponentOf (num den : Nat) : Int :=
  let guess : Int := (num.log2 : Int) - (den.log2 : Int) - 53
  let fits (e : Int) : Bool :=
    let s := scale num den e
    decide (s.1 < significandBound * s.2)
  let e := if fits guess then guess else guess + 1
  max e minExponent

/-- The double nearest to the positive quotient `num / den`. -/
def ofQuotient (negative : Bool) (num den : Nat) : Double :=
  if num = 0 then .finite negative 0 minExponent else
  let e := exponentOf num den
  let s := scale num den e
  let m := roundDiv s.1 s.2
  let (m, e) := if m = significandBound then (m / 2, e + 1) else (m, e)
  if e > maxExponent then .infinite negative else .finite negative m e

/-- The double nearest to `± digits · 10 ^ power`. -/
def ofDecimal (negative : Bool) (digits : Nat) (power : Int) : Double :=
  if digits = 0 then .finite negative 0 minExponent
  else if power + ((digits.log2 : Int) * 31) / 100 < -400 then .finite negative 0 minExponent
  else if power > 400 then .infinite negative
  else if power < 0 then ofQuotient negative digits (Nat.pow 10 power.natAbs)
  else ofQuotient negative (digits * Nat.pow 10 power.natAbs) 1

/-- A decimal `digits · 10 ^ power`. -/
structure Decimal where
  digits : Nat
  power : Int
  deriving DecidableEq, Repr

/-- The positive value as a quotient of natural numbers. -/
def quotient (m : Nat) (e : Int) : Nat × Nat :=
  if e < 0 then (m, Nat.pow 2 e.natAbs) else (m * Nat.pow 2 e.natAbs, 1)

/-- The decimal exponent `k` with `10 ^ (k - 1) ≤ num / den < 10 ^ k`, searched upwards from below. -/
def decimalExponent (num den : Nat) : Int :=
  let below (k : Int) : Bool :=
    if k < 0 then decide (num * Nat.pow 10 k.natAbs < den) else decide (num < den * Nat.pow 10 k.natAbs)
  let guess : Int := (((num.log2 : Int) - (den.log2 : Int) - 1) * 30103) / 100000
  ((List.range 6).map fun (i : Nat) => guess - 1 + (i : Int)).find? below |>.getD (guess + 5)

/-- The two neighbours of `num / den` on the grid of multiples of `10 ^ power`, the nearer one first. -/
def neighbours (num den : Nat) (power : Int) : List Decimal :=
  let (n, d) := if power < 0 then (num * Nat.pow 10 power.natAbs, den) else (num, den * Nat.pow 10 power.natAbs)
  let low := n / d
  if n % d = 0 then [⟨low, power⟩]
  else if 2 * (n % d) < d ∨ (2 * (n % d) = d ∧ low % 2 = 0) then [⟨low, power⟩, ⟨low + 1, power⟩]
  else [⟨low + 1, power⟩, ⟨low, power⟩]

/-- The decimal with the fewest digits that rounds to `m · 2 ^ e`, and the nearest of those. -/
def shortest (m : Nat) (e : Int) : Decimal :=
  let (num, den) := quotient m e
  let k := decimalExponent num den
  let hit (count : Nat) : Option Decimal :=
    (neighbours num den (k - (count : Int))).find? fun d => ofDecimal false d.digits d.power == .finite false m e
  ((List.range 17).findSome? fun i => hit (i + 1)).getD ⟨num / den, 0⟩

/-- A decimal without the zeros at the end of its digits. -/
def Decimal.strip (d : Decimal) : Decimal :=
  let trailing := ((toString d.digits).toList.reverse.takeWhile (· == '0')).length
  ⟨d.digits / Nat.pow 10 trailing, d.power + trailing⟩

/-- Which decimal exponents are written without an exponent mark. -/
structure NumberStyle where
  /-- The value is written positionally when its decimal point stands after more than this many digits, … -/
  least : Int
  /-- … and after at most this many. -/
  most : Int
  /-- The least number of digits of a written exponent. -/
  exponentWidth : Nat

/-- Numbers from one ten-thousandth up to below 10 ^ 16 are written positionally, exponents with two digits. -/
def standard : NumberStyle := ⟨-4, 16, 2⟩

/-- A whole number with at least `width` digits. -/
def padded (width n : Nat) : String :=
  let s := toString n
  String.ofList (List.replicate (width - s.length) '0') ++ s

/-- The digits of a positive decimal in the given notation. A whole number keeps one zero behind the point. -/
def Decimal.write (style : NumberStyle) (d : Decimal) : String :=
  let ds := toString d.digits
  let point : Int := d.power + (ds.length : Int)
  let zeros (n : Nat) : String := String.ofList (List.replicate n '0')
  if style.least < point ∧ point ≤ style.most then
    if point ≤ 0 then "0." ++ zeros point.natAbs ++ ds
    else if point ≥ (ds.length : Int) then ds ++ zeros (point.natAbs - ds.length) ++ ".0"
    else String.ofList (ds.toList.take point.natAbs) ++ "." ++ String.ofList (ds.toList.drop point.natAbs)
  else
    let mantissa := match ds.toList with
      | [] => ""
      | [c] => String.ofList [c]
      | c :: cs => String.ofList (c :: '.' :: cs)
    let exponent := point - 1
    mantissa ++ "e" ++ (if exponent < 0 then "-" else "+") ++ padded style.exponentWidth exponent.natAbs

/-- The text of a number: the fewest digits that read back. -/
def text : Double → String
  | .notANumber => "nan"
  | .infinite negative => if negative then "-inf" else "inf"
  | .finite negative m e =>
    (if negative then "-" else "") ++ (if m = 0 then "0.0" else ((shortest m e).strip).write standard)

/-- The number is zero, of either sign. -/
def isZero : Double → Bool
  | .finite _ m _ => m == 0
  | _ => false

end Double
end ScriptCase
