import CallCapture.Double.Shortest
import CallCapture.Text.Numeral

/-!
# The text of a double, and the double of a text

Digits come from `Double.shortest`; a `Layout` decides everything else about the text of
a number.  Between the absolute values `plainFrom` and `plainBelow` a number is written
positionally, and so is zero; outside of them it is written with one digit before the
point and a power of ten.  Zeros keep their sign.  A NaN is never signed, whatever its sign bit.

In the other direction, `SignedDecimal.read` takes the text of a number apart: a sign, digits with
or without a point, and a power of ten.  `SignedDecimal.toDouble` rounds the number to the nearest
double, a tie going to the even significand, in exact arithmetic.
-/

namespace CallCapture

/-! ## Layouts -/

/-- The decisions that turn shortest digits into text. -/
structure Layout where
  /-- Which of two equally near decimals is taken. -/
  tie : Tie
  /-- The least absolute value that is written positionally. -/
  plainFrom : Double
  /-- The least absolute value above it that is not. -/
  plainBelow : Double
  /-- What follows a positional number that has no fraction. -/
  whole : String
  /-- The sign of a power of ten that is not negative. -/
  plus : String
  nan : String
  infinity : String
  negInfinity : String

namespace Decimal

/-- The digits with the decimal point in its place and no power of ten. -/
def positional (whole : String) (d : Decimal) : List Char :=
  let point := d.pointPosition
  if point ≤ 0 then
    '0' :: '.' :: (List.replicate (-point).toNat '0' ++ d.digits)
  else if d.digits.length ≤ point then
    d.digits ++ List.replicate (point.toNat - d.digits.length) '0' ++ whole.toList
  else
    d.digits.take point.toNat ++ '.' :: d.digits.drop point.toNat

/-- One digit, the other digits after a point if there are any, and a power of ten. -/
def scientific (plus : String) (d : Decimal) : List Char :=
  let power := d.pointPosition - 1
  let fraction := if d.digits.length ≤ 1 then [] else '.' :: d.digits.drop 1
  let sign := if power < 0 then ['-'] else plus.toList
  d.digits.take 1 ++ fraction ++ 'e' :: (sign ++ Nat.toDigits 10 power.natAbs)

end Decimal

namespace Layout

/-- Whether a finite number is written with a power of ten. -/
def usesPower (l : Layout) (x : Double) : Bool :=
  !x.isZero && (x.magnitude < l.plainFrom.magnitude || l.plainBelow.magnitude ≤ x.magnitude)

/-- The text of a finite number without its sign. -/
def unsignedText (l : Layout) (x : Double) : List Char :=
  if l.usesPower x then (x.shortest l.tie).scientific l.plus
  else (x.shortest l.tie).positional l.whole

/-- The text of a number. -/
def text (l : Layout) (x : Double) : String :=
  if x.isNaN then l.nan
  else if x.isInfinite then (if x.negative then l.negInfinity else l.infinity)
  else .ofList ((if x.negative then ['-'] else []) ++ l.unsignedText x)

end Layout

/-! ## The nearest double -/

/-- The quotient rounded to the nearest natural number, a tie to the even one. -/
def roundDiv (num den : Nat) : Nat :=
  let n := num / den
  match compare (2 * (num % den)) den with
  | .lt => n
  | .gt => n + 1
  | .eq => if n % 2 = 0 then n else n + 1

namespace Double

/-- The greatest `k` with `2 ^ k ≤ num / den`, for a positive quotient. -/
def log2Div (num den : Nat) : Int :=
  let k : Int := Nat.log2 num - Nat.log2 den
  if den * Nat.pow 2 k.toNat ≤ num * Nat.pow 2 (-k).toNat then k else k - 1

/-- The magnitude of the double nearest to a quotient.  The significand is rounded to 53
bits, or to the last place of the least exponent; counted in units of the last place, the
exponent adds on top of it, so that a carry goes into the next exponent by itself. -/
def nearestMagnitude (num den : Nat) : Nat :=
  if num = 0 then 0
  else
    let q := max (-1074) (log2Div num den - 52)
    let m := roundDiv (num * Nat.pow 2 (-q).toNat) (den * Nat.pow 2 q.toNat)
    min infiniteMagnitude ((q + 1074).toNat * 0x10000000000000 + m)

end Double

/-- The magnitude of the double nearest to a decimal. -/
def Decimal.nearestMagnitude (d : Decimal) : Nat :=
  Double.nearestMagnitude (d.coefficient * Nat.pow 10 d.exponent.toNat)
    (Nat.pow 10 (-d.exponent).toNat)

/-- A decimal with a sign; zero has one too. -/
structure SignedDecimal where
  negative : Bool
  decimal : Decimal
  deriving DecidableEq

namespace SignedDecimal

/-- The nearest double. -/
def toDouble (d : SignedDecimal) : Double :=
  .ofMagnitude d.negative d.decimal.nearestMagnitude

/-- The power of ten that follows the digits: nothing, or a mark and a signed number. -/
def readPower : List Char → Option Int
  | [] => some 0
  | 'e' :: '+' :: digits => (readDigits digits).map Int.ofNat
  | 'e' :: '-' :: digits => (readDigits digits).map fun (n : Nat) => -(n : Int)
  | 'e' :: digits => (readDigits digits).map Int.ofNat
  | _ => none

/-- A number without its sign. -/
def readUnsigned (cs : List Char) : Option Decimal := do
  let whole := cs.takeWhile Char.isDigit
  let rest := cs.dropWhile Char.isDigit
  match rest with
  | '.' :: rest =>
    let fraction := rest.takeWhile Char.isDigit
    let power ← readPower (rest.dropWhile Char.isDigit)
    let coefficient ← readDigits (whole ++ fraction)
    some ⟨coefficient, power - fraction.length⟩
  | rest =>
    let power ← readPower rest
    let coefficient ← readDigits whole
    some ⟨coefficient, power⟩

/-- A number with its sign. -/
def read (text : String) : Option SignedDecimal :=
  match text.toList with
  | '-' :: cs => (readUnsigned cs).map (⟨true, ·⟩)
  | cs => (readUnsigned cs).map (⟨false, ·⟩)

end SignedDecimal

end CallCapture
