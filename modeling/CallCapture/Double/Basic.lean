/-!
# Double-precision numbers as bit patterns

A number is kept as the 64 bits of its interchange format: one sign bit, eleven bits of
biased exponent, fifty-two bits of fraction.  Everything is read off these bits in exact
`Nat` and `Int` arithmetic, so no statement about a number depends on machine arithmetic.

* `Double.magnitude` --- the bits without the sign.  Among numbers that are not NaN it
  orders absolute values, so comparisons of absolute values are comparisons of natural
  numbers.
* `Double.significand`, `Double.exponent` --- a finite number is
  `± significand · 2 ^ exponent`.
* `Double.numEq` --- equality of numbers: a NaN differs from everything, the two zeros
  are equal.
-/

namespace CallCapture

/-- A double-precision number, given by its 64 bits. -/
structure Double where
  bits : UInt64
  deriving DecidableEq

namespace Double

/-- The bits below the sign bit, as a number. -/
def magnitude (x : Double) : Nat :=
  x.bits.toNat % 0x8000000000000000

/-- Whether the sign bit is set. -/
def negative (x : Double) : Bool :=
  0x8000000000000000 ≤ x.bits.toNat

/-- The magnitude of the infinities: all exponent bits set and no fraction. -/
def infiniteMagnitude : Nat :=
  0x7FF0000000000000

def isNaN (x : Double) : Bool :=
  infiniteMagnitude < x.magnitude

def isInfinite (x : Double) : Bool :=
  x.magnitude = infiniteMagnitude

def isFinite (x : Double) : Bool :=
  x.magnitude < infiniteMagnitude

/-- Whether the number is one of the two zeros. -/
def isZero (x : Double) : Bool :=
  x.magnitude = 0

/-- The exponent field. -/
def biasedExponent (x : Double) : Nat :=
  x.magnitude / 0x10000000000000

/-- The fraction field. -/
def fraction (x : Double) : Nat :=
  x.magnitude % 0x10000000000000

/-- The integer significand of a finite number; the leading one is implicit unless the
exponent field is zero. -/
def significand (x : Double) : Nat :=
  if x.biasedExponent = 0 then x.fraction else 0x10000000000000 + x.fraction

/-- The power of two that scales the significand of a finite number. -/
def exponent (x : Double) : Int :=
  if x.biasedExponent = 0 then -1074 else (x.biasedExponent : Int) - 1075

/-- Whether the next smaller absolute value is only half as far away as the next larger
one, which happens at powers of two above the least normal number. -/
def narrowBelow (x : Double) : Bool :=
  x.fraction = 0 && 1 < x.biasedExponent

/-- Equality of numbers: a NaN differs from everything, itself included, and the two
zeros are equal. -/
def numEq (x y : Double) : Bool :=
  !x.isNaN && !y.isNaN && (x.bits == y.bits || (x.isZero && y.isZero))

/-- The number with the given absolute value bits and sign. -/
def ofMagnitude (negative : Bool) (magnitude : Nat) : Double :=
  ⟨.ofNat ((if negative then 0x8000000000000000 else 0) + magnitude % 0x8000000000000000)⟩

/-- The number zero with a clear sign bit. -/
def zero : Double :=
  ⟨0⟩

theorem magnitude_lt (x : Double) : x.magnitude < 0x8000000000000000 :=
  Nat.mod_lt _ (by decide)

/-- A bit pattern is its sign and its magnitude. -/
theorem toNat_bits (x : Double) :
    x.bits.toNat = (if x.negative then 0x8000000000000000 else 0) + x.magnitude := by
  have h := x.bits.toNat_lt
  unfold negative magnitude
  split <;> simp_all <;> omega

/-- A number is exactly one of NaN, infinite and finite. -/
theorem isFinite_eq (x : Double) : x.isFinite = (!x.isNaN && !x.isInfinite) := by
  unfold isFinite isNaN isInfinite
  generalize x.magnitude = m
  generalize infiniteMagnitude = b
  rcases Nat.lt_trichotomy m b with h | h | h <;> simp [h, Nat.le_of_lt, Nat.ne_of_gt, Nat.ne_of_lt]

end Double

end CallCapture
