import CallCapture.Double.Basic

/-!
# The fewest digits that name a double

A finite non-zero number is named by any decimal that rounds to it.  Of these decimals
the ones with the fewest digits are wanted, and of those the one nearest to the number;
`Tie` says which of two equally near ones is taken.

The search is by decimal grids.  `Neighbourhood` holds the number and the ends of the
interval of reals that round to it, as natural numbers over one power of two.  The grid
of multiples of `10 ^ e` has two points next to the number, the one at or below it and
the one above; if any point of the grid lies in the interval, one of these two does.  So
the grids are tried from one digit to seventeen, and the first with a hit wins
(`Neighbourhood.shortest`).  If none had one, the exact expansion of the number would be
used, so that the result names the number in any case.

The interval of reals that round to a nonzero number does not reach down to zero, so no grid
finds the number at its zeroth point, and what is found has a positive coefficient
(`Double.coefficient_shortest_pos`).
-/

namespace CallCapture

/-- The decimal `coefficient · 10 ^ exponent`. -/
structure Decimal where
  coefficient : Nat
  exponent : Int
  deriving DecidableEq

namespace Decimal

/-- Moves the trailing zeros of the coefficient into the exponent. -/
def trim (d : Decimal) : Decimal :=
  if d.coefficient ≠ 0 ∧ d.coefficient % 10 = 0 then
    trim ⟨d.coefficient / 10, d.exponent + 1⟩
  else
    d
termination_by d.coefficient
decreasing_by omega

/-- The digits of the coefficient, most significant first. -/
def digits (d : Decimal) : List Char :=
  Nat.toDigits 10 d.coefficient

/-- How many digits stand before the decimal point; zero or negative when the number
starts with zeros after the point. -/
def pointPosition (d : Decimal) : Int :=
  d.digits.length + d.exponent

end Decimal

/-- Which of two equally near decimals is taken. -/
inductive Tie where
  /-- The one with the larger absolute value. -/
  | away
  /-- The one whose last digit is even. -/
  | even
  deriving DecidableEq

/-- A positive number and the interval of reals that round to it, as numerators over the
common denominator `2 ^ shift`. -/
structure Neighbourhood where
  low : Nat
  value : Nat
  high : Nat
  shift : Nat
  /-- Whether the ends of the interval round to the number too. -/
  closed : Bool

namespace Neighbourhood

/-- The neighbourhood of the absolute value of a finite number.  The ends lie half way to
the next numbers, and a quarter of the step above when the step below is narrow, so
quarters of the last place are the unit; ends belong to the number with the even
significand. -/
def of (x : Double) : Neighbourhood :=
  let unit := Nat.pow 2 (x.exponent - 2).toNat
  let below := if x.narrowBelow then 1 else 2
  { low := (4 * x.significand - below) * unit
    value := 4 * x.significand * unit
    high := (4 * x.significand + 2) * unit
    shift := (2 - x.exponent).toNat
    closed := x.significand % 2 = 0 }

/-- The common denominator of the numerators. -/
def denominator (r : Neighbourhood) : Nat :=
  Nat.pow 2 r.shift

/-- The least `k` with the number below `10 ^ k`.  A number of at least one has as many
digits before the point as its integer part; below one, the leading zeros are counted by
the integer part of its reciprocal. -/
def scale (r : Neighbourhood) : Int :=
  if r.denominator ≤ r.value then
    (Nat.toDigits 10 (r.value / r.denominator)).length
  else
    1 - (Nat.toDigits 10 ((r.denominator - 1) / r.value)).length

end Neighbourhood

/-- A number and its interval in the unit in which the points of a decimal grid are the
multiples of `step`. -/
structure Grid where
  low : Nat
  value : Nat
  high : Nat
  step : Nat
  closed : Bool

namespace Grid

/-- Whether the `n`-th point rounds to the number. -/
def hits (g : Grid) (n : Nat) : Bool :=
  if g.closed then g.low ≤ n * g.step && n * g.step ≤ g.high
  else g.low < n * g.step && n * g.step < g.high

/-- The last point at or below the number. -/
def floor (g : Grid) : Nat :=
  g.value / g.step

/-- Of the points `n` and `n + 1` around the number, the nearer one. -/
def nearer (g : Grid) (tie : Tie) (n : Nat) : Nat :=
  match compare (2 * g.value) ((2 * n + 1) * g.step) with
  | .lt => n
  | .gt => n + 1
  | .eq =>
    match tie with
    | .away => n + 1
    | .even => if n % 2 = 0 then n else n + 1

/-- The point that names the number, if there is one. -/
def point? (g : Grid) (tie : Tie) : Option Nat :=
  let n := g.floor
  match g.hits n, g.hits (n + 1) with
  | true, true => some (g.nearer tie n)
  | true, false => some n
  | false, true => some (n + 1)
  | false, false => none

end Grid

namespace Neighbourhood

/-- The number and its interval on the grid of multiples of `10 ^ e`.  A negative power of
ten is cleared by scaling the numerators. -/
def grid (r : Neighbourhood) (e : Int) : Grid :=
  let factor := Nat.pow 10 (-e).toNat
  { low := r.low * factor
    value := r.value * factor
    high := r.high * factor
    step := Nat.pow 10 e.toNat * r.denominator
    closed := r.closed }

/-- The decimal on the grid `10 ^ e` that names the number, if there is one. -/
def onGrid (r : Neighbourhood) (tie : Tie) (e : Int) : Option Decimal :=
  ((r.grid e).point? tie).map (⟨·, e⟩)

/-- Every digit of the number: over `2 ^ shift`, a numerator times `5 ^ shift` is a
multiple of `10 ^ (-shift)`. -/
def expansion (r : Neighbourhood) : Decimal :=
  ⟨r.value * Nat.pow 5 r.shift, -r.shift⟩

/-- The hit on the coarsest grid, from one digit to seventeen. -/
def coarsest (r : Neighbourhood) (tie : Tie) : Option Decimal :=
  let k := r.scale
  (List.range 17).findSome? fun (i : Nat) => r.onGrid tie (k - (i + 1 : Nat))

/-- The decimal with the fewest digits that rounds to the number, and of those the
nearest. -/
def shortest (r : Neighbourhood) (tie : Tie) : Decimal :=
  match r.coarsest tie with
  | some d => d.trim
  | none => r.expansion.trim

end Neighbourhood

/-- The decimal with the fewest digits that rounds to the absolute value of a finite
number; zero is itself. -/
def Double.shortest (tie : Tie) (x : Double) : Decimal :=
  if x.isZero then ⟨0, 0⟩ else (Neighbourhood.of x).shortest tie

/-! ## A nonzero number is not written as zero -/

/-- Only the two zeros have the significand zero. -/
theorem Double.significand_pos {x : Double} (h : x.isZero = false) : 0 < x.significand := by
  have hm : x.magnitude ≠ 0 := by simpa [isZero] using h
  rw [significand]
  split
  · next he =>
    rw [biasedExponent] at he
    rw [fraction]
    omega
  · omega

namespace Neighbourhood

theorem low_pos {x : Double} (h : x.isZero = false) : 0 < (Neighbourhood.of x).low := by
  have hs := x.significand_pos h
  have hunit : 0 < Nat.pow 2 (x.exponent - 2).toNat := Nat.pow_pos (by decide)
  show 0 < (4 * x.significand - if x.narrowBelow then 1 else 2) * Nat.pow 2 (x.exponent - 2).toNat
  refine Nat.mul_pos ?_ hunit
  split <;> omega

theorem value_pos {x : Double} (h : x.isZero = false) : 0 < (Neighbourhood.of x).value := by
  have hs := x.significand_pos h
  have hunit : 0 < Nat.pow 2 (x.exponent - 2).toNat := Nat.pow_pos (by decide)
  show 0 < 4 * x.significand * Nat.pow 2 (x.exponent - 2).toNat
  exact Nat.mul_pos (by omega) hunit

end Neighbourhood

namespace Grid

/-- The zeroth point does not lie in an interval above zero. -/
theorem pos_of_hits {g : Grid} (hlow : 0 < g.low) {n : Nat} (h : g.hits n = true) : 0 < n := by
  rcases Nat.eq_zero_or_pos n with rfl | hn
  · rw [hits, Nat.zero_mul] at h
    split at h
    · rw [Bool.and_eq_true, decide_eq_true_eq] at h
      omega
    · rw [Bool.and_eq_true, decide_eq_true_eq] at h
      omega
  · exact hn

theorem le_nearer (g : Grid) (tie : Tie) (n : Nat) : n ≤ g.nearer tie n := by
  unfold nearer
  repeat' split
  all_goals omega

theorem pos_of_point? {g : Grid} (hlow : 0 < g.low) {tie : Tie} {n : Nat}
    (h : g.point? tie = some n) : 0 < n := by
  unfold point? at h
  dsimp only at h
  split at h
  · next hfloor _ =>
    rw [← Option.some.inj h]
    exact Nat.lt_of_lt_of_le (pos_of_hits hlow hfloor) (g.le_nearer tie _)
  · next hfloor _ =>
    rw [← Option.some.inj h]
    exact pos_of_hits hlow hfloor
  · rw [← Option.some.inj h]
    exact Nat.succ_pos _
  · exact nomatch h

end Grid

/-- Trailing zeros can be moved off a positive coefficient without its becoming zero. -/
theorem Decimal.coefficient_trim_pos (d : Decimal) (h : 0 < d.coefficient) :
    0 < d.trim.coefficient := by
  fun_induction trim d with
  | case1 d hd ih => exact ih (show 0 < d.coefficient / 10 by omega)
  | case2 d hd => exact h

theorem Neighbourhood.coefficient_shortest_pos {r : Neighbourhood} (hlow : 0 < r.low)
    (hvalue : 0 < r.value) (tie : Tie) : 0 < (r.shortest tie).coefficient := by
  unfold shortest
  split
  · next d hd =>
    obtain ⟨i, -, hi⟩ := List.exists_of_findSome?_eq_some hd
    obtain ⟨n, hn, rfl⟩ := Option.map_eq_some_iff.1 hi
    refine Decimal.coefficient_trim_pos _ (Grid.pos_of_point? ?_ hn)
    exact Nat.mul_pos hlow (Nat.pow_pos (by decide))
  · refine Decimal.coefficient_trim_pos _ ?_
    exact Nat.mul_pos hvalue (Nat.pow_pos (by decide))

/-- **The digits of a nonzero number are not those of zero.** -/
theorem Double.coefficient_shortest_pos {x : Double} (h : x.isZero = false) (tie : Tie) :
    0 < (x.shortest tie).coefficient := by
  rw [shortest, h]
  exact Neighbourhood.coefficient_shortest_pos (Neighbourhood.low_pos h)
    (Neighbourhood.value_pos h) tie

end CallCapture
