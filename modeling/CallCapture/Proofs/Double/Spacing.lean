import CallCapture.Double.Text
import Mathlib.Algebra.Order.Field.Power
import Mathlib.Algebra.Order.Ring.Rat
import Mathlib.Tactic.FieldSimp
import Mathlib.Tactic.Linarith
import Mathlib.Tactic.NormNum
import Mathlib.Tactic.Positivity
import Mathlib.Tactic.Ring

/-!
# How doubles lie on the line

The absolute value of a finite number is a rational, and so is what a decimal denotes.  Signs are
kept apart from both, since the two zeros have the same absolute value.  `Double.IsNearest` says
what it means to round to the nearest double without computing one.  The magnitude after the last
finite one belongs to the infinities; the rule for overflow is that it counts as the number that
would come next, which is what `Double.absValue` gives for it.

The magnitude of a number counts the numbers below its absolute value.  In terms of the
significand and the exponent it is `(exponent + 1074) · 2 ^ 52 + significand`
(`Double.magnitude_eq`), and with the bounds on the two this one equation decides every
comparison: which of two numbers is larger, and how far apart they are at least
(`Double.absValue_add_le`, `Double.absValue_le_sub`).

The reals that round to a number lie between the points half way to its neighbours.
`Double.Covers` says so for rationals; a covered point is nearest to the number
(`Double.Covers.isNearest`).
-/

namespace CallCapture

/-! ## Exact numbers -/

namespace Double

/-- The absolute value of a finite number. -/
def absValue (x : Double) : ℚ :=
  x.significand * 2 ^ x.exponent

/-- The number is the nearest to `q`, and of two equally near ones that with the even
significand. -/
structure IsNearest (q : ℚ) (x : Double) : Prop where
  /-- No other number is nearer. -/
  nearest : ∀ y : Double, y.isNaN = false → |q - x.absValue| ≤ |q - y.absValue|
  /-- If another one is as near, the significand is even. -/
  even_of_tie : ∀ y : Double, y.isNaN = false → y.absValue ≠ x.absValue →
    |q - y.absValue| = |q - x.absValue| → x.significand % 2 = 0

end Double

/-- The number that a decimal denotes. -/
def Decimal.toRat (d : Decimal) : ℚ :=
  d.coefficient * 10 ^ d.exponent

namespace Double

/-! ## Significand and exponent -/

theorem significand_lt (x : Double) : x.significand < 0x20000000000000 := by
  have hf : x.fraction < 0x10000000000000 := Nat.mod_lt _ (by decide)
  rw [significand]
  split
  · omega
  · omega

theorem le_exponent (x : Double) : -1074 ≤ x.exponent := by
  rw [exponent]
  split
  · omega
  · omega

/-- Above the least exponent the leading one is there. -/
theorem le_significand {x : Double} (h : -1074 < x.exponent) :
    0x10000000000000 ≤ x.significand := by
  rw [exponent] at h
  rw [significand]
  split at h
  · omega
  · next he =>
    rw [if_neg he]
    omega

/-- **The magnitude counts numbers**: a full binade for each exponent, and the significand. -/
theorem magnitude_eq (x : Double) :
    (x.magnitude : ℤ) = (x.exponent + 1074) * 0x10000000000000 + x.significand := by
  have hdiv : 0x10000000000000 * x.biasedExponent + x.fraction = x.magnitude :=
    Nat.div_add_mod x.magnitude 0x10000000000000
  rw [exponent, significand]
  split
  · omega
  · push_cast
    omega

theorem exponent_le {x : Double} (h : x.isFinite = true) : x.exponent ≤ 971 := by
  have hm : x.magnitude < 0x7FF0000000000000 := of_decide_eq_true h
  have heq := x.magnitude_eq
  by_contra hlt
  have hs : 0x10000000000000 ≤ x.significand := le_significand (by omega)
  omega

/-- The step below is narrow at the first number of a binade above the least. -/
theorem narrowBelow_iff (x : Double) :
    x.narrowBelow = true ↔ x.significand = 0x10000000000000 ∧ -1074 < x.exponent := by
  have hf : x.fraction < 0x10000000000000 := Nat.mod_lt _ (by decide)
  rw [narrowBelow, Bool.and_eq_true, decide_eq_true_iff, decide_eq_true_iff, significand, exponent]
  split
  · omega
  · omega

/-! ## Distances -/

theorem two_zpow_pos (e : ℤ) : (0 : ℚ) < 2 ^ e :=
  zpow_pos (by norm_num) e

theorem two_zpow_succ (e : ℤ) : (2 : ℚ) ^ (e + 1) = 2 * 2 ^ e := by
  rw [zpow_add_one₀ (by norm_num), mul_comm]

theorem two_zpow_le {e f : ℤ} (h : e ≤ f) : (2 : ℚ) ^ e ≤ 2 ^ f :=
  zpow_le_zpow_right₀ (by norm_num) h

/-- A larger number has no smaller exponent. -/
theorem exponent_le_of_magnitude_lt {x y : Double} (h : x.magnitude < y.magnitude) :
    x.exponent ≤ y.exponent := by
  have hx := x.magnitude_eq
  have hy := y.magnitude_eq
  have hlt := y.significand_lt
  have hle := y.le_exponent
  by_contra hexp
  have hs : 0x10000000000000 ≤ x.significand := le_significand (by omega)
  omega

/-- **The next number** is a unit of the last place away. -/
theorem absValue_add_le {x y : Double} (h : x.magnitude < y.magnitude) :
    x.absValue + 2 ^ x.exponent ≤ y.absValue := by
  have hx := x.magnitude_eq
  have hy := y.magnitude_eq
  have hpos := two_zpow_pos x.exponent
  rw [absValue, absValue]
  rcases (exponent_le_of_magnitude_lt h).eq_or_lt with heq | hlt
  · have hs : (x.significand : ℚ) + 1 ≤ y.significand := by
      exact_mod_cast (by omega : x.significand + 1 ≤ y.significand)
    rw [← heq]
    nlinarith
  · -- all of the smaller binade lies below the first number of the larger one
    have hle := x.le_exponent
    have hs : (x.significand : ℚ) + 1 ≤ 0x20000000000000 := by
      exact_mod_cast x.significand_lt
    have hs' : (0x10000000000000 : ℚ) ≤ y.significand := by
      exact_mod_cast le_significand (x := y) (by omega)
    have hp : (2 : ℚ) * 2 ^ x.exponent ≤ 2 ^ y.exponent := by
      rw [← two_zpow_succ]
      exact two_zpow_le hlt
    calc (x.significand : ℚ) * 2 ^ x.exponent + 2 ^ x.exponent
      _ = (x.significand + 1) * 2 ^ x.exponent := by ring
      _ ≤ 0x20000000000000 * 2 ^ x.exponent := mul_le_mul_of_nonneg_right hs hpos.le
      _ = 0x10000000000000 * (2 * 2 ^ x.exponent) := by ring
      _ ≤ 0x10000000000000 * 2 ^ y.exponent := mul_le_mul_of_nonneg_left hp (by norm_num)
      _ ≤ y.significand * 2 ^ y.exponent :=
        mul_le_mul_of_nonneg_right hs' (two_zpow_pos _).le

/-- The distance to the number below: half a unit of the last place where the step is narrow. -/
def stepBelow (x : Double) : ℚ :=
  (if x.narrowBelow then 1 / 2 else 1) * 2 ^ x.exponent

theorem stepBelow_pos (x : Double) : 0 < x.stepBelow := by
  have hpos := two_zpow_pos x.exponent
  rw [stepBelow]
  split
  · positivity
  · positivity

theorem stepBelow_le (x : Double) : x.stepBelow ≤ 2 ^ x.exponent := by
  have hpos := two_zpow_pos x.exponent
  rw [stepBelow]
  split
  · linarith
  · linarith

/-- **The number before** is at least that far away. -/
theorem absValue_le_sub {x y : Double} (h : y.magnitude < x.magnitude) :
    y.absValue ≤ x.absValue - x.stepBelow := by
  have hx := x.magnitude_eq
  have hy := y.magnitude_eq
  rcases (exponent_le_of_magnitude_lt h).eq_or_lt with heq | hlt
  · have hgap := absValue_add_le h
    have hstep := x.stepBelow_le
    rw [heq] at hgap
    linarith
  · have hle := y.le_exponent
    have hpos := two_zpow_pos y.exponent
    have hp : (2 : ℚ) * 2 ^ y.exponent ≤ 2 ^ x.exponent := by
      rw [← two_zpow_succ]
      exact two_zpow_le hlt
    have hs : (y.significand : ℚ) + 1 ≤ 0x20000000000000 := by
      exact_mod_cast y.significand_lt
    have htop : y.absValue ≤ (0x10000000000000 - 1 / 2) * 2 ^ x.exponent := by
      rw [absValue]
      nlinarith
    have hvalue : x.absValue = x.significand * 2 ^ x.exponent := rfl
    rw [stepBelow, hvalue]
    by_cases hnarrow : x.narrowBelow = true
    · have hsx : (x.significand : ℚ) = 0x10000000000000 := by
        exact_mod_cast ((narrowBelow_iff x).1 hnarrow).1
      rw [if_pos hnarrow, hsx]
      linarith
    · have hsx : (0x10000000000000 : ℚ) + 1 ≤ x.significand := by
        have hfirst := le_significand (x := x) (by omega)
        have hne : x.significand ≠ 0x10000000000000 := fun hs =>
          hnarrow ((narrowBelow_iff x).2 ⟨hs, by omega⟩)
        exact_mod_cast (by omega : 0x10000000000000 + 1 ≤ x.significand)
      have hpos' := two_zpow_pos x.exponent
      rw [if_neg hnarrow]
      nlinarith

theorem absValue_eq_of_magnitude_eq {x y : Double} (h : x.magnitude = y.magnitude) :
    x.absValue = y.absValue := by
  have hbiased : x.biasedExponent = y.biasedExponent := by rw [biasedExponent, h, biasedExponent]
  have hfraction : x.fraction = y.fraction := by rw [fraction, h, fraction]
  rw [absValue, significand, exponent, hbiased, hfraction]
  rfl

/-- **Magnitudes order absolute values.** -/
theorem absValue_lt_iff {x y : Double} : x.absValue < y.absValue ↔ x.magnitude < y.magnitude := by
  constructor
  · intro h
    by_contra hle
    rcases (Nat.not_lt.1 hle).eq_or_lt with heq | hlt
    · exact absurd (absValue_eq_of_magnitude_eq heq) h.ne'
    · have := absValue_add_le hlt
      have := two_zpow_pos y.exponent
      linarith
  · intro h
    have := absValue_add_le h
    have := two_zpow_pos x.exponent
    linarith

/-! ## What rounds to a number -/

/-- A point lies between the points half way to the neighbours of a number, or is one of them and
the significand is even. -/
structure Covers (x : Double) (q : ℚ) : Prop where
  lower : x.absValue - x.stepBelow / 2 ≤ q
  upper : q ≤ x.absValue + 2 ^ x.exponent / 2
  even_of_end : q = x.absValue - x.stepBelow / 2 ∨ q = x.absValue + 2 ^ x.exponent / 2 →
    x.significand % 2 = 0

/-- Strictly between the two points half way the significand does not matter. -/
theorem covers_of_lt {x : Double} {q : ℚ} (hlower : x.absValue - x.stepBelow / 2 < q)
    (hupper : q < x.absValue + 2 ^ x.exponent / 2) : x.Covers q := by
  refine ⟨hlower.le, hupper.le, ?_⟩
  rintro (hend | hend)
  · exact absurd hend hlower.ne'
  · exact absurd hend hupper.ne

/-- Nearer than the number is only what is on its side of a point half way. -/
theorem abs_sub_le_of_le {q v w g : ℚ} (hq : q ≤ v + g / 2) (hw : v + g ≤ w) (hg : 0 < g) :
    |q - v| ≤ |q - w| ∧ (|q - w| = |q - v| → q = v + g / 2) := by
  rw [abs_of_nonpos (by linarith : q - w ≤ 0)]
  rcases abs_cases (q - v) with ⟨habs, hsign⟩ | ⟨habs, hsign⟩
  · rw [habs]
    refine ⟨by linarith, fun h => ?_⟩
    linarith
  · rw [habs]
    refine ⟨by linarith, fun h => ?_⟩
    linarith

/-- **A covered point is nearest to the number.** -/
theorem Covers.isNearest {x : Double} {q : ℚ} (h : x.Covers q) : IsNearest q x := by
  have hstep := x.stepBelow_pos
  have hpos := two_zpow_pos x.exponent
  have hcases : ∀ y : Double, y.absValue ≠ x.absValue → |q - x.absValue| ≤ |q - y.absValue| ∧
      (|q - y.absValue| = |q - x.absValue| → x.significand % 2 = 0) := by
    intro y hne
    rcases Nat.lt_trichotomy x.magnitude y.magnitude with hlt | heq | hgt
    · obtain ⟨hle, htie⟩ := abs_sub_le_of_le h.upper (absValue_add_le hlt) hpos
      exact ⟨hle, fun heq => h.even_of_end (Or.inr (htie heq))⟩
    · exact absurd (absValue_eq_of_magnitude_eq heq.symm) hne
    · -- mirrored at zero, the number below is one above
      have hmirror := abs_sub_le_of_le (q := -q) (v := -x.absValue) (w := -y.absValue)
        (g := x.stepBelow) (by linarith [h.lower]) (by linarith [absValue_le_sub hgt]) hstep
      rw [neg_sub_neg, neg_sub_neg, abs_sub_comm, abs_sub_comm y.absValue] at hmirror
      obtain ⟨hle, htie⟩ := hmirror
      exact ⟨hle, fun heq => h.even_of_end (Or.inl (by linarith [htie heq]))⟩
  constructor
  · intro y _
    by_cases hy : y.absValue = x.absValue
    · rw [hy]
    · exact (hcases y hy).1
  · intro y _ hne
    exact (hcases y hne).2

end Double

end CallCapture
