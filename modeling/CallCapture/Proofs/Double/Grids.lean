import CallCapture.Proofs.Double.Rounding

/-!
# Decimal grids around a double

The search for the fewest digits works with natural numbers over common denominators.  Here its
steps are read as statements about the number: a point of a grid is a hit if the number covers it
(`Neighbourhood.hits_iff`), and the two candidates are the points around the number
(`Neighbourhood.floor_spec`).

The number is at least `10 ^ (k - 1)` and below `10 ^ k` for its scale `k`
(`Neighbourhood.scale_spec`).  On the grid of seventeen digits two points are closer together than
the ends of what the number covers, so one of the candidates is a hit
(`Neighbourhood.exists_hit`): the search always ends on a grid.
-/

namespace CallCapture

theorem ten_zpow_pos (e : ℤ) : (0 : ℚ) < 10 ^ e :=
  zpow_pos (by norm_num) e

namespace Neighbourhood

/-! ## Numerators as numbers -/

theorem denominator_pos (r : Neighbourhood) : (0 : ℚ) < r.denominator :=
  cast_pow_pos (by decide) r.shift

/-- Numerators count quarters of the last place over the common denominator. -/
theorem cast_quarters (x : Double) (n : ℕ) :
    ((n * Nat.pow 2 (x.exponent - 2).toNat : ℕ) : ℚ) =
      n / 4 * 2 ^ x.exponent * (Neighbourhood.of x).denominator := by
  have hpow := cast_pow_toNat (b := 2) (by decide) (x.exponent - 2)
  have hquarter : (2 : ℚ) ^ x.exponent = 2 ^ 2 * 2 ^ (x.exponent - 2) := by
    rw [← Double.two_zpow_add_natCast]
    congr 1
    push_cast
    omega
  rw [Nat.cast_mul, hpow, hquarter, neg_sub]
  show _ = _ * ((Nat.pow 2 (2 - x.exponent).toNat : ℕ) : ℚ)
  push_cast
  ring

theorem cast_value (x : Double) :
    ((Neighbourhood.of x).value : ℚ) = x.absValue * (Neighbourhood.of x).denominator := by
  refine (cast_quarters x (4 * x.significand)).trans ?_
  rw [Double.absValue]
  push_cast
  ring

theorem cast_high (x : Double) :
    ((Neighbourhood.of x).high : ℚ) =
      (x.absValue + 2 ^ x.exponent / 2) * (Neighbourhood.of x).denominator := by
  refine (cast_quarters x (4 * x.significand + 2)).trans ?_
  rw [Double.absValue]
  push_cast
  ring

theorem cast_low {x : Double} (hz : x.isZero = false) :
    ((Neighbourhood.of x).low : ℚ) =
      (x.absValue - x.stepBelow / 2) * (Neighbourhood.of x).denominator := by
  have hs := x.significand_pos hz
  refine (cast_quarters x (4 * x.significand - if x.narrowBelow then 1 else 2)).trans ?_
  rw [Double.absValue, Double.stepBelow]
  split
  · rw [Nat.cast_sub (by omega)]
    push_cast
    ring
  · rw [Nat.cast_sub (by omega)]
    push_cast
    ring

/-! ## Grids -/

/-- What the numerators of a grid stand for: everything is counted in one unit, in which the
points are multiples of `10 ^ e`. -/
theorem grid_spec {x : Double} (hz : x.isZero = false) (e : ℤ) :
    ∃ u : ℚ, 0 < u ∧
      (((Neighbourhood.of x).grid e).low : ℚ) = (x.absValue - x.stepBelow / 2) * u ∧
      (((Neighbourhood.of x).grid e).value : ℚ) = x.absValue * u ∧
      (((Neighbourhood.of x).grid e).high : ℚ) = (x.absValue + 2 ^ x.exponent / 2) * u ∧
      (((Neighbourhood.of x).grid e).step : ℚ) = 10 ^ e * u := by
  have hpow := cast_pow_toNat (b := 10) (by decide) e
  refine ⟨(Neighbourhood.of x).denominator * (Nat.pow 10 (-e).toNat : ℕ),
    mul_pos (denominator_pos _) (cast_pow_pos (by decide) _), ?_, ?_, ?_, ?_⟩
  · rw [← mul_assoc, ← cast_low hz, ← Nat.cast_mul]
    rfl
  · rw [← mul_assoc, ← cast_value, ← Nat.cast_mul]
    rfl
  · rw [← mul_assoc, ← cast_high, ← Nat.cast_mul]
    rfl
  · show ((Nat.pow 10 e.toNat * (Neighbourhood.of x).denominator : ℕ) : ℚ) = _
    rw [Nat.cast_mul, hpow, Nat.cast_ofNat]
    ring

/-- **A hit is a point that the number covers.** -/
theorem hits_iff {x : Double} (hz : x.isZero = false) (e : ℤ) (n : ℕ) :
    ((Neighbourhood.of x).grid e).hits n = true ↔ x.Covers (n * 10 ^ e) := by
  obtain ⟨u, hu, hlow, -, hhigh, hstep⟩ := grid_spec hz e
  have hpoint : ((n * ((Neighbourhood.of x).grid e).step : ℕ) : ℚ) = n * 10 ^ e * u := by
    rw [Nat.cast_mul, hstep, mul_assoc]
  have hclosed : ((Neighbourhood.of x).grid e).closed = decide (x.significand % 2 = 0) := rfl
  rw [Grid.hits, hclosed]
  by_cases heven : x.significand % 2 = 0
  · rw [decide_eq_true heven, if_pos rfl, Bool.and_eq_true, decide_eq_true_iff,
      decide_eq_true_iff, ← Nat.cast_le (α := ℚ), ← Nat.cast_le (α := ℚ), hpoint, hlow, hhigh,
      mul_le_mul_iff_of_pos_right hu, mul_le_mul_iff_of_pos_right hu]
    constructor
    · rintro ⟨hlower, hupper⟩
      exact ⟨hlower, hupper, fun _ => heven⟩
    · rintro ⟨hlower, hupper, -⟩
      exact ⟨hlower, hupper⟩
  · rw [decide_eq_false heven, if_neg (by decide), Bool.and_eq_true, decide_eq_true_iff,
      decide_eq_true_iff, ← Nat.cast_lt (α := ℚ), ← Nat.cast_lt (α := ℚ), hpoint, hlow, hhigh,
      mul_lt_mul_iff_of_pos_right hu, mul_lt_mul_iff_of_pos_right hu]
    constructor
    · rintro ⟨hlower, hupper⟩
      exact Double.covers_of_lt hlower hupper
    · rintro ⟨hlower, hupper, hend⟩
      exact ⟨lt_of_le_of_ne hlower fun h => heven (hend (Or.inl h.symm)),
        lt_of_le_of_ne hupper fun h => heven (hend (Or.inr h))⟩

/-- The number lies from the candidate at or below it up to the next point. -/
theorem floor_spec {x : Double} (hz : x.isZero = false) (e : ℤ) :
    (((Neighbourhood.of x).grid e).floor : ℚ) * 10 ^ e ≤ x.absValue ∧
      x.absValue < (((Neighbourhood.of x).grid e).floor + 1) * 10 ^ e := by
  obtain ⟨u, hu, -, hvalue, -, hstep⟩ := grid_spec hz e
  have hpos : 0 < ((Neighbourhood.of x).grid e).step := by
    rw [← Nat.cast_pos (α := ℚ), hstep]
    exact mul_pos (ten_zpow_pos e) hu
  rw [Grid.floor]
  constructor
  · have h := Nat.div_mul_le_self ((Neighbourhood.of x).grid e).value
      ((Neighbourhood.of x).grid e).step
    rw [← Nat.cast_le (α := ℚ), Nat.cast_mul, hstep, hvalue, ← mul_assoc,
      mul_le_mul_iff_of_pos_right hu] at h
    exact h
  · have h := Nat.lt_mul_of_div_lt (Nat.lt_succ_self (((Neighbourhood.of x).grid e).value /
      ((Neighbourhood.of x).grid e).step)) hpos
    rw [← Nat.cast_lt (α := ℚ), Nat.cast_mul, hstep, hvalue, Nat.succ_eq_add_one, Nat.cast_add,
      Nat.cast_one, ← mul_assoc, mul_lt_mul_iff_of_pos_right hu] at h
    exact h

/-! ## The scale -/

/-- A number with some digits lies between powers of ten. -/
theorem length_toDigits_spec {n : ℕ} (hn : 0 < n) :
    (10 : ℚ) ^ ((Nat.toDigits 10 n).length - 1 : ℤ) ≤ n ∧
      (n : ℚ) + 1 ≤ 10 ^ ((Nat.toDigits 10 n).length : ℤ) := by
  have hpos := Nat.length_toDigits_pos (b := 10) (n := n)
  generalize hlength : (Nat.toDigits 10 n).length = k at hpos ⊢
  constructor
  · obtain ⟨j, rfl⟩ : ∃ j, k = j + 1 := ⟨k - 1, by omega⟩
    rw [Nat.cast_add, Nat.cast_one, add_sub_cancel_right, zpow_natCast]
    rcases Nat.eq_zero_or_pos j with rfl | hj
    · exact_mod_cast hn
    · have hnot : ¬n < 10 ^ j := fun hlt => by
        have := (Nat.length_toDigits_le_iff (by decide) hj).2 hlt
        omega
      exact_mod_cast Nat.not_lt.1 hnot
  · rw [zpow_natCast]
    exact_mod_cast (Nat.length_toDigits_le_iff (by decide) hpos).1 hlength.le

/-- **The scale** is the least power of ten above the number. -/
theorem scale_spec {x : Double} (hz : x.isZero = false) :
    (10 : ℚ) ^ ((Neighbourhood.of x).scale - 1) ≤ x.absValue ∧
      x.absValue < 10 ^ (Neighbourhood.of x).scale := by
  have hvalue := cast_value x
  have hpos := denominator_pos (Neighbourhood.of x)
  have hvpos := value_pos hz
  have hdpos : 0 < (Neighbourhood.of x).denominator := by exact_mod_cast hpos
  rw [← div_eq_iff hpos.ne'] at hvalue
  rw [← hvalue, scale]
  generalize (Neighbourhood.of x).value = v at hvpos ⊢
  generalize (Neighbourhood.of x).denominator = d at hpos hdpos ⊢
  have hv : (0 : ℚ) < v := by exact_mod_cast hvpos
  split
  · -- the integer part has the digits before the point
    next hle =>
    obtain ⟨hlow, hhigh⟩ := length_toDigits_spec (Nat.div_pos hle hdpos)
    have hfloor : ((v / d : ℕ) : ℚ) * d ≤ v := by exact_mod_cast Nat.div_mul_le_self v d
    have hnext : (v : ℚ) < (((v / d : ℕ) : ℚ) + 1) * d := by
      exact_mod_cast Nat.lt_mul_of_div_lt (Nat.lt_succ_self (v / d)) hdpos
    rw [le_div_iff₀ hpos, div_lt_iff₀ hpos]
    constructor
    · exact (mul_le_mul_of_nonneg_right hlow hpos.le).trans hfloor
    · exact hnext.trans_le (mul_le_mul_of_nonneg_right hhigh hpos.le)
  · -- the integer part of the reciprocal has the zeros after it
    next hlt =>
    have hone : 0 < (d - 1) / v := Nat.div_pos (by omega) hvpos
    obtain ⟨hlow, hhigh⟩ := length_toDigits_spec hone
    have hfloor : (((d - 1) / v : ℕ) : ℚ) * v < d := by
      have h := Nat.div_mul_le_self (d - 1) v
      exact_mod_cast (by omega : (d - 1) / v * v < d)
    have hnext : (d : ℚ) ≤ ((((d - 1) / v : ℕ) : ℚ) + 1) * v := by
      have h : d - 1 < ((d - 1) / v + 1) * v :=
        Nat.lt_mul_of_div_lt (Nat.lt_succ_self ((d - 1) / v)) hvpos
      exact_mod_cast (by omega : d ≤ ((d - 1) / v + 1) * v)
    generalize (d - 1) / v = b at hlow hhigh hfloor hnext
    generalize ((Nat.toDigits 10 b).length : ℤ) = k at hlow hhigh
    have hp := ten_zpow_pos k
    have hp' := ten_zpow_pos (k - 1)
    have hexp : 1 - k - 1 = -k := by omega
    have hexp' : 1 - k = -(k - 1) := by omega
    rw [hexp, hexp', zpow_neg, zpow_neg, le_div_iff₀ hpos, div_lt_iff₀ hpos, inv_mul_le_iff₀ hp,
      lt_inv_mul_iff₀ hp']
    constructor
    · exact hnext.trans (mul_le_mul_of_nonneg_right hhigh hv.le)
    · exact (mul_le_mul_of_nonneg_right hlow hv.le).trans_lt hfloor

/-! ## Seventeen digits -/

/-- **One of the candidates of seventeen digits is a hit**: the points of that grid are closer
together than the ends of what the number covers. -/
theorem exists_hit {x : Double} (hz : x.isZero = false) :
    let g := (Neighbourhood.of x).grid ((Neighbourhood.of x).scale - 17)
    g.hits g.floor = true ∨ g.hits (g.floor + 1) = true := by
  intro g
  obtain ⟨hlow, hhigh⟩ := floor_spec hz ((Neighbourhood.of x).scale - 17)
  obtain ⟨hscale, -⟩ := scale_spec hz
  have hpos := Double.two_zpow_pos x.exponent
  have hstep := x.stepBelow_pos
  have hvalue : x.absValue = x.significand * 2 ^ x.exponent := rfl
  by_contra hnone
  rw [not_or, hits_iff hz, hits_iff hz] at hnone
  push_cast at hnone
  have hgrid : (10 : ℚ) ^ ((Neighbourhood.of x).scale - 1) =
      10 ^ 16 * 10 ^ ((Neighbourhood.of x).scale - 17) := by
    rw [← zpow_natCast, ← zpow_add₀ (by norm_num)]
    congr 1
    push_cast
    omega
  have hpoint := ten_zpow_pos ((Neighbourhood.of x).scale - 17)
  rw [hgrid] at hscale
  generalize (10 : ℚ) ^ ((Neighbourhood.of x).scale - 17) = w at *
  have hbelow : (g.floor : ℚ) * w ≤ x.absValue - x.stepBelow / 2 := by
    by_contra hlt
    exact hnone.1 (Double.covers_of_lt (not_le.1 hlt) (by linarith))
  have habove : x.absValue + 2 ^ x.exponent / 2 ≤ (g.floor + 1) * w := by
    by_contra hlt
    exact hnone.2 (Double.covers_of_lt (by linarith) (not_le.1 hlt))
  -- two points further apart than the ends are too far for the size of the number
  by_cases hnarrow : x.narrowBelow = true
  · have hs : (x.significand : ℚ) = 0x10000000000000 := by
      exact_mod_cast ((Double.narrowBelow_iff x).1 hnarrow).1
    rw [Double.stepBelow, if_pos hnarrow] at hbelow
    rw [hvalue, hs] at hscale
    linarith
  · have hs : (x.significand : ℚ) < 0x20000000000000 := by exact_mod_cast x.significand_lt
    rw [Double.stepBelow, if_neg hnarrow] at hbelow
    rw [hvalue] at hscale
    nlinarith

end Neighbourhood

end CallCapture
