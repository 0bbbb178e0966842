import CallCapture.Double.Shortest
import CallCapture.Proofs.Double.Spacing

/-!
# Rounding to the nearest double

`Double.nearestMagnitude` finds the exponent of a quotient, rounds the quotient to a whole number
of units of the last place, and puts the two together.  It gives back the magnitude of every
finite number from any quotient that the number covers (`Double.Covers.nearestMagnitude_eq`).

There are two cases.  As a rule the quotient has the exponent of the number, and is rounded to its
significand.  Just below a power of two the exponent is one less, and rounding carries: the
significand `2 ^ 53` of the smaller exponent is `2 ^ 52` of the larger.
-/

namespace CallCapture

/-! ## Powers with integer exponents -/

/-- The power of a positive exponent and that of a negative one, of which one is 1. -/
theorem cast_pow_toNat {b : ℕ} (hb : 0 < b) (e : ℤ) :
    ((Nat.pow b e.toNat : ℕ) : ℚ) = (b : ℚ) ^ e * (Nat.pow b (-e).toNat : ℕ) := by
  have hne : (b : ℚ) ≠ 0 := by exact_mod_cast hb.ne'
  simp only [Nat.pow_eq, Nat.cast_pow, ← zpow_natCast]
  rw [← zpow_add₀ hne]
  congr 1
  omega

theorem cast_pow_pos {b : ℕ} (hb : 0 < b) (k : ℕ) : (0 : ℚ) < (Nat.pow b k : ℕ) := by
  exact_mod_cast Nat.pow_pos hb

/-! ## Rounding quotients -/

/-- A quotient is rounded to the number whose distance is at most a half, or to the even one of
two.  The distance is counted in halves of the denominator. -/
theorem roundDiv_eq_of_le {num den m : ℕ} (hden : 0 < den) (hlow : 2 * (den * m) ≤ 2 * num + den)
    (hhigh : 2 * num ≤ 2 * (den * m) + den)
    (heven : 2 * (den * m) = 2 * num + den ∨ 2 * num = 2 * (den * m) + den → m % 2 = 0) :
    roundDiv num den = m := by
  have hsplit : den * (num / den) + num % den = num := Nat.div_add_mod num den
  have hmod : num % den < den := Nat.mod_lt num hden
  rw [roundDiv]
  generalize num / den = n at hsplit ⊢
  have hle : n ≤ m := by
    by_contra hlt
    have hmul : den * (m + 1) ≤ den * n := Nat.mul_le_mul_left den (Nat.not_le.1 hlt)
    rw [Nat.mul_add, Nat.mul_one] at hmul
    omega
  have hge : m ≤ n + 1 := by
    by_contra hlt
    have hmul : den * (n + 2) ≤ den * m := Nat.mul_le_mul_left den (Nat.not_le.1 hlt)
    rw [Nat.mul_add] at hmul
    omega
  split
  · next hcompare =>
    rw [Nat.compare_eq_lt] at hcompare
    by_contra hne
    obtain rfl : m = n + 1 := by omega
    rw [Nat.mul_add] at hlow
    omega
  · next hcompare =>
    rw [Nat.compare_eq_gt] at hcompare
    by_contra hne
    obtain rfl : m = n := by omega
    omega
  · next hcompare =>
    rw [Nat.compare_eq_eq] at hcompare
    rcases (by omega : m = n ∨ m = n + 1) with rfl | rfl
    · rw [if_pos (heven (Or.inr (by omega)))]
    · rw [Nat.mul_add] at heven
      rw [if_neg]
      have := heven (Or.inl (by omega))
      omega

/-- **A quotient is rounded to the number next to it**, or to the even one of two. -/
theorem roundDiv_eq {num den m : ℕ} (hden : 0 < den) (hlow : (m : ℚ) - 1 / 2 ≤ num / den)
    (hhigh : (num : ℚ) / den ≤ m + 1 / 2)
    (heven : (num : ℚ) / den = m - 1 / 2 ∨ (num : ℚ) / den = m + 1 / 2 → m % 2 = 0) :
    roundDiv num den = m := by
  have hpos : (0 : ℚ) < den := by exact_mod_cast hden
  rw [le_div_iff₀ hpos] at hlow
  rw [div_le_iff₀ hpos] at hhigh
  rw [div_eq_iff hpos.ne', div_eq_iff hpos.ne'] at heven
  refine roundDiv_eq_of_le hden ?_ ?_ ?_
  · have h : (2 * (den * m) : ℚ) ≤ 2 * num + den := by linarith
    exact_mod_cast h
  · have h : (2 * num : ℚ) ≤ 2 * (den * m) + den := by linarith
    exact_mod_cast h
  · rintro (h | h)
    · have h' : (2 * (den * m) : ℚ) = 2 * num + den := by exact_mod_cast h
      exact heven (Or.inl (by linarith))
    · have h' : (2 * num : ℚ) = 2 * (den * m) + den := by exact_mod_cast h
      exact heven (Or.inr (by linarith))

namespace Double

/-- The two powers in the test stand for one power of a negative or positive exponent. -/
theorem mul_pow_le_mul_pow_iff {num den : ℕ} (hden : 0 < den) (k : ℤ) :
    den * Nat.pow 2 k.toNat ≤ num * Nat.pow 2 (-k).toNat ↔ (2 : ℚ) ^ k ≤ num / den := by
  have hpos : (0 : ℚ) < den := by exact_mod_cast hden
  have hk := cast_pow_toNat (b := 2) (by decide) k
  have hp := cast_pow_pos (b := 2) (by decide) (-k).toNat
  rw [← Nat.cast_le (α := ℚ), Nat.cast_mul, Nat.cast_mul, hk, ← mul_assoc,
    mul_le_mul_iff_of_pos_right hp, le_div_iff₀ hpos, mul_comm]
  rfl

/-- The integer part of the binary logarithm. -/
theorem log2Div_spec {num den : ℕ} (hnum : 0 < num) (hden : 0 < den) :
    (2 : ℚ) ^ log2Div num den ≤ num / den ∧ (num : ℚ) / den < 2 ^ (log2Div num den + 1) := by
  have hpos : (0 : ℚ) < den := by exact_mod_cast hden
  have hnum₁ : (2 : ℚ) ^ (Nat.log2 num : ℤ) ≤ num := by
    rw [zpow_natCast]
    exact_mod_cast Nat.log2_self_le hnum.ne'
  have hnum₂ : (num : ℚ) < 2 ^ ((Nat.log2 num : ℤ) + 1) := by
    exact_mod_cast Nat.lt_log2_self (n := num)
  have hden₁ : (2 : ℚ) ^ (Nat.log2 den : ℤ) ≤ den := by
    rw [zpow_natCast]
    exact_mod_cast Nat.log2_self_le hden.ne'
  have hden₂ : (den : ℚ) < 2 ^ ((Nat.log2 den : ℤ) + 1) := by
    exact_mod_cast Nat.lt_log2_self (n := den)
  -- the difference of the two logarithms is the logarithm or one more
  have hbelow : (2 : ℚ) ^ ((Nat.log2 num : ℤ) - Nat.log2 den - 1) ≤ num / den := by
    rw [le_div_iff₀ hpos]
    calc (2 : ℚ) ^ ((Nat.log2 num : ℤ) - Nat.log2 den - 1) * den
      _ ≤ 2 ^ ((Nat.log2 num : ℤ) - Nat.log2 den - 1) * 2 ^ ((Nat.log2 den : ℤ) + 1) :=
        mul_le_mul_of_nonneg_left hden₂.le (two_zpow_pos _).le
      _ = 2 ^ (Nat.log2 num : ℤ) := by
        rw [← zpow_add₀ (by norm_num)]
        congr 1
        omega
      _ ≤ num := hnum₁
  have habove : (num : ℚ) / den < 2 ^ ((Nat.log2 num : ℤ) - Nat.log2 den + 1) := by
    rw [div_lt_iff₀ hpos]
    calc (num : ℚ)
      _ < 2 ^ ((Nat.log2 num : ℤ) + 1) := hnum₂
      _ = 2 ^ ((Nat.log2 num : ℤ) - Nat.log2 den + 1) * 2 ^ (Nat.log2 den : ℤ) := by
        rw [← zpow_add₀ (by norm_num)]
        congr 1
        omega
      _ ≤ 2 ^ ((Nat.log2 num : ℤ) - Nat.log2 den + 1) * den :=
        mul_le_mul_of_nonneg_left hden₁ (two_zpow_pos _).le
  rw [log2Div]
  split
  · next hle => exact ⟨(mul_pow_le_mul_pow_iff hden _).1 hle, habove⟩
  · next hlt =>
    rw [sub_add_cancel]
    exact ⟨hbelow, lt_of_not_ge fun hle => hlt ((mul_pow_le_mul_pow_iff hden _).2 hle)⟩

/-- The logarithm of a quotient is known from the powers around it. -/
theorem log2Div_eq {num den : ℕ} (hnum : 0 < num) (hden : 0 < den) {k : ℤ}
    (hlow : (2 : ℚ) ^ k ≤ num / den) (hhigh : (num : ℚ) / den < 2 ^ (k + 1)) :
    log2Div num den = k := by
  obtain ⟨hle, hlt⟩ := log2Div_spec hnum hden
  have h₁ : log2Div num den < k + 1 :=
    (zpow_lt_zpow_iff_right₀ (by norm_num)).1 (hle.trans_lt hhigh)
  have h₂ : k < log2Div num den + 1 :=
    (zpow_lt_zpow_iff_right₀ (by norm_num)).1 (hlow.trans_lt hlt)
  omega

/-- **The nearest magnitude from its parts**: the exponent `t` and the number `m` of units of the
last place to which the quotient is rounded. -/
theorem nearestMagnitude_eq {num den : ℕ} (hnum : 0 < num) (hden : 0 < den) {t : ℤ} {m : ℕ}
    (ht : max (-1074) (log2Div num den - 52) = t)
    (hlow : ((m : ℚ) - 1 / 2) * 2 ^ t ≤ num / den) (hhigh : (num : ℚ) / den ≤ (m + 1 / 2) * 2 ^ t)
    (heven : (num : ℚ) / den = (m - 1 / 2) * 2 ^ t ∨ (num : ℚ) / den = (m + 1 / 2) * 2 ^ t →
      m % 2 = 0) :
    nearestMagnitude num den =
      min infiniteMagnitude ((t + 1074).toNat * 0x10000000000000 + m) := by
  have hpos := two_zpow_pos t
  have hdiv : ((num * Nat.pow 2 (-t).toNat : ℕ) : ℚ) / (den * Nat.pow 2 t.toNat : ℕ) =
      num / den / 2 ^ t := by
    have hp := cast_pow_pos (b := 2) (by decide) (-t).toNat
    have ht := cast_pow_toNat (b := 2) (by decide) t
    have hden' : (den : ℚ) ≠ 0 := by exact_mod_cast hden.ne'
    rw [Nat.cast_mul, Nat.cast_mul, ht, Nat.cast_ofNat]
    field_simp
  have hround : roundDiv (num * Nat.pow 2 (-t).toNat) (den * Nat.pow 2 t.toNat) = m := by
    refine roundDiv_eq (Nat.mul_pos hden (Nat.pow_pos (by decide))) ?_ ?_ ?_
    · rwa [hdiv, le_div_iff₀ hpos]
    · rwa [hdiv, div_le_iff₀ hpos]
    · rwa [hdiv, div_eq_iff hpos.ne', div_eq_iff hpos.ne']
  rw [nearestMagnitude, if_neg hnum.ne']
  dsimp only
  rw [ht, hround]

theorem two_zpow_add_natCast (t : ℤ) (k : ℕ) : (2 : ℚ) ^ (t + k) = 2 ^ k * 2 ^ t := by
  rw [zpow_add₀ (by norm_num), zpow_natCast, mul_comm]

/-- A covered point is positive and below the end of the binade. -/
theorem Covers.bounds {x : Double} {q : ℚ} (hz : x.isZero = false) (h : x.Covers q) :
    0 < q ∧ q < 2 ^ (x.exponent + 53) := by
  have hpos := two_zpow_pos x.exponent
  have hstep := x.stepBelow_le
  have hvalue : x.absValue = x.significand * 2 ^ x.exponent := rfl
  have hs₁ : (1 : ℚ) ≤ x.significand := by exact_mod_cast x.significand_pos hz
  have hs₂ : (x.significand : ℚ) + 1 ≤ 0x20000000000000 := by exact_mod_cast x.significand_lt
  have hlower := h.lower
  have hupper := h.upper
  rw [hvalue] at hlower hupper
  constructor
  · nlinarith
  · have hend : (2 : ℚ) ^ (x.exponent + 53) = 2 ^ 53 * 2 ^ x.exponent :=
      two_zpow_add_natCast x.exponent 53
    rw [hend]
    nlinarith

/-- A covered point below the binade of a number rounds up to the first number of it. -/
theorem Covers.narrow_of_lt {x : Double} {q : ℚ} (h : x.Covers q) (ht : -1074 < x.exponent)
    (hlt : q < 2 ^ (x.exponent + 52)) :
    x.significand = 0x10000000000000 ∧ (2 ^ 53 - 1 / 2) * 2 ^ (x.exponent - 1) ≤ q := by
  have hpos := two_zpow_pos x.exponent
  have hvalue : x.absValue = x.significand * 2 ^ x.exponent := rfl
  have hlower := h.lower
  have hstep := x.stepBelow_le
  have hend : (2 : ℚ) ^ (x.exponent + 52) = 2 ^ 52 * 2 ^ x.exponent :=
    two_zpow_add_natCast x.exponent 52
  rw [hvalue] at hlower
  rw [hend] at hlt
  have hs : x.significand = 0x10000000000000 := by
    have hle := le_significand ht
    have hge : (x.significand : ℚ) < 0x10000000000000 + 1 := by
      nlinarith
    have hge' : x.significand < 0x10000000000000 + 1 := by exact_mod_cast hge
    omega
  have hnarrow := (narrowBelow_iff x).2 ⟨hs, ht⟩
  have hhalf : (2 : ℚ) ^ x.exponent = 2 * 2 ^ (x.exponent - 1) := by
    rw [← two_zpow_succ, sub_add_cancel]
  rw [stepBelow, hnarrow, if_pos rfl, hs, hhalf] at hlower
  refine ⟨hs, ?_⟩
  push_cast at hlower
  linarith

/-- Just below a power of two the exponent is one less, and rounding carries. -/
theorem Covers.nearestMagnitude_of_lt {num den : ℕ} (hnum : 0 < num) (hden : 0 < den) {x : Double}
    (h : x.Covers ((num : ℚ) / den)) (ht : -1074 < x.exponent)
    (hlt : (num : ℚ) / den < 2 ^ (x.exponent + 52)) :
    nearestMagnitude num den = min infiniteMagnitude x.magnitude := by
  have hmagnitude := x.magnitude_eq
  obtain ⟨hs, hlow⟩ := h.narrow_of_lt ht hlt
  have hend : (2 : ℚ) ^ (x.exponent + 52) = 2 ^ 53 * 2 ^ (x.exponent - 1) := by
    rw [← two_zpow_add_natCast]
    congr 1
    push_cast
    omega
  have hbegin : (2 : ℚ) ^ (x.exponent + 51) = 2 ^ 52 * 2 ^ (x.exponent - 1) := by
    rw [← two_zpow_add_natCast]
    congr 1
    push_cast
    omega
  have hpos := two_zpow_pos (x.exponent - 1)
  have hk : log2Div num den = x.exponent + 51 := by
    refine log2Div_eq hnum hden ?_ ?_
    · rw [hbegin]
      linarith
    · rwa [add_assoc]
  rw [Double.nearestMagnitude_eq (t := x.exponent - 1) (m := 2 ^ 53) hnum hden (by omega)
    (by push_cast; exact hlow) (by push_cast; linarith) (fun _ => by decide)]
  congr 1
  omega

/-- Elsewhere the quotient has the exponent of the number. -/
theorem Covers.nearestMagnitude_of_max {num den : ℕ} (hnum : 0 < num) (hden : 0 < den) {x : Double}
    (h : x.Covers ((num : ℚ) / den)) (hk : max (-1074) (log2Div num den - 52) = x.exponent) :
    nearestMagnitude num den = min infiniteMagnitude x.magnitude := by
  have hmagnitude := x.magnitude_eq
  have hexponent := x.le_exponent
  have hvalue : x.absValue = x.significand * 2 ^ x.exponent := rfl
  have hstep := x.stepBelow_le
  have hlower := h.lower
  have hupper := h.upper
  have heven := h.even_of_end
  rw [hvalue] at hlower hupper heven
  rw [Double.nearestMagnitude_eq (t := x.exponent) (m := x.significand) hnum hden hk
    (by linarith) (by linarith) ?_]
  · congr 1
    omega
  · rintro (htie | htie)
    · exact heven (Or.inl (by linarith))
    · exact heven (Or.inr (by linarith))

/-- **What a number covers is rounded to it.** -/
theorem Covers.nearestMagnitude_eq {num den : ℕ} (hden : 0 < den) {x : Double}
    (hx : x.isFinite = true) (hz : x.isZero = false) (h : x.Covers ((num : ℚ) / den)) :
    nearestMagnitude num den = x.magnitude := by
  have hfinite : x.magnitude < infiniteMagnitude := of_decide_eq_true hx
  rw [← Nat.min_eq_right hfinite.le]
  have hexponent := x.le_exponent
  obtain ⟨hq, htop⟩ := h.bounds hz
  have hnum : 0 < num := by
    rcases Nat.eq_zero_or_pos num with rfl | hnum
    · rw [Nat.cast_zero, zero_div] at hq
      exact absurd hq (lt_irrefl 0)
    · exact hnum
  obtain ⟨hlog, -⟩ := log2Div_spec hnum hden
  have hlog' : log2Div num den < x.exponent + 53 :=
    (zpow_lt_zpow_iff_right₀ (by norm_num)).1 (hlog.trans_lt htop)
  by_cases ht : -1074 < x.exponent
  · by_cases hlt : (num : ℚ) / den < 2 ^ (x.exponent + 52)
    · exact h.nearestMagnitude_of_lt hnum hden ht hlt
    · have hk : log2Div num den = x.exponent + 52 :=
        log2Div_eq hnum hden (not_lt.1 hlt) (by rwa [add_assoc])
      exact h.nearestMagnitude_of_max hnum hden (by omega)
  · exact h.nearestMagnitude_of_max hnum hden (by omega)

end Double

end CallCapture
