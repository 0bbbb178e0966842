import CallCapture.Proofs.Double.Grids

/-!
# The digits of a double

What `Double.shortest` finds is known from the grid on which the search ends: the decimal is
covered by the number, has at most seventeen digits, and has its point where the scale of the
number says, or one place further where it was rounded up to a power of ten
(`Double.shortest_spec`).

Ties are broken in two ways, and the search ends on the same grid for both.  The decimals are the
same number unless the double lies exactly half way between two points of the grid, the lower of
them even (`Double.shortest_ties`).
-/

namespace CallCapture

/-- The two powers of ten around a number of a scale, counted in the points of a grid. -/
theorem ten_zpow_grid (scale : ℤ) (i : ℕ) :
    (10 : ℚ) ^ (scale - 1) = (10 ^ i : ℕ) * 10 ^ (scale - (i + 1 : ℕ)) ∧
      (10 : ℚ) ^ scale = (10 ^ (i + 1) : ℕ) * 10 ^ (scale - (i + 1 : ℕ)) := by
  simp only [Nat.cast_pow, Nat.cast_ofNat, ← zpow_natCast]
  rw [← zpow_add₀ (by norm_num), ← zpow_add₀ (by norm_num)]
  constructor
  · congr 1
    push_cast
    omega
  · congr 1
    omega

/-! ## Points of a grid -/

namespace Grid

theorem nearer_cases (g : Grid) (tie : Tie) (n : ℕ) :
    g.nearer tie n = n ∨ g.nearer tie n = n + 1 := by
  unfold nearer
  repeat' split
  all_goals simp

/-- A point that names the number is a candidate and a hit. -/
theorem point?_spec {g : Grid} {tie : Tie} {n : ℕ} (h : g.point? tie = some n) :
    (n = g.floor ∨ n = g.floor + 1) ∧ g.hits n = true := by
  unfold point? at h
  dsimp only at h
  split at h
  · next hfloor hnext =>
    rw [← Option.some.inj h]
    rcases g.nearer_cases tie g.floor with hn | hn
    · exact ⟨Or.inl hn, by rw [hn, hfloor]⟩
    · exact ⟨Or.inr hn, by rw [hn, hnext]⟩
  · next hfloor _ =>
    rw [← Option.some.inj h]
    exact ⟨Or.inl rfl, hfloor⟩
  · next _ hnext =>
    rw [← Option.some.inj h]
    exact ⟨Or.inr rfl, hnext⟩
  · exact nomatch h

/-- Whether there is such a point does not depend on ties. -/
theorem isSome_point? (g : Grid) (tie : Tie) :
    (g.point? tie).isSome = (g.hits g.floor || g.hits (g.floor + 1)) := by
  unfold point?
  dsimp only
  split
  · next hfloor _ => rw [hfloor]; rfl
  · next hfloor _ => rw [hfloor]; rfl
  · next hfloor hnext => rw [hfloor, hnext]; rfl
  · next hfloor hnext => rw [hfloor, hnext]; rfl

/-- **The two ways to break ties** give the same point, or the number is half way between two
points of which the lower is even. -/
theorem point?_ties {g : Grid} {n m : ℕ} (hn : g.point? .away = some n)
    (hm : g.point? .even = some m) :
    n = m ∨ n = m + 1 ∧ m % 2 = 0 ∧ 2 * g.value = (2 * m + 1) * g.step := by
  unfold point? at hn hm
  dsimp only at hn hm
  split at hn
  · next hfloor hnext =>
    rw [hfloor, hnext] at hm
    have hn' := Option.some.inj hn
    have hm' := Option.some.inj hm
    unfold nearer at hn' hm'
    split at hn'
    · next hcompare =>
      rw [hcompare] at hm'
      exact Or.inl (hn'.symm.trans hm')
    · next hcompare =>
      rw [hcompare] at hm'
      exact Or.inl (hn'.symm.trans hm')
    · next hcompare =>
      rw [hcompare] at hm'
      rw [Nat.compare_eq_eq] at hcompare
      dsimp only at hn' hm'
      split at hm'
      · next heven =>
        subst hn' hm'
        exact Or.inr ⟨rfl, heven, hcompare⟩
      · exact Or.inl (hn'.symm.trans hm')
  -- with a single hit there is no choice
  · next hfloor hnext =>
    rw [hfloor, hnext] at hm
    exact Or.inl (Option.some.inj (hn.symm.trans hm))
  · next hfloor hnext =>
    rw [hfloor, hnext] at hm
    exact Or.inl (Option.some.inj (hn.symm.trans hm))
  · exact nomatch hn

end Grid

/-- Two searches that succeed at the same places end at the same place. -/
theorem exists_of_findSome?_isSome {α β γ : Type} {f : α → Option β} {g : α → Option γ}
    (h : ∀ a, (f a).isSome = (g a).isSome) {l : List α} (hl : ∃ a ∈ l, (f a).isSome = true) :
    ∃ a ∈ l, ∃ b c, f a = some b ∧ g a = some c ∧ l.findSome? f = some b ∧
      l.findSome? g = some c := by
  induction l with
  | nil => exact absurd hl (by simp)
  | cons a l ih =>
    cases hf : f a with
    | some b =>
      obtain ⟨c, hg⟩ := Option.isSome_iff_exists.1 (by rw [← h, hf]; rfl : (g a).isSome = true)
      refine ⟨a, List.mem_cons_self, b, c, hf, hg, ?_, ?_⟩
      · rw [List.findSome?_cons, hf]
      · rw [List.findSome?_cons, hg]
    | none =>
      have hg : g a = none := by
        rw [← Option.not_isSome_iff_eq_none, ← h, hf]
        exact nofun
      obtain ⟨a', ha', hfa⟩ := hl
      rcases List.mem_cons.1 ha' with rfl | hmem
      · rw [hf] at hfa
        exact nomatch hfa
      · obtain ⟨a'', hmem', b, c, hb, hc, hfb, hgc⟩ := ih ⟨a', hmem, hfa⟩
        refine ⟨a'', List.mem_cons_of_mem _ hmem', b, c, hb, hc, ?_, ?_⟩
        · rw [List.findSome?_cons, hf, hfb]
        · rw [List.findSome?_cons, hg, hgc]

/-! ## Decimals -/

namespace Decimal

/-- Moving zeros into the exponent does not change the number. -/
theorem toRat_trim (d : Decimal) : d.trim.toRat = d.toRat := by
  fun_induction trim d with
  | case1 d hd ih =>
    have hten : (d.coefficient : ℚ) = ((d.coefficient / 10 : ℕ) : ℚ) * 10 := by
      exact_mod_cast (by omega : d.coefficient = d.coefficient / 10 * 10)
    rw [ih, toRat, toRat, hten, zpow_add_one₀ (by norm_num)]
    ring
  | case2 d hd => rfl

theorem coefficient_trim_le (d : Decimal) : d.trim.coefficient ≤ d.coefficient := by
  fun_induction trim d with
  | case1 d hd ih => exact ih.trans (Nat.div_le_self d.coefficient 10)
  | case2 d hd => exact Nat.le_refl _

/-- Also the first number with one digit more has no more digits without its zeros. -/
theorem length_digits_trim_le {d : Decimal} {k : ℕ} (hk : 0 < k) (h : d.coefficient ≤ 10 ^ k) :
    d.trim.digits.length ≤ k := by
  rw [digits, Nat.length_toDigits_le_iff (by decide) hk]
  rcases h.lt_or_eq with hlt | heq
  · exact (coefficient_trim_le d).trans_lt hlt
  · obtain ⟨j, rfl⟩ : ∃ j, k = j + 1 := ⟨k - 1, by omega⟩
    have hpos : 0 < 10 ^ j := Nat.pow_pos (by decide)
    rw [pow_succ] at heq ⊢
    rw [trim, if_pos (by omega)]
    have hle := coefficient_trim_le ⟨d.coefficient / 10, d.exponent + 1⟩
    dsimp only at hle
    omega

/-- **The position of the point** gives the powers of ten around a decimal. -/
theorem pointPosition_spec {d : Decimal} (h : 0 < d.coefficient) :
    (10 : ℚ) ^ (d.pointPosition - 1) ≤ d.toRat ∧ d.toRat < 10 ^ d.pointPosition := by
  obtain ⟨hlow, hhigh⟩ := Neighbourhood.length_toDigits_spec h
  have hpos := ten_zpow_pos d.exponent
  rw [pointPosition, digits, toRat, add_sub_right_comm, zpow_add₀ (by norm_num),
    zpow_add₀ (by norm_num)]
  constructor
  · exact mul_le_mul_of_nonneg_right hlow hpos.le
  · exact mul_lt_mul_of_pos_right (by linarith) hpos

end Decimal

/-! ## The search -/

/-- The candidates on a grid have as many digits as the grid is for. -/
theorem Neighbourhood.floor_bounds {x : Double} (hz : x.isZero = false) (i : ℕ) :
    let g := (Neighbourhood.of x).grid ((Neighbourhood.of x).scale - (i + 1 : ℕ))
    10 ^ i ≤ g.floor ∧ g.floor < 10 ^ (i + 1) := by
  intro g
  obtain ⟨hlow, hhigh⟩ := floor_spec hz ((Neighbourhood.of x).scale - (i + 1 : ℕ))
  obtain ⟨hscale, hscale'⟩ := scale_spec hz
  have hunit := ten_zpow_pos ((Neighbourhood.of x).scale - (i + 1 : ℕ))
  obtain ⟨hfirst, hlast⟩ := ten_zpow_grid (Neighbourhood.of x).scale i
  constructor
  · have hlt := hscale.trans_lt hhigh
    rw [hfirst, mul_lt_mul_iff_of_pos_right hunit] at hlt
    have hlt' : 10 ^ i < g.floor + 1 := by exact_mod_cast hlt
    omega
  · have hlt := hlow.trans_lt hscale'
    rw [hlast, mul_lt_mul_iff_of_pos_right hunit] at hlt
    exact_mod_cast hlt

namespace Double

/-- **The search ends on a grid**, for two ways of breaking ties on the same one. -/
theorem exists_points {x : Double} (hz : x.isZero = false) (tie tie' : Tie) :
    ∃ (i n n' : ℕ), i < 17 ∧
      ((Neighbourhood.of x).grid ((Neighbourhood.of x).scale - (i + 1 : ℕ))).point? tie = some n ∧
      ((Neighbourhood.of x).grid ((Neighbourhood.of x).scale - (i + 1 : ℕ))).point? tie' = some n' ∧
      x.shortest tie = (⟨n, (Neighbourhood.of x).scale - (i + 1 : ℕ)⟩ : Decimal).trim ∧
      x.shortest tie' = (⟨n', (Neighbourhood.of x).scale - (i + 1 : ℕ)⟩ : Decimal).trim := by
  have hsame : ∀ i : ℕ,
      ((Neighbourhood.of x).onGrid tie ((Neighbourhood.of x).scale - (i + 1 : ℕ))).isSome =
        ((Neighbourhood.of x).onGrid tie' ((Neighbourhood.of x).scale - (i + 1 : ℕ))).isSome := by
    intro i
    rw [Neighbourhood.onGrid, Neighbourhood.onGrid, Option.isSome_map, Option.isSome_map,
      Grid.isSome_point?, Grid.isSome_point?]
  have hlast : ∃ i ∈ List.range 17,
      ((Neighbourhood.of x).onGrid tie ((Neighbourhood.of x).scale - (i + 1 : ℕ))).isSome = true := by
    refine ⟨16, List.mem_range.2 (by decide), ?_⟩
    rw [Neighbourhood.onGrid, Option.isSome_map, Grid.isSome_point?, Bool.or_eq_true]
    exact Neighbourhood.exists_hit hz
  obtain ⟨i, hi, d, d', hd, hd', hfind, hfind'⟩ := exists_of_findSome?_isSome hsame hlast
  obtain ⟨n, hn, rfl⟩ := Option.map_eq_some_iff.1 hd
  obtain ⟨n', hn', rfl⟩ := Option.map_eq_some_iff.1 hd'
  have hcoarsest : (Neighbourhood.of x).coarsest tie =
      some ⟨n, (Neighbourhood.of x).scale - (i + 1 : ℕ)⟩ := hfind
  have hcoarsest' : (Neighbourhood.of x).coarsest tie' =
      some ⟨n', (Neighbourhood.of x).scale - (i + 1 : ℕ)⟩ := hfind'
  refine ⟨i, n, n', List.mem_range.1 hi, hn, hn', ?_, ?_⟩
  · rw [shortest, hz, Neighbourhood.shortest, hcoarsest]
    rfl
  · rw [shortest, hz, Neighbourhood.shortest, hcoarsest']
    rfl

/-- **What the search finds** is covered by the number, has at most seventeen digits, and has its
point where the scale says or one place further. -/
theorem shortest_spec {x : Double} (hz : x.isZero = false) (tie : Tie) :
    x.Covers (x.shortest tie).toRat ∧ (x.shortest tie).digits.length ≤ 17 ∧
      (Neighbourhood.of x).scale ≤ (x.shortest tie).pointPosition ∧
      (x.shortest tie).pointPosition ≤ (Neighbourhood.of x).scale + 1 := by
  obtain ⟨i, n, -, hi, hn, -, hshortest, -⟩ := exists_points hz tie tie
  obtain ⟨hcandidate, hhit⟩ := Grid.point?_spec hn
  obtain ⟨hge, hlt⟩ := Neighbourhood.floor_bounds hz i
  rw [Neighbourhood.hits_iff hz] at hhit
  have hrat : (x.shortest tie).toRat = n * 10 ^ ((Neighbourhood.of x).scale - (i + 1 : ℕ)) := by
    rw [hshortest, Decimal.toRat_trim, Decimal.toRat]
  have hunit := ten_zpow_pos ((Neighbourhood.of x).scale - (i + 1 : ℕ))
  obtain ⟨hpoint, hpoint'⟩ := Decimal.pointPosition_spec (x.coefficient_shortest_pos hz tie)
  rw [hrat] at hpoint hpoint'
  obtain ⟨hfirst, hlast⟩ := ten_zpow_grid (Neighbourhood.of x).scale i
  refine ⟨by rwa [hrat], ?_, ?_, ?_⟩
  · have hdigits := Decimal.length_digits_trim_le (k := i + 1) (Nat.succ_pos i)
      (show (⟨n, (Neighbourhood.of x).scale - (i + 1 : ℕ)⟩ : Decimal).coefficient ≤ _ by
        dsimp only
        omega)
    rw [hshortest]
    omega
  · have hn : ((10 ^ i : ℕ) : ℚ) ≤ n := by exact_mod_cast (by omega : 10 ^ i ≤ n)
    have hge := mul_le_mul_of_nonneg_right hn hunit.le
    rw [← hfirst] at hge
    have := (zpow_lt_zpow_iff_right₀ (by norm_num)).1 (hge.trans_lt hpoint')
    omega
  · have hn : (n : ℚ) ≤ (10 ^ (i + 1) : ℕ) := by exact_mod_cast (by omega : n ≤ 10 ^ (i + 1))
    have hle := mul_le_mul_of_nonneg_right hn hunit.le
    rw [← hlast] at hle
    have := (zpow_le_zpow_iff_right₀ (by norm_num)).1 (hpoint.trans hle)
    omega

/-- **The two ways to break ties.** -/
theorem shortest_ties {x : Double} (hz : x.isZero = false) :
    (x.shortest .away).toRat = (x.shortest .even).toRat ∨
      ∃ (n : ℕ) (e : ℤ), n % 2 = 0 ∧ x.absValue = (n + 1 / 2) * 10 ^ e ∧
        (x.shortest .away).toRat = (n + 1) * 10 ^ e ∧ (x.shortest .even).toRat = n * 10 ^ e := by
  obtain ⟨i, n, m, -, hn, hm, haway, heven⟩ := exists_points hz .away .even
  rw [haway, heven, Decimal.toRat_trim, Decimal.toRat_trim, Decimal.toRat, Decimal.toRat]
  rcases Grid.point?_ties hn hm with rfl | ⟨rfl, hmod, htie⟩
  · exact Or.inl rfl
  · refine Or.inr ⟨m, _, hmod, ?_, ?_, rfl⟩
    · obtain ⟨u, hu, -, hvalue, -, hstep⟩ :=
        Neighbourhood.grid_spec hz ((Neighbourhood.of x).scale - (i + 1 : ℕ))
      rw [← Nat.cast_inj (R := ℚ)] at htie
      push_cast at htie hstep hvalue
      rw [hstep, hvalue] at htie
      have hcancel : 2 * x.absValue * u =
          (2 * m + 1) * 10 ^ ((Neighbourhood.of x).scale - (i + 1 : ℕ)) * u := by
        push_cast
        linarith
      have := mul_right_cancel₀ hu.ne' hcancel
      linarith
    · push_cast
      rfl

end Double

end CallCapture
