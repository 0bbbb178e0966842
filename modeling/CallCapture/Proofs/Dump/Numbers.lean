import CallCapture.Proofs.Double.Reading
import CallCapture.Proofs.Dump.Rendering
import CallCapture.Proofs.Json.Sketches

/-!
# The texts of doubles name their numbers

A finite double has two texts, one in the dump and one in the serialized form.  Both are written
with a power of ten for the same numbers, both are read back as decimals that round to the double,
and the text in the dump has at most 24 characters (`Dump.float_text_names`).

The two decimals are the same number unless the double lies exactly half way between two decimals
with the fewest digits, the smaller of them even.  Then the dump has the larger one and the
serialized form the smaller (`Dump.float_texts_differ`), and both still round to the double.
-/

namespace CallCapture

open Json.Reader

/-! ## The two forms of a text -/

/-- A sign or none, digits, and digits behind a point if there are any. -/
def IsPlain (text : String) : Prop :=
  ∃ sign whole fraction, text.toList = sign ++ (whole ++ pointed fraction) ∧
    (sign = [] ∨ sign = ['-']) ∧ isDigits whole = true ∧ ∀ c ∈ fraction, c.isDigit = true

/-- A sign or none, one digit, digits behind a point if there are any, and a power of ten. -/
def IsScientific (text : String) : Prop :=
  ∃ sign first fraction powerSign power,
    text.toList = sign ++ first :: (pointed fraction ++ 'e' :: (powerSign ++ power)) ∧
    (sign = [] ∨ sign = ['-']) ∧ first.isDigit = true ∧ (∀ c ∈ fraction, c.isDigit = true) ∧
    (powerSign = [] ∨ powerSign = ['+'] ∨ powerSign = ['-']) ∧ isDigits power = true

/-- The mark of a power tells the two forms apart. -/
theorem IsPlain.not_isScientific {text : String} (h : IsPlain text) : ¬IsScientific text := by
  obtain ⟨sign, whole, fraction, htext, hsign, hwhole, hfraction⟩ := h
  rintro ⟨sign', first, fraction', powerSign, power, htext', -⟩
  have hmark : 'e' ∈ sign ++ (whole ++ pointed fraction) := by
    rw [← htext, htext']
    simp
  have hpointed : 'e' ∉ pointed fraction := by
    intro he
    unfold pointed at he
    split at he
    · exact absurd he List.not_mem_nil
    · rcases List.mem_cons.1 he with he | he
      · exact absurd he (by decide)
      · exact absurd (hfraction 'e' he) (by decide)
  rcases List.mem_append.1 hmark with he | he
  · rcases hsign with rfl | rfl
    · exact absurd he List.not_mem_nil
    · exact absurd he (by decide)
  · rcases List.mem_append.1 he with he | he
    · exact absurd ((isDigits_iff.1 hwhole).2 'e' he) (by decide)
    · exact hpointed he

namespace Layout

theorem sign_cases (negative : Bool) :
    (if negative then ['-'] else []) = [] ∨ (if negative then ['-'] else []) = ['-'] := by
  cases negative with
  | false => exact Or.inl rfl
  | true => exact Or.inr rfl

theorem isPlain_text {l : Layout} (hl : l.Readable) {x : Double} (hx : x.isFinite = true)
    (h : l.usesPower x = false) : IsPlain (l.text x) := by
  obtain ⟨zeros, hzeros⟩ := hl.whole
  obtain ⟨whole, fraction, htext, hwhole, hfraction, -⟩ :=
    (x.shortest l.tie).positional_parts hzeros
  refine ⟨_, whole, fraction, ?_, sign_cases x.negative, hwhole, hfraction⟩
  rw [l.toList_text hx, unsignedText, h, ← htext]
  rfl

theorem isScientific_text {l : Layout} (hl : l.Readable) {x : Double} (hx : x.isFinite = true)
    (h : l.usesPower x = true) : IsScientific (l.text x) := by
  obtain ⟨first, fraction, htext, hfirst, hfraction, -⟩ :=
    (x.shortest l.tie).scientific_parts l.plus
  refine ⟨_, first, fraction,
    if (x.shortest l.tie).pointPosition - 1 < 0 then ['-'] else l.plus.toList,
    Nat.toDigits 10 ((x.shortest l.tie).pointPosition - 1).natAbs, ?_, sign_cases x.negative,
    hfirst, hfraction, ?_, isDigits_toDigits _⟩
  · rw [l.toList_text hx, unsignedText, h, ← htext]
    rfl
  · split
    · exact Or.inr (Or.inr rfl)
    · rcases hl.plus with hplus | hplus
      · exact Or.inl (by rw [hplus]; rfl)
      · exact Or.inr (Or.inl (by rw [hplus]; rfl))

/-- A text has a power of ten exactly if the layout says so. -/
theorem isScientific_text_iff {l : Layout} (hl : l.Readable) {x : Double}
    (hx : x.isFinite = true) : IsScientific (l.text x) ↔ l.usesPower x = true := by
  refine ⟨fun h => ?_, isScientific_text hl hx⟩
  by_contra hpower
  exact (isPlain_text hl hx (Bool.eq_false_iff.2 hpower)).not_isScientific h

/-- A text is plain exactly if the layout does not ask for a power of ten. -/
theorem isPlain_text_iff {l : Layout} (hl : l.Readable) {x : Double} (hx : x.isFinite = true) :
    IsPlain (l.text x) ↔ ¬l.usesPower x = true := by
  refine ⟨fun h hpower => h.not_isScientific (isScientific_text hl hx hpower), fun hpower => ?_⟩
  exact isPlain_text hl hx (Bool.eq_false_iff.2 hpower)

/-- Comparing magnitudes is comparing absolute values. -/
theorem usesPower_iff (l : Layout) (x : Double) :
    l.usesPower x = true ↔ x.isZero = false ∧
      (x.absValue < l.plainFrom.absValue ∨ l.plainBelow.absValue ≤ x.absValue) := by
  rw [usesPower, Bool.and_eq_true, Bool.not_eq_true', Bool.or_eq_true, decide_eq_true_iff,
    decide_eq_true_iff, Double.absValue_lt_iff, ← not_lt (a := x.absValue), Double.absValue_lt_iff,
    not_lt]

end Layout

/-! ## What a text says -/

/-- The number is not zero, and below the double `1e-5` or at least `1e16`. -/
def Double.BeyondPlain (x : Double) : Prop :=
  x.isZero = false ∧ (x.absValue < (SignedDecimal.toDouble ⟨false, ⟨1, -5⟩⟩).absValue ∨
    10 ^ 16 ≤ x.absValue)

/-- The text names the number by a decimal. -/
structure Names (text : String) (x : Double) (d : Decimal) : Prop where
  /-- Very small and very large numbers have a power of ten. -/
  isScientific_iff : IsScientific text ↔ x.BeyondPlain
  /-- All others have none. -/
  isPlain_iff : IsPlain text ↔ ¬x.BeyondPlain
  /-- The text is read as the decimal with the sign of the number. -/
  read : SignedDecimal.read text = some ⟨x.negative, d⟩
  /-- The number is the nearest to the decimal, with ties to even. -/
  isNearest : Double.IsNearest d.toRat x
  /-- Rounding gives back the number, bit for bit. -/
  toDouble : (⟨x.negative, d⟩ : SignedDecimal).toDouble = x

/-- Powers of ten are written below the double `1e-5` and from `1e16` on. -/
structure Layout.Conventional (l : Layout) : Prop extends l.Readable where
  plainFrom : l.plainFrom = SignedDecimal.toDouble ⟨false, ⟨1, -5⟩⟩
  plainBelow : l.plainBelow.absValue = 10 ^ 16

theorem absValue_plainBelow : (⟨0x4341C37937E08000⟩ : Double).absValue = 10 ^ 16 := by
  have hs : (⟨0x4341C37937E08000⟩ : Double).significand = 0x11C37937E08000 := by decide
  have he : (⟨0x4341C37937E08000⟩ : Double).exponent = 1 := by decide
  rw [Double.absValue, hs, he]
  norm_num

theorem ten_zpow_le_plainFrom : (10 : ℚ) ^ (-5 : ℤ) ≤ (⟨0x3EE4F8B588E368F1⟩ : Double).absValue := by
  have hs : (⟨0x3EE4F8B588E368F1⟩ : Double).significand = 0x14F8B588E368F1 := by decide
  have he : (⟨0x3EE4F8B588E368F1⟩ : Double).exponent = -69 := by decide
  rw [Double.absValue, hs, he]
  norm_num

theorem toDouble_plainFrom :
    (⟨0x3EE4F8B588E368F1⟩ : Double) = SignedDecimal.toDouble ⟨false, ⟨1, -5⟩⟩ := by
  decide +kernel

namespace Layout

/-- **Every finite number is named by its text.** -/
theorem Conventional.names {l : Layout} (hl : l.Conventional) {x : Double}
    (hx : x.isFinite = true) :
    ∃ d : Decimal, Names (l.text x) x d ∧ d.toRat = (x.shortest l.tie).toRat := by
  obtain ⟨d, hread, hvalue⟩ := read_text hl.toReadable hx
  have hcovers : x.Covers d.toRat := hvalue ▸ x.covers_shortest l.tie
  have hpower : l.usesPower x = true ↔ x.BeyondPlain := by
    rw [usesPower_iff, hl.plainFrom, hl.plainBelow, Double.BeyondPlain]
  have hzero : x.isZero = true → d.coefficient = 0 := by
    intro hz
    have hrat : d.toRat = 0 := by
      rw [hvalue, Double.shortest, hz, if_pos rfl, Decimal.toRat, Nat.cast_zero, zero_mul]
    rw [Decimal.toRat, mul_eq_zero, or_iff_left (ten_zpow_pos _).ne'] at hrat
    exact_mod_cast hrat
  refine ⟨d, ⟨?_, ?_, hread, hcovers.isNearest, hcovers.toDouble_eq hx hzero⟩, hvalue⟩
  · rw [← hpower, isScientific_text_iff hl.toReadable hx]
  · rw [← hpower, isPlain_text_iff hl.toReadable hx]

end Layout

/-- Whole numbers have no point in the dump, and powers no plus. -/
theorem Dump.conventional_number : Dump.number.Conventional where
  whole := ⟨0, rfl⟩
  plus := Or.inl rfl
  plainFrom := toDouble_plainFrom
  plainBelow := absValue_plainBelow

/-- In the serialized form they have both. -/
theorem Json.conventional_double : Json.double.Conventional where
  whole := ⟨1, rfl⟩
  plus := Or.inr rfl
  plainFrom := toDouble_plainFrom
  plainBelow := absValue_plainBelow

/-! ## How long a text is -/

namespace Double

/-- A bound on the number above bounds the digits before the point, and one below the zeros behind
it. -/
theorem pointPosition_shortest_bounds {x : Double} (hz : x.isZero = false) (tie : Tie) {j k : ℤ}
    (hlow : (10 : ℚ) ^ j ≤ x.absValue) (hhigh : x.absValue < 10 ^ k) :
    j < (x.shortest tie).pointPosition ∧ (x.shortest tie).pointPosition ≤ k + 1 := by
  obtain ⟨-, -, hge, hle⟩ := shortest_spec hz tie
  obtain ⟨hscale, hscale'⟩ := Neighbourhood.scale_spec hz
  have hj := (zpow_lt_zpow_iff_right₀ (by norm_num)).1 (hlow.trans_lt hscale')
  have hk := (zpow_lt_zpow_iff_right₀ (by norm_num)).1 (hscale.trans_lt hhigh)
  omega

/-- Three binary digits are less than a decimal one. -/
theorem two_zpow_le_ten_zpow (k : ℕ) : (2 : ℚ) ^ (3 * k : ℤ) ≤ 10 ^ (k : ℤ) := by
  rw [zpow_mul, zpow_natCast, zpow_natCast]
  exact pow_le_pow_left₀ (by norm_num) (by norm_num) k

theorem absValue_bounds {x : Double} (hx : x.isFinite = true) (hz : x.isZero = false) :
    (10 : ℚ) ^ (-358 : ℤ) ≤ x.absValue ∧ x.absValue < 10 ^ (342 : ℤ) := by
  have hpos := two_zpow_pos x.exponent
  constructor
  · have hs : (1 : ℚ) ≤ x.significand := by exact_mod_cast significand_pos hz
    calc (10 : ℚ) ^ (-358 : ℤ)
      _ = (10 ^ (358 : ℤ))⁻¹ := zpow_neg _ _
      _ ≤ (2 ^ (1074 : ℤ))⁻¹ := inv_anti₀ (two_zpow_pos _) (two_zpow_le_ten_zpow 358)
      _ = 2 ^ (-1074 : ℤ) := (zpow_neg _ _).symm
      _ ≤ 2 ^ x.exponent := two_zpow_le x.le_exponent
      _ ≤ x.absValue := le_mul_of_one_le_left hpos.le hs
  · have hs : (x.significand : ℚ) < 2 ^ (53 : ℤ) := by
      exact_mod_cast x.significand_lt
    calc x.absValue
      _ < 2 ^ (53 : ℤ) * 2 ^ x.exponent := mul_lt_mul_of_pos_right hs hpos
      _ = 2 ^ (53 + x.exponent) := (zpow_add₀ (by norm_num) _ _).symm
      _ ≤ 2 ^ (1026 : ℤ) := two_zpow_le (by linarith [exponent_le hx])
      _ ≤ 10 ^ (342 : ℤ) := two_zpow_le_ten_zpow 342

end Double

namespace Decimal

theorem length_positional_le {d : Decimal} (hdigits : d.digits.length ≤ 17)
    (hlow : -5 < d.pointPosition) (hhigh : d.pointPosition ≤ 17) :
    (d.positional "").length ≤ 23 := by
  unfold positional
  dsimp only
  split
  · simp only [List.length_cons, List.length_append, List.length_replicate]
    omega
  · split
    · simp only [List.length_append, List.length_replicate, String.toList_empty, List.length_nil]
      omega
    · simp only [List.length_append, List.length_cons, List.length_take, List.length_drop]
      omega

theorem length_scientific_le {d : Decimal} (hdigits : d.digits.length ≤ 17)
    (hpower : (d.pointPosition - 1).natAbs < 1000) : (d.scientific "").length ≤ 23 := by
  have hlength : (Nat.toDigits 10 (d.pointPosition - 1).natAbs).length ≤ 3 :=
    (Nat.length_toDigits_le_iff (by decide) (by decide)).2 hpower
  have hsign : (if d.pointPosition - 1 < 0 then ['-'] else "".toList).length ≤ 1 := by
    split
    · exact Nat.le_refl 1
    · exact Nat.zero_le 1
  have hfraction : (if d.digits.length ≤ 1 then [] else '.' :: d.digits.drop 1).length ≤ 17 := by
    split
    · exact Nat.zero_le 17
    · rw [List.length_cons, List.length_drop]
      omega
  unfold scientific
  simp only [List.length_append, List.length_cons, List.length_take]
  omega

end Decimal

namespace Dump

theorem length_unsignedText_le {x : Double} (hx : x.isFinite = true) :
    (number.unsignedText x).length ≤ 23 := by
  cases hz : x.isZero with
  | true =>
    rw [Layout.unsignedText, Layout.usesPower, Double.shortest, hz, if_neg (by simp), if_pos rfl]
    decide
  | false =>
    obtain ⟨-, hdigits, -⟩ := Double.shortest_spec hz number.tie
    unfold Layout.unsignedText
    split
    · obtain ⟨hlow, hhigh⟩ := Double.absValue_bounds hx hz
      have hpoint := Double.pointPosition_shortest_bounds hz number.tie hlow hhigh
      exact Decimal.length_scientific_le hdigits (by omega)
    · next hplain =>
      rw [Layout.usesPower_iff, not_and, not_or, not_lt, not_le] at hplain
      obtain ⟨hlow, hhigh⟩ := hplain hz
      rw [conventional_number.plainBelow] at hhigh
      have hpoint := Double.pointPosition_shortest_bounds hz number.tie
        (ten_zpow_le_plainFrom.trans hlow) (k := 16) (by exact_mod_cast hhigh)
      exact Decimal.length_positional_le hdigits hpoint.1 hpoint.2

/-- A sign and 23 characters. -/
theorem length_number_text_le {x : Double} (hx : x.isFinite = true) :
    (number.text x).length ≤ 24 := by
  have hlength := length_unsignedText_le hx
  rw [← String.length_toList, number.toList_text hx, List.length_append]
  cases x.negative with
  | false => exact Nat.le_succ_of_le ((Nat.zero_add _).trans_le hlength)
  | true => exact (Nat.add_comm _ _).trans_le (Nat.succ_le_succ hlength)

/-! ## The dump and the serialized form -/

/-- What the two texts of a number are and say. -/
structure FloatTexts (x : Double) (text literal : String) (d j : Decimal) : Prop where
  /-- The dump is the text, whatever is left out of arrays. -/
  dumped : ∀ o, (Value.float x).dumpWith o = text
  /-- The serialized form holds the literal. -/
  serialized : Json.read (Value.float x).json.text =
    some (.tagged .float [("value", .number literal)])
  text_names : Names text x d
  literal_names : Names literal x j
  length_text_le : text.length ≤ 24
  /-- The decimals denote the same number, or the number lies half way between two decimals, of
  which the dump has the upper one and the literal the lower and even one. -/
  same_or_tie : d.toRat = j.toRat ∨ ∃ (n : ℕ) (e : ℤ), n % 2 = 0 ∧
    x.absValue = (n + 1 / 2) * 10 ^ e ∧ d.toRat = (n + 1) * 10 ^ e ∧ j.toRat = n * 10 ^ e

/-- **Float text names the number**, and the same number in the dump and in the serialized form
but for ties. -/
theorem float_text_names {x : Double} (hx : x.isFinite = true) :
    ∃ text literal d j, FloatTexts x text literal d j := by
  obtain ⟨d, hd, hdvalue⟩ := conventional_number.names hx
  obtain ⟨j, hj, hjvalue⟩ := Json.conventional_double.names hx
  refine ⟨number.text x, Json.double.text x, d, j, ?_, ?_, hd, hj, length_number_text_le hx, ?_⟩
  · intro o
    rw [dumpWith_eq_text, text]
  · rw [Json.read_text (Value.wellFormed_json _), Value.json, Json.ofDouble, if_pos hx]
  · rw [hdvalue, hjvalue]
    cases hz : x.isZero with
    | true => exact Or.inl (by rw [Double.shortest, Double.shortest, hz]; rfl)
    | false => exact Double.shortest_ties hz

/-- The negative number next to zero. -/
theorem float_text_names_least : (⟨0x8000000000000001⟩ : Double).isFinite = true ∧
    ∃ literal d j, FloatTexts ⟨0x8000000000000001⟩ "-5e-324" literal d j := by
  obtain ⟨text, literal, d, j, h⟩ := float_text_names (x := ⟨0x8000000000000001⟩) (by decide)
  have htext : text = "-5e-324" := by
    rw [← h.dumped .canonical, dumpWith_eq_text]
    decide +kernel
  exact ⟨by decide, literal, d, j, htext ▸ h⟩

/-- **A tie**: the double `2 ^ -25` lies half way between two decimals of seventeen digits, and the
dump and the serialized form denote different ones. -/
theorem float_texts_differ :
    (Value.float ⟨0x3E60000000000000⟩).dump = "2.9802322387695313e-8" ∧
    Json.read (Value.float ⟨0x3E60000000000000⟩).json.text =
      some (.tagged .float [("value", .number "2.9802322387695312e-8")]) ∧
    SignedDecimal.read "2.9802322387695313e-8" = some ⟨false, ⟨29802322387695313, -24⟩⟩ ∧
    SignedDecimal.read "2.9802322387695312e-8" = some ⟨false, ⟨29802322387695312, -24⟩⟩ ∧
    (⟨29802322387695313, -24⟩ : Decimal).toRat ≠ (⟨29802322387695312, -24⟩ : Decimal).toRat := by
  refine ⟨?_, ?_, by decide +kernel, by decide +kernel, ?_⟩
  · rw [Value.dump, dumpWith_eq_text]
    decide +kernel
  · rw [Json.read_text (Value.wellFormed_json _), Value.json, Json.ofDouble, if_pos (by decide)]
    have hliteral : Json.double.text ⟨0x3E60000000000000⟩ = "2.9802322387695312e-8" := by
      decide +kernel
    rw [hliteral]
  · norm_num [Decimal.toRat]

end Dump

end CallCapture
