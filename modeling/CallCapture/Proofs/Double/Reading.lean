import CallCapture.Proofs.Double.Digits
import CallCapture.Proofs.Double.Rounding
import CallCapture.Proofs.Json.Numbers

/-!
# Reading the text of a double

The text of a finite number is a sign, digits before the point, digits behind it if there are any,
and in one of the two forms a power of ten.  `Decimal.positional_parts` and
`Decimal.scientific_parts` take the two forms apart and say what the digits denote;
`SignedDecimal.readUnsigned_parts` reads any text made of such parts.  Together they say that
reading gives back the decimal that was written, up to zeros at its end
(`Layout.read_text`).

The decimal is covered by the number, so rounding gives back the number with all its bits
(`Double.Covers.toDouble_eq`).
-/

namespace CallCapture

open Json.Reader

/-! ## Digits and powers -/

/-- Digits behind a point, if there are any. -/
def pointed (fraction : List Char) : List Char :=
  if fraction.isEmpty then [] else '.' :: fraction

theorem readDigits_eq {cs : List Char} (h : isDigits cs = true) :
    readDigits cs = some (Nat.ofDigitChars 10 cs 0) :=
  if_pos h

namespace SignedDecimal

/-- A power is nothing or begins with its mark. -/
theorem head?_of_readPower {cs : List Char} {power : ℤ} (h : readPower cs = some power) {c : Char}
    (hc : cs.head? = some c) : c = 'e' := by
  cases cs with
  | nil => exact nomatch hc
  | cons e cs =>
    rw [← Option.some.inj hc]
    by_contra hne
    have hnone : readPower (e :: cs) = none := by
      unfold readPower
      split
      all_goals simp_all
    rw [hnone] at h
    exact nomatch h

/-- The power of ten that is written is read. -/
theorem readPower_mark {plus : String} (hplus : plus = "" ∨ plus = "+") (power : ℤ) :
    readPower ('e' :: ((if power < 0 then ['-'] else plus.toList) ++
      Nat.toDigits 10 power.natAbs)) = some power := by
  have hdigits := isDigits_toDigits power.natAbs
  have hread := readDigits_toDigits power.natAbs
  split
  · show (readDigits (Nat.toDigits 10 power.natAbs)).map _ = _
    rw [hread, Option.map_some]
    congr 1
    omega
  · have hvalue : Int.ofNat power.natAbs = power := by
      rw [Int.ofNat_eq_natCast]
      omega
    rcases hplus with rfl | rfl
    · -- digits do not begin with a sign
      show readPower ('e' :: Nat.toDigits 10 power.natAbs) = _
      obtain ⟨hne, hall⟩ := isDigits_iff.1 hdigits
      rw [readPower, hread, Option.map_some, hvalue]
      · rintro cs hcs
        exact absurd (hall '+' (hcs ▸ List.mem_cons_self)) (by decide)
      · rintro cs hcs
        exact absurd (hall '-' (hcs ▸ List.mem_cons_self)) (by decide)
    · show (readDigits (Nat.toDigits 10 power.natAbs)).map _ = _
      rw [hread, Option.map_some, hvalue]

/-- **A text from its parts** is read. -/
theorem readUnsigned_parts {whole fraction text : List Char} {power : ℤ}
    (hwhole : isDigits whole = true) (hfraction : ∀ c ∈ fraction, c.isDigit = true)
    (hpower : readPower text = some power) :
    readUnsigned (whole ++ (pointed fraction ++ text)) =
      some ⟨Nat.ofDigitChars 10 (whole ++ fraction) 0, power - fraction.length⟩ := by
  obtain ⟨hne, hall⟩ := isDigits_iff.1 hwhole
  have htext : NoneFirst Char.isDigit text := by
    intro c hc
    rw [head?_of_readPower hpower hc]
    rfl
  have hdigits : isDigits (whole ++ fraction) = true :=
    isDigits_iff.2 ⟨List.append_ne_nil_of_left_ne_nil hne _,
      List.forall_mem_append.2 ⟨hall, hfraction⟩⟩
  cases fraction with
  | nil =>
    show readUnsigned (whole ++ text) = _
    have hread : readUnsigned (whole ++ text) =
        (readPower text).bind fun power => (readDigits whole).bind fun n => some ⟨n, power⟩ := by
      unfold readUnsigned
      dsimp only
      rw [takeWhile_append hall htext, dropWhile_append hall htext]
      split
      · exact absurd (head?_of_readPower hpower rfl) (by decide)
      · rfl
    rw [hread, hpower, readDigits_eq hwhole, List.append_nil]
    simp
  | cons c cs =>
    have hpoint : NoneFirst Char.isDigit ('.' :: ((c :: cs) ++ text)) := noneFirst_cons rfl _
    have hread : readUnsigned (whole ++ '.' :: ((c :: cs) ++ text)) =
        (readPower (((c :: cs) ++ text).dropWhile Char.isDigit)).bind fun power =>
          (readDigits (whole ++ ((c :: cs) ++ text).takeWhile Char.isDigit)).bind fun n =>
            some ⟨n, power - (((c :: cs) ++ text).takeWhile Char.isDigit).length⟩ := by
      unfold readUnsigned
      dsimp only
      rw [takeWhile_append hall hpoint, dropWhile_append hall hpoint]
      rfl
    rw [takeWhile_append hfraction htext, dropWhile_append hfraction htext, hpower,
      readDigits_eq hdigits] at hread
    exact hread

end SignedDecimal

/-! ## The two forms -/

namespace Decimal

theorem isDigits_digits (d : Decimal) : isDigits d.digits = true :=
  isDigits_toDigits d.coefficient

theorem ofDigitChars_digits (d : Decimal) : Nat.ofDigitChars 10 d.digits 0 = d.coefficient :=
  Nat.ofDigitChars_toDigits (by decide) (by decide)

theorem isDigit_of_mem_zeros {k : ℕ} : ∀ c ∈ List.replicate k '0', c.isDigit = true := by
  intro c hc
  rw [List.eq_of_mem_replicate hc]
  rfl

/-- Zeros before the digits do not count. -/
theorem ofDigitChars_zeros_digits (d : Decimal) (k : ℕ) :
    Nat.ofDigitChars 10 (List.replicate k '0' ++ d.digits) 0 = d.coefficient := by
  rw [Nat.ofDigitChars_append, Nat.ofDigitChars_replicate_zero, Nat.mul_zero, ofDigitChars_digits]

/-- Zeros behind the digits are powers of ten. -/
theorem ofDigitChars_digits_zeros (d : Decimal) (k : ℕ) :
    Nat.ofDigitChars 10 (d.digits ++ List.replicate k '0') 0 = 10 ^ k * d.coefficient := by
  rw [Nat.ofDigitChars_append, Nat.ofDigitChars_replicate_zero, ofDigitChars_digits]

/-- **The parts of a positional text**, for an ending of zeros behind a point. -/
theorem positional_parts {ending : String} {zeros : ℕ}
    (hending : ending.toList = pointed (List.replicate zeros '0')) (d : Decimal) :
    ∃ whole fraction, d.positional ending = whole ++ pointed fraction ∧ isDigits whole = true ∧
      (∀ c ∈ fraction, c.isDigit = true) ∧
      (⟨Nat.ofDigitChars 10 (whole ++ fraction) 0, 0 - fraction.length⟩ : Decimal).toRat =
        d.toRat := by
  obtain ⟨hne, hall⟩ := isDigits_iff.1 d.isDigits_digits
  have hpoint : d.pointPosition = d.digits.length + d.exponent := rfl
  unfold positional
  dsimp only
  split
  · -- the digits stand behind the point and zeros
    next hle =>
    refine ⟨['0'], List.replicate (-d.pointPosition).toNat '0' ++ d.digits, ?_, rfl, ?_, ?_⟩
    · rw [pointed, if_neg (by simp [hne])]
      rfl
    · exact List.forall_mem_append.2 ⟨isDigit_of_mem_zeros, hall⟩
    · have hvalue := d.ofDigitChars_zeros_digits ((-d.pointPosition).toNat + 1)
      rw [List.replicate_succ] at hvalue
      rw [toRat, toRat, List.length_append, List.length_replicate]
      show ((Nat.ofDigitChars 10 _ 0 : ℕ) : ℚ) * _ = _
      rw [List.singleton_append, ← List.cons_append, hvalue]
      dsimp only
      congr 2
      omega
  · split
    · -- the digits and zeros stand before the point
      next hlt hle =>
      refine ⟨d.digits ++ List.replicate (d.pointPosition.toNat - d.digits.length) '0',
        List.replicate zeros '0', by rw [hending], ?_, isDigit_of_mem_zeros, ?_⟩
      · exact isDigits_iff.2 ⟨List.append_ne_nil_of_left_ne_nil hne _,
          List.forall_mem_append.2 ⟨hall, isDigit_of_mem_zeros⟩⟩
      · rw [toRat, toRat, List.append_assoc, List.replicate_append_replicate,
          ofDigitChars_digits_zeros, List.length_replicate]
        push_cast
        rw [mul_right_comm, mul_comm, ← zpow_natCast, ← zpow_add₀ (by norm_num)]
        congr 2
        push_cast
        omega
    · -- the point stands between the digits
      next hlt hlt' =>
      refine ⟨d.digits.take d.pointPosition.toNat, d.digits.drop d.pointPosition.toNat, ?_, ?_, ?_, ?_⟩
      · rw [pointed, if_neg (by simp; omega)]
      · refine isDigits_iff.2 ⟨?_, fun c hc => hall c (List.mem_of_mem_take hc)⟩
        simp only [ne_eq, List.take_eq_nil_iff, not_or]
        exact ⟨by omega, hne⟩
      · exact fun c hc => hall c (List.mem_of_mem_drop hc)
      · rw [toRat, toRat, List.take_append_drop, ofDigitChars_digits, List.length_drop]
        dsimp only
        congr 2
        omega

/-- **The parts of a text with a power of ten.** -/
theorem scientific_parts (plus : String) (d : Decimal) :
    ∃ first fraction, d.scientific plus = first :: (pointed fraction ++ 'e' ::
        ((if d.pointPosition - 1 < 0 then ['-'] else plus.toList) ++
          Nat.toDigits 10 (d.pointPosition - 1).natAbs)) ∧
      first.isDigit = true ∧ (∀ c ∈ fraction, c.isDigit = true) ∧
      (⟨Nat.ofDigitChars 10 (first :: fraction) 0,
        d.pointPosition - 1 - fraction.length⟩ : Decimal) = d := by
  obtain ⟨hne, hall⟩ := isDigits_iff.1 d.isDigits_digits
  have hpoint : d.pointPosition = d.digits.length + d.exponent := rfl
  have hvalue := d.ofDigitChars_digits
  unfold scientific
  dsimp only
  obtain ⟨first, fraction, hdigits⟩ := List.exists_cons_of_ne_nil hne
  rw [hdigits] at hall hpoint hvalue ⊢
  refine ⟨first, fraction, ?_, hall first List.mem_cons_self,
    fun c hc => hall c (List.mem_cons_of_mem _ hc), ?_⟩
  · cases fraction with
    | nil => rfl
    | cons c cs => rfl
  · rw [hvalue]
    congr 1
    rw [hpoint, List.length_cons]
    push_cast
    omega

end Decimal

/-! ## Reading back -/

theorem SignedDecimal.readUnsigned_minus (cs : List Char) : readUnsigned ('-' :: cs) = none :=
  rfl

/-- The sign is read apart. -/
theorem SignedDecimal.read_signed {negative : Bool} {text : String} {cs : List Char}
    (htext : text.toList = (if negative then ['-'] else []) ++ cs) {d : Decimal}
    (h : readUnsigned cs = some d) : read text = some ⟨negative, d⟩ := by
  unfold read
  cases negative with
  | true =>
    rw [htext]
    show (readUnsigned cs).map _ = _
    rw [h]
    rfl
  | false =>
    change text.toList = cs at htext
    rw [htext]
    split
    · -- without a sign of its own, what is read has none
      rw [readUnsigned_minus] at h
      exact nomatch h
    · rw [h]
      rfl

/-- What the text of a layout looks like where it has a choice: zeros behind a point may follow
whole numbers, and a plus may stand before powers. -/
structure Layout.Readable (l : Layout) : Prop where
  whole : ∃ zeros, l.whole.toList = pointed (List.replicate zeros '0')
  plus : l.plus = "" ∨ l.plus = "+"

namespace Layout

theorem toList_text (l : Layout) {x : Double} (hx : x.isFinite = true) :
    (l.text x).toList = (if x.negative then ['-'] else []) ++ l.unsignedText x := by
  rw [Double.isFinite_eq, Bool.and_eq_true, Bool.not_eq_true', Bool.not_eq_true'] at hx
  rw [text, hx.1, hx.2]
  exact String.toList_ofList

/-- **Reading gives back the decimal that was written**, up to zeros at its end. -/
theorem read_text {l : Layout} (hl : l.Readable) {x : Double} (hx : x.isFinite = true) :
    ∃ d : Decimal, SignedDecimal.read (l.text x) = some ⟨x.negative, d⟩ ∧
      d.toRat = (x.shortest l.tie).toRat := by
  have hunsigned : ∃ d : Decimal, SignedDecimal.readUnsigned (l.unsignedText x) = some d ∧
      d.toRat = (x.shortest l.tie).toRat := by
    unfold unsignedText
    split
    · obtain ⟨first, fraction, htext, hfirst, hfraction, hvalue⟩ :=
        (x.shortest l.tie).scientific_parts l.plus
      have hwhole : isDigits [first] = true := isDigits_iff.2 ⟨by simp, by simpa using hfirst⟩
      have hread := SignedDecimal.readUnsigned_parts hwhole hfraction
        (SignedDecimal.readPower_mark hl.plus ((x.shortest l.tie).pointPosition - 1))
      rw [List.singleton_append, List.singleton_append, ← htext, hvalue] at hread
      exact ⟨_, hread, rfl⟩
    · obtain ⟨zeros, hzeros⟩ := hl.whole
      obtain ⟨whole, fraction, htext, hwhole, hfraction, hvalue⟩ :=
        (x.shortest l.tie).positional_parts hzeros
      have hread := SignedDecimal.readUnsigned_parts hwhole hfraction
        (show SignedDecimal.readPower [] = some 0 from rfl)
      rw [List.append_nil, ← htext] at hread
      exact ⟨_, hread, hvalue⟩
  obtain ⟨d, hread, hvalue⟩ := hunsigned
  exact ⟨d, SignedDecimal.read_signed (l.toList_text hx) hread, hvalue⟩

end Layout

/-! ## Rounding back -/

namespace Double

theorem ofMagnitude_magnitude (x : Double) : ofMagnitude x.negative x.magnitude = x := by
  have hbits := x.toNat_bits
  have hlt := x.magnitude_lt
  rw [ofMagnitude, Nat.mod_eq_of_lt hlt, ← hbits, UInt64.ofNat_toNat]

/-- Also zero covers the decimal that is written for it. -/
theorem covers_shortest (x : Double) (tie : Tie) : x.Covers (x.shortest tie).toRat := by
  cases hz : x.isZero with
  | false => exact (shortest_spec hz tie).1
  | true =>
    have hm : x.magnitude = 0 := of_decide_eq_true hz
    have hs : x.significand = 0 := by
      have := x.magnitude_eq
      have := x.le_exponent
      omega
    have hvalue : x.absValue = 0 := by rw [absValue, hs, Nat.cast_zero, zero_mul]
    have hdecimal : (x.shortest tie).toRat = 0 := by
      rw [shortest, hz, if_pos rfl, Decimal.toRat, Nat.cast_zero, zero_mul]
    have hbelow := x.stepBelow_pos
    have habove := two_zpow_pos x.exponent
    rw [hdecimal]
    exact ⟨by linarith, by linarith, fun _ => by rw [hs]⟩

/-- **Rounding a covered decimal gives back the number**, bit for bit. -/
theorem Covers.toDouble_eq {x : Double} (hx : x.isFinite = true) {d : Decimal}
    (h : x.Covers d.toRat) (hzero : x.isZero = true → d.coefficient = 0) :
    (⟨x.negative, d⟩ : SignedDecimal).toDouble = x := by
  have hmagnitude : d.nearestMagnitude = x.magnitude := by
    cases hz : x.isZero with
    | true =>
      have hm : x.magnitude = 0 := of_decide_eq_true hz
      rw [Decimal.nearestMagnitude, hzero hz, Nat.zero_mul, nearestMagnitude, if_pos rfl, hm]
    | false =>
      have hden := cast_pow_pos (b := 10) (by decide) (-d.exponent).toNat
      have hratio : d.toRat = ((d.coefficient * Nat.pow 10 d.exponent.toNat : ℕ) : ℚ) /
          (Nat.pow 10 (-d.exponent).toNat : ℕ) := by
        rw [Nat.cast_mul, cast_pow_toNat (by decide), ← mul_assoc,
          mul_div_cancel_right₀ _ hden.ne', Decimal.toRat]
        rfl
      rw [hratio] at h
      exact h.nearestMagnitude_eq (by exact_mod_cast hden) hx hz
  rw [SignedDecimal.toDouble, hmagnitude, ofMagnitude_magnitude]

end Double

end CallCapture
