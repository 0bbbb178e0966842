/-!
# Decimal numerals

The decimal text of natural numbers and integers: no leading zeros, no grouping, a minus
sign in front of negative numbers and no plus sign.  Reading undoes writing
(`readNat_natText`, `readInt_intText`).
-/

namespace CallCapture

/-- The decimal numeral of a natural number. -/
def natText (n : Nat) : String :=
  .ofList (Nat.toDigits 10 n)

/-- The decimal numeral of an integer. -/
def intText (n : Int) : String :=
  if n < 0 then "-" ++ natText n.natAbs else natText n.natAbs

/-- The natural number that decimal digits denote. -/
def readDigits (digits : List Char) : Option Nat :=
  if !digits.isEmpty && digits.all Char.isDigit then some (Nat.ofDigitChars 10 digits 0) else none

/-- The natural number of a decimal numeral. -/
def readNat (text : String) : Option Nat :=
  readDigits text.toList

/-- The integer of a decimal numeral. -/
def readInt (text : String) : Option Int :=
  match text.toList with
  | '-' :: digits => (readDigits digits).map fun (n : Nat) => -(n : Int)
  | digits => (readDigits digits).map Int.ofNat

theorem readDigits_toDigits (n : Nat) : readDigits (Nat.toDigits 10 n) = some n := by
  have hd : (Nat.toDigits 10 n).all Char.isDigit = true :=
    List.all_eq_true.2 fun c hc => Nat.isDigit_of_mem_toDigits (by decide) (by decide) hc
  have hne : (Nat.toDigits 10 n).isEmpty = false := by
    have := Nat.length_toDigits_pos (b := 10) (n := n)
    cases h : Nat.toDigits 10 n with
    | nil => simp [h] at this
    | cons => rfl
  simp [readDigits, hd, hne, Nat.ofDigitChars_toDigits]

/-- The numeral of a positive number does not begin with a zero. -/
theorem head?_toDigits_ne_zero {n : Nat} (h : 0 < n) : (Nat.toDigits 10 n).head? ≠ some '0' := by
  induction n using Nat.strongRecOn with
  | ind n ih =>
    by_cases hn : n < 10
    · rw [Nat.toDigits_of_lt_base hn, List.head?_cons]
      intro hzero
      have := Nat.digitChar_eq_zero.1 (Option.some.inj hzero)
      omega
    · have hfirst := ih (n / 10) (by omega) (by omega)
      rw [Nat.toDigits_of_base_le (by decide) (Nat.not_lt.1 hn), List.head?_append]
      cases hdigits : Nat.toDigits 10 (n / 10) with
      | nil => exact absurd hdigits Nat.toDigits_ne_nil
      | cons c cs =>
        rw [hdigits] at hfirst
        exact hfirst

/-- The numeral of a natural number is what the standard printer gives. -/
theorem natText_eq_toString (n : Nat) : natText n = toString n := rfl

/-- The numeral of an integer is what the standard printer gives. -/
theorem intText_eq_toString (n : Int) : intText n = toString n := by
  cases n with
  | ofNat m =>
    rw [intText, if_neg (by simp)]
    rfl
  | negSucc m =>
    rw [intText, if_pos (Int.negSucc_lt_zero m)]
    rfl

theorem readNat_natText (n : Nat) : readNat (natText n) = some n := by
  simp [readNat, natText, readDigits_toDigits]

theorem readInt_intText (n : Int) : readInt (intText n) = some n := by
  by_cases h : n < 0
  · have ht : (intText n).toList = '-' :: Nat.toDigits 10 n.natAbs := by
      simp [intText, h, natText]
    simp only [readInt, ht, readDigits_toDigits, Option.map_some, Option.some.injEq]
    omega
  · have ht : (intText n).toList = Nat.toDigits 10 n.natAbs := by
      simp [intText, h, natText]
    unfold readInt
    split
    · next digits hd =>
      have hm : '-' ∈ Nat.toDigits 10 n.natAbs := ht ▸ hd ▸ List.mem_cons_self
      exact absurd (Nat.isDigit_of_mem_toDigits (by decide) (by decide) hm) (by decide)
    · simp only [ht, readDigits_toDigits, Option.map_some, Option.some.injEq, Int.ofNat_eq_natCast]
      omega

end CallCapture
