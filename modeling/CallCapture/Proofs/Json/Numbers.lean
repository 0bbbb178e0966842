import CallCapture.Double.Text
import CallCapture.Json.Basic

/-!
# Number literals

A literal is a sign, an integer part and a tail, where the tail is a fraction and a power of ten
that may both be missing.  `Json.Reader.isNumber_of_parts` puts a literal together from such
parts.  For the reader two things matter: what a literal begins with
(`Json.Reader.exists_cons_of_isNumber`) and that all of its characters are number characters
(`Json.Reader.isNumberChar_of_mem`), so that it is read as a whole whatever other character
follows it (`Json.Reader.number_append`).

The numerals of captures are such literals.  Integers are written without leading zeros, and so
are finite doubles, in every layout whose ending for whole numbers is the tail of a literal and
whose sign for powers of ten is a plus or nothing (`Json.Reader.isNumber_text`).  The one thing to
see is that a number written with more than one digit before the point does not begin with a zero:
its digits are those of a positive coefficient, unless the number is zero, which has a single
digit.
-/

namespace CallCapture.Json.Reader

/-! ## Runs of characters -/

/-- No character of a kind comes first. -/
def NoneFirst (p : Char → Bool) (cs : List Char) : Prop :=
  ∀ c, cs.head? = some c → p c = false

theorem noneFirst_cons {p : Char → Bool} {c : Char} (h : p c = false) (cs : List Char) :
    NoneFirst p (c :: cs) := by
  intro d hd
  rwa [← Option.some.inj hd]

/-- A run of characters of a kind ends where another character follows. -/
theorem takeWhile_append {p : Char → Bool} {run rest : List Char} (hrun : ∀ c ∈ run, p c = true)
    (hrest : NoneFirst p rest) : (run ++ rest).takeWhile p = run := by
  rw [List.takeWhile_append_of_pos hrun]
  cases rest with
  | nil => exact List.append_nil run
  | cons c rest =>
    have hc : ¬p c = true := Bool.eq_false_iff.1 (hrest c rfl)
    rw [List.takeWhile_cons_of_neg hc, List.append_nil]

theorem dropWhile_append {p : Char → Bool} {run rest : List Char} (hrun : ∀ c ∈ run, p c = true)
    (hrest : NoneFirst p rest) : (run ++ rest).dropWhile p = rest := by
  rw [List.dropWhile_append_of_pos hrun]
  cases rest with
  | nil => rfl
  | cons c rest =>
    have hc : ¬p c = true := Bool.eq_false_iff.1 (hrest c rfl)
    exact List.dropWhile_cons_of_neg hc

/-! ## Putting literals together -/

theorem isDigits_iff {cs : List Char} :
    isDigits cs = true ↔ cs ≠ [] ∧ ∀ c ∈ cs, c.isDigit = true := by
  simp [isDigits]

/-- Digits are the integer part of a literal if they are one or do not begin with a zero. -/
theorem isWhole_of {cs : List Char} (hdigits : isDigits cs = true)
    (hhead : cs.length = 1 ∨ cs.head? ≠ some '0') : isWhole cs = true := by
  simpa [isWhole, hdigits] using hhead

/-- A power of ten is a mark and digits, with or without a sign between them. -/
theorem isPower_cons {e : Char} {cs : List Char} (h : isPower (e :: cs) = true) :
    (e = 'e' ∨ e = 'E') ∧ ∃ sign digits, cs = sign ++ digits ∧
      (sign = [] ∨ sign = ['+'] ∨ sign = ['-']) ∧ isDigits digits = true := by
  unfold isPower at h
  rw [Bool.and_eq_true, Bool.or_eq_true, decide_eq_true_eq, decide_eq_true_eq] at h
  obtain ⟨he, hdigits⟩ := h
  refine ⟨he, ?_⟩
  split at hdigits
  · next digits => exact ⟨['+'], digits, rfl, Or.inr (Or.inl rfl), hdigits⟩
  · next digits => exact ⟨['-'], digits, rfl, Or.inr (Or.inr rfl), hdigits⟩
  · exact ⟨[], cs, rfl, Or.inl rfl, hdigits⟩

/-- A power is empty or begins with its mark. -/
theorem noneFirst_of_isPower {cs : List Char} (h : isPower cs = true) :
    NoneFirst Char.isDigit cs := by
  cases cs with
  | nil => exact nofun
  | cons e cs =>
    rcases (isPower_cons h).1 with rfl | rfl
    · exact noneFirst_cons (by decide) _
    · exact noneFirst_cons (by decide) _

/-- A tail is empty or begins with a point or the mark of a power. -/
theorem noneFirst_of_isTail {cs : List Char} (h : isTail cs = true) :
    NoneFirst Char.isDigit cs := by
  unfold isTail at h
  split at h
  · exact noneFirst_cons (by decide) _
  · exact noneFirst_of_isPower h

/-- A point, digits and a power are a tail. -/
theorem isTail_point {digits power : List Char} (hdigits : isDigits digits = true)
    (hpower : isPower power = true) : isTail ('.' :: (digits ++ power)) = true := by
  have hnot := noneFirst_of_isPower hpower
  obtain ⟨-, hall⟩ := isDigits_iff.1 hdigits
  rw [isTail, takeWhile_append hall hnot, dropWhile_append hall hnot, hdigits, hpower]
  rfl

/-- A mark, a sign or none, and digits are a power. -/
theorem isPower_mark {sign digits : List Char} (hsign : sign = [] ∨ sign = ['+'] ∨ sign = ['-'])
    (hdigits : isDigits digits = true) : isPower ('e' :: (sign ++ digits)) = true := by
  rcases hsign with rfl | rfl | rfl
  · rw [List.nil_append, isPower]
    · exact hdigits
    -- digits do not begin with a sign
    · rintro ds rfl
      exact absurd ((isDigits_iff.1 hdigits).2 '+' List.mem_cons_self) (by decide)
    · rintro ds rfl
      exact absurd ((isDigits_iff.1 hdigits).2 '-' List.mem_cons_self) (by decide)
  · exact hdigits
  · exact hdigits

/-- A literal without a minus sign is an integer part and a tail. -/
theorem isNumber_of_head_ne {cs : List Char} (h : cs.head? ≠ some '-') :
    isNumber cs =
      (isWhole (cs.takeWhile Char.isDigit) && isTail (cs.dropWhile Char.isDigit)) := by
  unfold isNumber
  split
  · exact absurd rfl h
  · rfl

/-- **A literal from its parts.** -/
theorem isNumber_of_parts (negative : Bool) {whole tail : List Char}
    (hwhole : isWhole whole = true) (htail : isTail tail = true) :
    isNumber ((if negative then ['-'] else []) ++ (whole ++ tail)) = true := by
  obtain ⟨hne, hdigits⟩ : whole ≠ [] ∧ ∀ c ∈ whole, c.isDigit = true := by
    rw [isWhole, Bool.and_eq_true] at hwhole
    exact isDigits_iff.1 hwhole.1
  have hnot : NoneFirst Char.isDigit tail := noneFirst_of_isTail htail
  have hunsigned : (isWhole ((whole ++ tail).takeWhile Char.isDigit) &&
      isTail ((whole ++ tail).dropWhile Char.isDigit)) = true := by
    rw [takeWhile_append hdigits hnot, dropWhile_append hdigits hnot, hwhole, htail]
    rfl
  cases negative with
  | true => exact hunsigned
  | false =>
    have hhead : (whole ++ tail).head? ≠ some '-' := by
      obtain ⟨c, cs, rfl⟩ := List.exists_cons_of_ne_nil hne
      intro hc
      have hdigit := hdigits c List.mem_cons_self
      rw [Option.some.inj hc] at hdigit
      exact absurd hdigit (by decide)
    exact (isNumber_of_head_ne hhead).trans hunsigned

/-! ## Reading literals -/

theorem isNumberChar_of_isDigit {c : Char} (h : c.isDigit = true) : isNumberChar c = true := by
  simp [isNumberChar, h]

theorem isNumberChar_of_mem_isDigits {cs : List Char} (h : isDigits cs = true) :
    ∀ c ∈ cs, isNumberChar c = true := by
  intro c hc
  exact isNumberChar_of_isDigit ((isDigits_iff.1 h).2 c hc)

theorem isNumberChar_of_mem_isPower {cs : List Char} (h : isPower cs = true) :
    ∀ c ∈ cs, isNumberChar c = true := by
  intro c hc
  cases cs with
  | nil => exact absurd hc List.not_mem_nil
  | cons e cs =>
    obtain ⟨he, sign, digits, rfl, hsign, hdigits⟩ := isPower_cons h
    rcases List.mem_cons.1 hc with rfl | hc
    · rcases he with rfl | rfl <;> rfl
    · rcases List.mem_append.1 hc with hc | hc
      · rcases hsign with rfl | rfl | rfl
        · exact absurd hc List.not_mem_nil
        · rw [List.mem_singleton.1 hc]; rfl
        · rw [List.mem_singleton.1 hc]; rfl
      · exact isNumberChar_of_mem_isDigits hdigits c hc

theorem isNumberChar_of_mem_isTail {cs : List Char} (h : isTail cs = true) :
    ∀ c ∈ cs, isNumberChar c = true := by
  intro c hc
  unfold isTail at h
  split at h
  · next cs =>
    rw [Bool.and_eq_true] at h
    rcases List.mem_cons.1 hc with rfl | hc
    · rfl
    · have hsplit : cs.takeWhile Char.isDigit ++ cs.dropWhile Char.isDigit = cs :=
        List.takeWhile_append_dropWhile
      rw [← hsplit] at hc
      rcases List.mem_append.1 hc with hc | hc
      · exact isNumberChar_of_mem_isDigits h.1 c hc
      · exact isNumberChar_of_mem_isPower h.2 c hc
  · exact isNumberChar_of_mem_isPower h c hc

/-- The parts of a literal without its sign. -/
theorem parts_of_isNumber {cs : List Char} (h : isNumber cs = true) :
    ∃ sign whole tail, cs = sign ++ (whole ++ tail) ∧ (sign = [] ∨ sign = ['-']) ∧
      isDigits whole = true ∧ isTail tail = true := by
  have hparts : ∀ unsigned : List Char, (isWhole (unsigned.takeWhile Char.isDigit) &&
      isTail (unsigned.dropWhile Char.isDigit)) = true →
      ∃ whole tail, unsigned = whole ++ tail ∧ isDigits whole = true ∧ isTail tail = true := by
    intro unsigned h
    rw [Bool.and_eq_true, isWhole, Bool.and_eq_true] at h
    exact ⟨_, _, List.takeWhile_append_dropWhile.symm, h.1.1, h.2⟩
  by_cases hhead : cs.head? = some '-'
  · obtain ⟨rest, rfl⟩ := List.head?_eq_some_iff.1 hhead
    obtain ⟨whole, tail, rfl, hwhole, htail⟩ := hparts rest h
    exact ⟨['-'], whole, tail, rfl, Or.inr rfl, hwhole, htail⟩
  · rw [isNumber_of_head_ne hhead] at h
    obtain ⟨whole, tail, rfl, hwhole, htail⟩ := hparts cs h
    exact ⟨[], whole, tail, rfl, Or.inl rfl, hwhole, htail⟩

/-- A literal has number characters only. -/
theorem isNumberChar_of_mem {cs : List Char} (h : isNumber cs = true) :
    ∀ c ∈ cs, isNumberChar c = true := by
  obtain ⟨sign, whole, tail, rfl, hsign, hwhole, htail⟩ := parts_of_isNumber h
  intro c hc
  rcases List.mem_append.1 hc with hc | hc
  · rcases hsign with rfl | rfl
    · exact absurd hc List.not_mem_nil
    · rw [List.mem_singleton.1 hc]; rfl
  · rcases List.mem_append.1 hc with hc | hc
    · exact isNumberChar_of_mem_isDigits hwhole c hc
    · exact isNumberChar_of_mem_isTail htail c hc

/-- A literal begins with a minus sign or a digit. -/
theorem exists_cons_of_isNumber {cs : List Char} (h : isNumber cs = true) :
    ∃ c rest, cs = c :: rest ∧ (c = '-' ∨ c.isDigit = true) := by
  obtain ⟨sign, whole, tail, rfl, hsign, hwhole, htail⟩ := parts_of_isNumber h
  rcases hsign with rfl | rfl
  · obtain ⟨hne, hdigits⟩ := isDigits_iff.1 hwhole
    obtain ⟨c, rest, rfl⟩ := List.exists_cons_of_ne_nil hne
    exact ⟨c, rest ++ tail, rfl, Or.inr (hdigits c List.mem_cons_self)⟩
  · exact ⟨'-', whole ++ tail, rfl, Or.inl rfl⟩

/-- **A literal is read as a whole.** -/
theorem number_append {literal : String} (h : isNumber literal.toList = true) {rest : List Char}
    (hrest : NoneFirst isNumberChar rest) :
    number (literal.toList ++ rest) = some (.number literal, rest) := by
  have hchars := isNumberChar_of_mem h
  rw [number, takeWhile_append hchars hrest, dropWhile_append hchars hrest]
  rw [if_pos h, String.ofList_toList]

/-! ## The numerals of captures -/

/-! ### Integers -/

theorem isDigits_toDigits (n : Nat) : isDigits (Nat.toDigits 10 n) = true :=
  isDigits_iff.2 ⟨Nat.toDigits_ne_nil, fun _ hc =>
    Nat.isDigit_of_mem_toDigits (by decide) (by decide) hc⟩

theorem isWhole_toDigits (n : Nat) : isWhole (Nat.toDigits 10 n) = true := by
  refine isWhole_of (isDigits_toDigits n) ?_
  rcases Nat.eq_zero_or_pos n with rfl | hn
  · exact Or.inl rfl
  · exact Or.inr (head?_toDigits_ne_zero hn)

theorem isNumber_natText (n : Nat) : isNumber (natText n).toList = true := by
  have h := isNumber_of_parts false (isWhole_toDigits n) (show isTail [] = true from rfl)
  rw [List.append_nil] at h
  rwa [natText, String.toList_ofList]

theorem isNumber_intText (n : Int) : isNumber (intText n).toList = true := by
  unfold intText
  split
  · have h := isNumber_of_parts true (isWhole_toDigits n.natAbs) (show isTail [] = true from rfl)
    have htext : ("-" ++ natText n.natAbs).toList = '-' :: Nat.toDigits 10 n.natAbs := by
      simp [natText]
    rw [List.append_nil] at h
    rw [htext]
    exact h
  · exact isNumber_natText n.natAbs

/-! ### Digits before and after the point -/

/-- The first digits of a positive number are an integer part. -/
theorem isWhole_take {n k : Nat} (hn : 0 < n) (hk : 0 < k) :
    isWhole ((Nat.toDigits 10 n).take k) = true := by
  obtain ⟨hne, hall⟩ := isDigits_iff.1 (isDigits_toDigits n)
  have hhead := head?_toDigits_ne_zero hn
  cases hdigits : Nat.toDigits 10 n with
  | nil => exact absurd hdigits hne
  | cons c cs =>
    rw [hdigits] at hall hhead
    obtain ⟨k, rfl⟩ : ∃ m, k = m + 1 := ⟨k - 1, by omega⟩
    have hdigits : isDigits ((c :: cs).take (k + 1)) = true :=
      isDigits_iff.2 ⟨List.cons_ne_nil _ _, fun d hd => hall d (List.mem_of_mem_take hd)⟩
    exact isWhole_of hdigits (Or.inr hhead)

/-- Zeros after the digits of a positive number do not change how it begins. -/
theorem isWhole_append_zeros {n : Nat} (hn : 0 < n) (k : Nat) :
    isWhole (Nat.toDigits 10 n ++ List.replicate k '0') = true := by
  obtain ⟨hne, hall⟩ := isDigits_iff.1 (isDigits_toDigits n)
  have hhead := head?_toDigits_ne_zero hn
  refine isWhole_of (isDigits_iff.2 ⟨List.append_ne_nil_of_left_ne_nil hne _, ?_⟩) (Or.inr ?_)
  · exact List.forall_mem_append.2 ⟨hall, fun c hc => List.eq_of_mem_replicate hc ▸ rfl⟩
  · obtain ⟨c, cs, hdigits⟩ := List.exists_cons_of_ne_nil hne
    rw [hdigits] at hhead ⊢
    exact hhead

theorem isDigits_zeros_append (k : Nat) {cs : List Char} (h : isDigits cs = true) :
    isDigits (List.replicate k '0' ++ cs) = true := by
  obtain ⟨hne, hall⟩ := isDigits_iff.1 h
  refine isDigits_iff.2 ⟨List.append_ne_nil_of_right_ne_nil _ hne, ?_⟩
  exact List.forall_mem_append.2 ⟨fun c hc => List.eq_of_mem_replicate hc ▸ rfl, hall⟩

/-- The digits after some but not all are digits. -/
theorem isDigits_drop {cs : List Char} (h : isDigits cs = true) {k : Nat} (hk : k < cs.length) :
    isDigits (cs.drop k) = true := by
  refine isDigits_iff.2 ⟨fun hnil => ?_, fun c hc => ?_⟩
  · exact absurd (List.drop_eq_nil_iff.1 hnil) (Nat.not_le.2 hk)
  · exact (isDigits_iff.1 h).2 c (List.mem_of_mem_drop hc)

/-- A point and digits are a tail. -/
theorem isTail_fraction {digits : List Char} (h : isDigits digits = true) :
    isTail ('.' :: digits) = true := by
  have htail := isTail_point h (show isPower [] = true from rfl)
  rwa [List.append_nil] at htail

/-! ### Doubles -/

/-- An integer part and a tail. -/
def IsUnsigned (cs : List Char) : Prop :=
  ∃ whole tail, cs = whole ++ tail ∧ isWhole whole = true ∧ isTail tail = true

/-- Positional text, of a decimal with a positive coefficient or of plain zero. -/
theorem isUnsigned_positional {whole : String} (hwhole : isTail whole.toList = true)
    {d : Decimal} (hd : 0 < d.coefficient ∨ d = ⟨0, 0⟩) : IsUnsigned (d.positional whole) := by
  have hdigits : isDigits d.digits = true := isDigits_toDigits d.coefficient
  unfold Decimal.positional
  dsimp only
  split
  · -- the digits stand behind the point and zeros
    exact ⟨['0'], _, rfl, rfl, isTail_fraction (isDigits_zeros_append _ hdigits)⟩
  · split
    · -- the digits and zeros stand before the point
      refine ⟨_, _, rfl, ?_, hwhole⟩
      rcases hd with hd | rfl
      · exact isWhole_append_zeros hd _
      · rfl
    · -- the point stands between the digits
      next hpos hlength =>
      have hcoefficient : 0 < d.coefficient := by
        rcases hd with hd | rfl
        · exact hd
        · exact absurd (show (1 : Int) ≤ 1 from Int.le_refl 1) hlength
      refine ⟨_, _, rfl, isWhole_take hcoefficient (by omega), ?_⟩
      exact isTail_fraction (isDigits_drop hdigits (by omega))

/-- Text with a power of ten. -/
theorem isUnsigned_scientific {plus : String} (hplus : plus = "" ∨ plus = "+") {d : Decimal}
    (hd : 0 < d.coefficient) : IsUnsigned (d.scientific plus) := by
  have hdigits : isDigits d.digits = true := isDigits_toDigits d.coefficient
  unfold Decimal.scientific
  dsimp only
  have hsign : (if d.pointPosition - 1 < 0 then ['-'] else plus.toList) = [] ∨
      (if d.pointPosition - 1 < 0 then ['-'] else plus.toList) = ['+'] ∨
      (if d.pointPosition - 1 < 0 then ['-'] else plus.toList) = ['-'] := by
    split
    · exact Or.inr (Or.inr rfl)
    · rcases hplus with rfl | rfl
      · exact Or.inl rfl
      · exact Or.inr (Or.inl rfl)
  have hpower := isPower_mark hsign (isDigits_toDigits (d.pointPosition - 1).natAbs)
  refine ⟨d.digits.take 1, _, List.append_assoc _ _ _, isWhole_take hd (by decide), ?_⟩
  split
  · exact hpower
  · next hlength =>
    exact isTail_point (isDigits_drop hdigits (by omega)) hpower

/-- **Finite doubles are number literals**, in every layout whose ending for whole numbers is a
tail and whose sign for powers is a plus or nothing. -/
theorem isNumber_text {l : Layout} (hwhole : isTail l.whole.toList = true)
    (hplus : l.plus = "" ∨ l.plus = "+") {x : Double} (hx : x.isFinite = true) :
    isNumber (l.text x).toList = true := by
  have hparts : IsUnsigned (l.unsignedText x) := by
    unfold Layout.unsignedText
    split
    · next hpower =>
      have hzero : x.isZero = false := by
        rw [Layout.usesPower, Bool.and_eq_true, Bool.not_eq_true'] at hpower
        exact hpower.1
      exact isUnsigned_scientific hplus (x.coefficient_shortest_pos hzero l.tie)
    · refine isUnsigned_positional hwhole ?_
      cases hzero : x.isZero with
      | true => exact Or.inr (by rw [Double.shortest, hzero]; rfl)
      | false => exact Or.inl (x.coefficient_shortest_pos hzero l.tie)
  obtain ⟨whole, tail, htext, hw, ht⟩ := hparts
  rw [Double.isFinite_eq, Bool.and_eq_true, Bool.not_eq_true', Bool.not_eq_true'] at hx
  rw [Layout.text, hx.1, hx.2, htext]
  show isNumber (String.ofList _).toList = true
  rw [String.toList_ofList]
  exact isNumber_of_parts x.negative hw ht

end CallCapture.Json.Reader
