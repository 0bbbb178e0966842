import CallCapture.Text.Utf8

/-!
# Byte ranges and encodings

Two descriptions of UTF-8 meet here.  The cut into segments looks at ranges: the first byte
says how many bytes follow and in which ranges they lie (`following?`, `fitting`).  The rule
for a cut speaks of the encodings of characters alone.

`Completes` is the table of well-formed sequences between the two, with a row for each
number of bytes.

* `Completes.exists_fits`, `Fits.completes` --- the rows are the bytes that fit the ranges.
* `Completes.utf8EncodeChar_ofNat`, `exists_completes` --- the rows are the encodings, and
  `codePoint` gives the character back.
* `incomplete_cons_iff` --- in terms of ranges, when bytes begin an encoding without
  completing it; the missing bytes can be chosen because no range is empty.
* `fitting_of_utf8EncodeChar`, `utf8EncodeChar_append_inj` --- an encoding at the start of
  some bytes fits all ranges, and there is at most one.
-/

namespace CallCapture.Utf8

open ByteRange (continuation)

/-! ## Ranges -/

theorem ofNat_eq {b : UInt8} {n : Nat} (h : n = b.toNat) : UInt8.ofNat n = b := by
  rw [h, UInt8.ofNat_toNat]

theorem ByteRange.contains_iff (r : ByteRange) (x : UInt8) :
    r.contains x = true ↔ r.low.toNat ≤ x.toNat ∧ x.toNat ≤ r.high.toNat := by
  rw [contains, Bool.and_eq_true, decide_eq_true_iff, decide_eq_true_iff, UInt8.le_iff_toNat_le,
    UInt8.le_iff_toNat_le]

theorem contains_continuation (x : UInt8) :
    continuation.contains x = true ↔ 0x80 ≤ x.toNat ∧ x.toNat ≤ 0xBF :=
  continuation.contains_iff x

/-- The range of the byte after the first in an encoding of three or four bytes. -/
def secondRange (b : UInt8) : ByteRange :=
  if b.toNat = 0xE0 then ⟨0xA0, 0xBF⟩
  else if b.toNat = 0xED then ⟨0x80, 0x9F⟩
  else if b.toNat = 0xF0 then ⟨0x90, 0xBF⟩
  else if b.toNat = 0xF4 then ⟨0x80, 0x8F⟩
  else continuation

theorem contains_secondRange (b x : UInt8) :
    (secondRange b).contains x = true ↔
      0x80 ≤ x.toNat ∧ x.toNat ≤ 0xBF ∧
      (b.toNat = 0xE0 → 0xA0 ≤ x.toNat) ∧ (b.toNat = 0xED → x.toNat ≤ 0x9F) ∧
      (b.toNat = 0xF0 → 0x90 ≤ x.toNat) ∧ (b.toNat = 0xF4 → x.toNat ≤ 0x8F) := by
  rw [ByteRange.contains_iff, secondRange]
  by_cases hE0 : b.toNat = 0xE0
  · rw [if_pos hE0]
    show 0xA0 ≤ x.toNat ∧ x.toNat ≤ 0xBF ↔ _
    omega
  by_cases hED : b.toNat = 0xED
  · rw [if_neg hE0, if_pos hED]
    show 0x80 ≤ x.toNat ∧ x.toNat ≤ 0x9F ↔ _
    omega
  by_cases hF0 : b.toNat = 0xF0
  · rw [if_neg hE0, if_neg hED, if_pos hF0]
    show 0x90 ≤ x.toNat ∧ x.toNat ≤ 0xBF ↔ _
    omega
  by_cases hF4 : b.toNat = 0xF4
  · rw [if_neg hE0, if_neg hED, if_neg hF0, if_pos hF4]
    show 0x80 ≤ x.toNat ∧ x.toNat ≤ 0x8F ↔ _
    omega
  · rw [if_neg hE0, if_neg hED, if_neg hF0, if_neg hF4]
    show 0x80 ≤ x.toNat ∧ x.toNat ≤ 0xBF ↔ _
    omega

/-! ## What follows a first byte -/

/-- The ranges after a first byte, with the byte read as a number. -/
theorem following?_eq (b : UInt8) :
    following? b =
      if b.toNat ≤ 0x7F then some []
      else if b.toNat < 0xC2 then none
      else if b.toNat ≤ 0xDF then some [continuation]
      else if b.toNat = 0xE0 then some [⟨0xA0, 0xBF⟩, continuation]
      else if b.toNat = 0xED then some [⟨0x80, 0x9F⟩, continuation]
      else if b.toNat ≤ 0xEF then some [continuation, continuation]
      else if b.toNat = 0xF0 then some [⟨0x90, 0xBF⟩, continuation, continuation]
      else if b.toNat ≤ 0xF3 then some [continuation, continuation, continuation]
      else if b.toNat = 0xF4 then some [⟨0x80, 0x8F⟩, continuation, continuation]
      else none := by
  rw [following?]
  simp only [UInt8.le_iff_toNat_le, UInt8.lt_iff_toNat_lt, ← UInt8.toNat_inj, UInt8.reduceToNat]

theorem following?_one {b : UInt8} (h : b.toNat ≤ 0x7F) : following? b = some [] := by
  rw [following?_eq, if_pos h]

theorem following?_two {b : UInt8} (h : 0xC2 ≤ b.toNat) (h' : b.toNat ≤ 0xDF) :
    following? b = some [continuation] := by
  rw [following?_eq, if_neg (by omega), if_neg (by omega), if_pos h']

theorem following?_three {b : UInt8} (h : 0xE0 ≤ b.toNat) (h' : b.toNat ≤ 0xEF) :
    following? b = some [secondRange b, continuation] := by
  rw [following?_eq, if_neg (by omega), if_neg (by omega), if_neg (by omega), secondRange]
  by_cases hE0 : b.toNat = 0xE0
  · rw [if_pos hE0, if_pos hE0]
  by_cases hED : b.toNat = 0xED
  · rw [if_neg hE0, if_pos hED, if_neg hE0, if_pos hED]
  · rw [if_neg hE0, if_neg hED, if_pos h', if_neg hE0, if_neg hED, if_neg (by omega),
      if_neg (by omega)]

theorem following?_four {b : UInt8} (h : 0xF0 ≤ b.toNat) (h' : b.toNat ≤ 0xF4) :
    following? b = some [secondRange b, continuation, continuation] := by
  have hE0 : ¬b.toNat = 0xE0 := by omega
  have hED : ¬b.toNat = 0xED := by omega
  rw [following?_eq, if_neg (by omega), if_neg (by omega), if_neg (by omega), if_neg hE0,
    if_neg hED, if_neg (by omega), secondRange, if_neg hE0, if_neg hED]
  by_cases hF0 : b.toNat = 0xF0
  · rw [if_pos hF0, if_pos hF0]
  by_cases hF4 : b.toNat = 0xF4
  · rw [if_neg hF0, if_neg (by omega), if_pos hF4, if_neg hF0, if_pos hF4]
  · rw [if_neg hF0, if_pos (by omega), if_neg hF0, if_neg hF4]

/-- No encoding starts with a continuation byte, with `C0` or `C1`, or above `F4`. -/
theorem following?_none {b : UInt8}
    (h : 0x7F < b.toNat ∧ b.toNat < 0xC2 ∨ 0xF4 < b.toNat) : following? b = none := by
  rw [following?_eq, if_neg (by omega)]
  by_cases hC2 : b.toNat < 0xC2
  · rw [if_pos hC2]
  · rw [if_neg hC2, if_neg (by omega), if_neg (by omega), if_neg (by omega), if_neg (by omega),
      if_neg (by omega), if_neg (by omega), if_neg (by omega)]

/-- **What can follow a first byte**, one case for each number of bytes. -/
theorem following?_cases {b : UInt8} {ranges : List ByteRange} (hr : following? b = some ranges) :
    b.toNat ≤ 0x7F ∧ ranges = [] ∨
    (0xC2 ≤ b.toNat ∧ b.toNat ≤ 0xDF) ∧ ranges = [continuation] ∨
    (0xE0 ≤ b.toNat ∧ b.toNat ≤ 0xEF) ∧ ranges = [secondRange b, continuation] ∨
    (0xF0 ≤ b.toNat ∧ b.toNat ≤ 0xF4) ∧ ranges = [secondRange b, continuation, continuation] := by
  have hb : b.toNat ≤ 0x7F ∨ (0xC2 ≤ b.toNat ∧ b.toNat ≤ 0xDF) ∨
      (0xE0 ≤ b.toNat ∧ b.toNat ≤ 0xEF) ∨ (0xF0 ≤ b.toNat ∧ b.toNat ≤ 0xF4) ∨
      (0x7F < b.toNat ∧ b.toNat < 0xC2 ∨ 0xF4 < b.toNat) := by omega
  rcases hb with h | h | h | h | h
  · exact Or.inl ⟨h, (Option.some.inj ((following?_one h).symm.trans hr)).symm⟩
  · exact Or.inr (Or.inl ⟨h, (Option.some.inj ((following?_two h.1 h.2).symm.trans hr)).symm⟩)
  · exact Or.inr (Or.inr (Or.inl
      ⟨h, (Option.some.inj ((following?_three h.1 h.2).symm.trans hr)).symm⟩))
  · exact Or.inr (Or.inr (Or.inr
      ⟨h, (Option.some.inj ((following?_four h.1 h.2).symm.trans hr)).symm⟩))
  · exact nomatch (following?_none h).symm.trans hr

/-- The range of a second byte is not empty. -/
theorem contains_low_secondRange (b : UInt8) :
    (secondRange b).contains (secondRange b).low = true := by
  rw [secondRange]
  repeat' split
  all_goals rfl

/-- No range after a first byte is empty. -/
theorem contains_low_of_following? {b : UInt8} {ranges : List ByteRange}
    (h : following? b = some ranges) : ∀ r ∈ ranges, r.contains r.low = true := by
  have hcont : continuation.contains continuation.low = true := rfl
  have hsecond := contains_low_secondRange b
  rcases following?_cases h with ⟨-, rfl⟩ | ⟨-, rfl⟩ | ⟨-, rfl⟩ | ⟨-, rfl⟩
  · simp
  · simp [hcont]
  · simp [hcont, hsecond]
  · simp [hcont, hsecond]

/-! ## Bytes that fit ranges -/

@[simp] theorem fitting_nil (ranges : List ByteRange) : fitting ranges [] = [] := by
  cases ranges <;> rfl

theorem fitting_cons_of_contains {r : ByteRange} {x : UInt8} (h : r.contains x = true)
    (ranges : List ByteRange) (bytes : List UInt8) :
    fitting (r :: ranges) (x :: bytes) = x :: fitting ranges bytes :=
  if_pos h

theorem fitting_cons_of_not_contains {r : ByteRange} {x : UInt8} (h : ¬r.contains x = true)
    (ranges : List ByteRange) (bytes : List UInt8) :
    fitting (r :: ranges) (x :: bytes) = [] :=
  if_neg h

/-- The bytes lie in the ranges, one byte for each range. -/
def Fits (ranges : List ByteRange) (bytes : List UInt8) : Prop :=
  fitting ranges bytes = bytes ∧ bytes.length = ranges.length

theorem fits_nil_iff {bytes : List UInt8} : Fits [] bytes ↔ bytes = [] := by
  constructor
  · rintro ⟨-, h⟩
    exact List.length_eq_zero_iff.1 h
  · rintro rfl
    exact ⟨rfl, rfl⟩

theorem fits_cons_iff {r : ByteRange} {ranges : List ByteRange} {bytes : List UInt8} :
    Fits (r :: ranges) bytes ↔
      ∃ x rest, bytes = x :: rest ∧ r.contains x = true ∧ Fits ranges rest := by
  constructor
  · rintro ⟨hfit, hlen⟩
    cases bytes with
    | nil => exact absurd hlen (by simp)
    | cons x rest =>
      by_cases hx : r.contains x = true
      · rw [fitting_cons_of_contains hx] at hfit
        exact ⟨x, rest, rfl, hx, List.tail_eq_of_cons_eq hfit, Nat.succ.inj hlen⟩
      · rw [fitting_cons_of_not_contains hx] at hfit
        exact absurd hfit (by simp)
  · rintro ⟨x, rest, rfl, hx, hfit, hlen⟩
    exact ⟨by rw [fitting_cons_of_contains hx, hfit], congrArg Nat.succ hlen⟩

/-- What fits is a start of the bytes. -/
theorem fitting_isPrefix (ranges : List ByteRange) (bytes : List UInt8) :
    fitting ranges bytes <+: bytes := by
  fun_induction fitting ranges bytes with
  | case1 r ranges b bytes h ih => exact List.cons_prefix_cons.2 ⟨rfl, ih⟩
  | case2 => exact List.nil_prefix
  | case3 => exact List.nil_prefix

/-- There is a range for each byte that fits. -/
theorem length_fitting_le_ranges (ranges : List ByteRange) (bytes : List UInt8) :
    (fitting ranges bytes).length ≤ ranges.length := by
  fun_induction fitting ranges bytes with
  | case1 r ranges b bytes h ih => exact Nat.succ_le_succ ih
  | case2 => exact Nat.zero_le _
  | case3 => exact Nat.zero_le _

/-- What fits still fits without the bytes after it. -/
theorem fitting_fitting (ranges : List ByteRange) (bytes : List UInt8) :
    fitting ranges (fitting ranges bytes) = fitting ranges bytes := by
  fun_induction fitting ranges bytes with
  | case1 r ranges b bytes h ih => rw [fitting_cons_of_contains h, ih]
  | case2 => rw [fitting_nil]
  | case3 => rw [fitting_nil]

/-- The start of bytes that fit fits. -/
theorem fitting_eq_of_append {ranges : List ByteRange} {start tail : List UInt8}
    (h : fitting ranges (start ++ tail) = start ++ tail) : fitting ranges start = start := by
  induction start generalizing ranges with
  | nil => rw [fitting_nil]
  | cons x start ih =>
    cases ranges with
    | nil => exact absurd h (by simp [fitting])
    | cons r ranges =>
      by_cases hx : r.contains x = true
      · rw [List.cons_append, fitting_cons_of_contains hx] at h
        rw [fitting_cons_of_contains hx, ih (List.tail_eq_of_cons_eq h)]
      · rw [List.cons_append, fitting_cons_of_not_contains hx] at h
        exact absurd h (by simp)

/-- Nothing that fits is longer than what is taken. -/
theorem isPrefix_fitting_append {ranges : List ByteRange} {start : List UInt8}
    (h : fitting ranges start = start) (tail : List UInt8) :
    start <+: fitting ranges (start ++ tail) := by
  induction start generalizing ranges with
  | nil => exact List.nil_prefix
  | cons x start ih =>
    cases ranges with
    | nil => exact absurd h (by simp [fitting])
    | cons r ranges =>
      by_cases hx : r.contains x = true
      · rw [fitting_cons_of_contains hx] at h
        rw [List.cons_append, fitting_cons_of_contains hx]
        exact List.cons_prefix_cons.2 ⟨rfl, ih (List.tail_eq_of_cons_eq h)⟩
      · rw [fitting_cons_of_not_contains hx] at h
        exact absurd h (by simp)

/-- Bytes that fit some of the ranges can be continued to fit all, if no range is empty. -/
theorem exists_fits_append {ranges : List ByteRange} (hne : ∀ r ∈ ranges, r.contains r.low = true)
    {start : List UInt8} (h : fitting ranges start = start) :
    ∃ tail, Fits ranges (start ++ tail) := by
  induction start generalizing ranges with
  | nil =>
    refine ⟨ranges.map ByteRange.low, ?_⟩
    rw [List.nil_append]
    clear h
    induction ranges with
    | nil => exact fits_nil_iff.2 rfl
    | cons r ranges ih =>
      obtain ⟨hr, hranges⟩ := List.forall_mem_cons.1 hne
      exact fits_cons_iff.2 ⟨_, _, rfl, hr, ih hranges⟩
  | cons x start ih =>
    cases ranges with
    | nil => exact absurd h (by simp [fitting])
    | cons r ranges =>
      obtain ⟨-, hranges⟩ := List.forall_mem_cons.1 hne
      by_cases hx : r.contains x = true
      · rw [fitting_cons_of_contains hx] at h
        obtain ⟨tail, htail⟩ := ih hranges (List.tail_eq_of_cons_eq h)
        exact ⟨tail, fits_cons_iff.2 ⟨_, _, rfl, hx, htail⟩⟩
      · rw [fitting_cons_of_not_contains hx] at h
        exact absurd h (by simp)

/-! ## The table of well-formed sequences -/

/-- The bytes complete an encoding after its first byte. -/
inductive Completes : UInt8 → List UInt8 → Prop where
  | one {b : UInt8} : b.toNat ≤ 0x7F → Completes b []
  | two {b x : UInt8} : 0xC2 ≤ b.toNat → b.toNat ≤ 0xDF →
    continuation.contains x = true → Completes b [x]
  | three {b x y : UInt8} : 0xE0 ≤ b.toNat → b.toNat ≤ 0xEF →
    (secondRange b).contains x = true → continuation.contains y = true → Completes b [x, y]
  | four {b x y z : UInt8} : 0xF0 ≤ b.toNat → b.toNat ≤ 0xF4 →
    (secondRange b).contains x = true → continuation.contains y = true →
    continuation.contains z = true → Completes b [x, y, z]

/-- A row of the table fits the ranges that follow its first byte. -/
theorem Completes.exists_fits {b : UInt8} {more : List UInt8} (h : Completes b more) :
    ∃ ranges, following? b = some ranges ∧ Fits ranges more := by
  cases h with
  | one h => exact ⟨_, following?_one h, fits_nil_iff.2 rfl⟩
  | two h h' hx =>
    refine ⟨_, following?_two h h', fits_cons_iff.2 ⟨_, _, rfl, hx, ?_⟩⟩
    exact fits_nil_iff.2 rfl
  | three h h' hx hy =>
    refine ⟨_, following?_three h h', fits_cons_iff.2 ⟨_, _, rfl, hx, ?_⟩⟩
    exact fits_cons_iff.2 ⟨_, _, rfl, hy, fits_nil_iff.2 rfl⟩
  | four h h' hx hy hz =>
    refine ⟨_, following?_four h h', fits_cons_iff.2 ⟨_, _, rfl, hx, ?_⟩⟩
    refine fits_cons_iff.2 ⟨_, _, rfl, hy, fits_cons_iff.2 ⟨_, _, rfl, hz, ?_⟩⟩
    exact fits_nil_iff.2 rfl

/-- Bytes that fit the ranges that follow a first byte make a row of the table. -/
theorem Fits.completes {b : UInt8} {ranges : List ByteRange} {more : List UInt8}
    (hfits : Fits ranges more) (hr : following? b = some ranges) : Completes b more := by
  rcases following?_cases hr with ⟨h, rfl⟩ | ⟨⟨h, h'⟩, rfl⟩ | ⟨⟨h, h'⟩, rfl⟩ | ⟨⟨h, h'⟩, rfl⟩
  · obtain rfl := fits_nil_iff.1 hfits
    exact .one h
  · obtain ⟨x, rest, rfl, hx, hrest⟩ := fits_cons_iff.1 hfits
    obtain rfl := fits_nil_iff.1 hrest
    exact .two h h' hx
  · obtain ⟨x, rest, rfl, hx, hrest⟩ := fits_cons_iff.1 hfits
    obtain ⟨y, rest, rfl, hy, hrest⟩ := fits_cons_iff.1 hrest
    obtain rfl := fits_nil_iff.1 hrest
    exact .three h h' hx hy
  · obtain ⟨x, rest, rfl, hx, hrest⟩ := fits_cons_iff.1 hfits
    obtain ⟨y, rest, rfl, hy, hrest⟩ := fits_cons_iff.1 hrest
    obtain ⟨z, rest, rfl, hz, hrest⟩ := fits_cons_iff.1 hrest
    obtain rfl := fits_nil_iff.1 hrest
    exact .four h h' hx hy hz

/-! ## Rows are encodings -/

theorem toNat_ofNat {n : Nat} (h : n.isValidChar) : (Char.ofNat n).toNat = n := by
  have hc : Char.ofNat n = Char.ofNatAux n h := dif_pos h
  rw [hc]
  rfl

theorem utf8EncodeChar_one {c : Char} (h : c.toNat ≤ 0x7F) :
    String.utf8EncodeChar c = [.ofNat c.toNat] :=
  if_pos h

theorem utf8EncodeChar_two {c : Char} (h : 0x80 ≤ c.toNat) (h' : c.toNat ≤ 0x7FF) :
    String.utf8EncodeChar c =
      [.ofNat (c.toNat / 64 % 32 + 0xC0), .ofNat (c.toNat % 64 + 0x80)] := by
  rw [String.utf8EncodeChar]
  exact (if_neg (Nat.not_le.2 h)).trans (if_pos h')

theorem utf8EncodeChar_three {c : Char} (h : 0x800 ≤ c.toNat) (h' : c.toNat ≤ 0xFFFF) :
    String.utf8EncodeChar c =
      [.ofNat (c.toNat / 4096 % 16 + 0xE0), .ofNat (c.toNat / 64 % 64 + 0x80),
        .ofNat (c.toNat % 64 + 0x80)] := by
  have h1 : ¬c.toNat ≤ 0x7F := by omega
  rw [String.utf8EncodeChar]
  exact (if_neg h1).trans ((if_neg (Nat.not_le.2 h)).trans (if_pos h'))

theorem utf8EncodeChar_four {c : Char} (h : 0x10000 ≤ c.toNat) :
    String.utf8EncodeChar c =
      [.ofNat (c.toNat / 262144 % 8 + 0xF0), .ofNat (c.toNat / 4096 % 64 + 0x80),
        .ofNat (c.toNat / 64 % 64 + 0x80), .ofNat (c.toNat % 64 + 0x80)] := by
  have h1 : ¬c.toNat ≤ 0x7F := by omega
  have h2 : ¬c.toNat ≤ 0x7FF := by omega
  rw [String.utf8EncodeChar]
  exact (if_neg h1).trans ((if_neg h2).trans (if_neg (Nat.not_le.2 h)))

/-- **A row of the table is the encoding** of the character of its code point. -/
theorem Completes.utf8EncodeChar_ofNat {b : UInt8} {more : List UInt8} (h : Completes b more) :
    String.utf8EncodeChar (.ofNat (codePoint b more)) = b :: more := by
  cases h with
  | one h =>
    have hn : (Char.ofNat (codePoint b [])).toNat = b.toNat :=
      toNat_ofNat (Or.inl (by rw [codePoint]; omega))
    rw [utf8EncodeChar_one (by omega), hn, ofNat_eq rfl]
  | @two x h h' hx =>
    rw [contains_continuation] at hx
    have hn : (Char.ofNat (codePoint b [x])).toNat = b.toNat % 32 * 64 + x.toNat % 64 :=
      toNat_ofNat (Or.inl (by rw [codePoint]; omega))
    rw [utf8EncodeChar_two (by omega) (by omega), hn, ofNat_eq (b := b) (by omega),
      ofNat_eq (b := x) (by omega)]
  | @three x y h h' hx hy =>
    rw [contains_secondRange] at hx
    rw [contains_continuation] at hy
    have hn : (Char.ofNat (codePoint b [x, y])).toNat =
        (b.toNat % 16 * 64 + x.toNat % 64) * 64 + y.toNat % 64 :=
      toNat_ofNat (by
        show _ < 0xD800 ∨ 0xDFFF < _ ∧ _ < 0x110000
        rw [codePoint]
        omega)
    rw [utf8EncodeChar_three (by omega) (by omega), hn, ofNat_eq (b := b) (by omega),
      ofNat_eq (b := x) (by omega), ofNat_eq (b := y) (by omega)]
  | @four x y z h h' hx hy hz =>
    rw [contains_secondRange] at hx
    rw [contains_continuation] at hy hz
    have hn : (Char.ofNat (codePoint b [x, y, z])).toNat =
        ((b.toNat % 8 * 64 + x.toNat % 64) * 64 + y.toNat % 64) * 64 + z.toNat % 64 :=
      toNat_ofNat (Or.inr (by rw [codePoint]; omega))
    rw [utf8EncodeChar_four (by omega), hn, ofNat_eq (b := b) (by omega),
      ofNat_eq (b := x) (by omega), ofNat_eq (b := y) (by omega), ofNat_eq (b := z) (by omega)]

/-- **Every encoding is a row of the table**, whose code point is that of the character. -/
theorem exists_completes (c : Char) :
    ∃ b more, String.utf8EncodeChar c = b :: more ∧ Completes b more ∧
      codePoint b more = c.toNat := by
  have hvalid : c.toNat < 0xD800 ∨ 0xDFFF < c.toNat ∧ c.toNat < 0x110000 := c.valid
  have hbyte (n : Nat) (hn : n < 256) : (UInt8.ofNat n).toNat = n := UInt8.toNat_ofNat_of_lt hn
  have hsize : c.toNat ≤ 0x7F ∨ 0x80 ≤ c.toNat ∧ c.toNat ≤ 0x7FF ∨
      0x800 ≤ c.toNat ∧ c.toNat ≤ 0xFFFF ∨ 0x10000 ≤ c.toNat := by omega
  rcases hsize with h | ⟨h, h'⟩ | ⟨h, h'⟩ | h
  · refine ⟨_, _, utf8EncodeChar_one h, .one ?_, ?_⟩
    · rw [hbyte _ (by omega)]
      exact h
    · rw [codePoint, hbyte _ (by omega)]
  · have hb := hbyte (c.toNat / 64 % 32 + 0xC0) (by omega)
    have hx := hbyte (c.toNat % 64 + 0x80) (by omega)
    refine ⟨_, _, utf8EncodeChar_two h h', .two ?_ ?_ ?_, ?_⟩
    · omega
    · omega
    · rw [contains_continuation]
      omega
    · rw [codePoint]
      omega
  · have hb := hbyte (c.toNat / 4096 % 16 + 0xE0) (by omega)
    have hx := hbyte (c.toNat / 64 % 64 + 0x80) (by omega)
    have hy := hbyte (c.toNat % 64 + 0x80) (by omega)
    refine ⟨_, _, utf8EncodeChar_three h h', .three ?_ ?_ ?_ ?_, ?_⟩
    · omega
    · omega
    · rw [contains_secondRange]
      omega
    · rw [contains_continuation]
      omega
    · rw [codePoint]
      omega
  · have hb := hbyte (c.toNat / 262144 % 8 + 0xF0) (by omega)
    have hx := hbyte (c.toNat / 4096 % 64 + 0x80) (by omega)
    have hy := hbyte (c.toNat / 64 % 64 + 0x80) (by omega)
    have hz := hbyte (c.toNat % 64 + 0x80) (by omega)
    refine ⟨_, _, utf8EncodeChar_four h, .four ?_ ?_ ?_ ?_ ?_, ?_⟩
    · omega
    · omega
    · rw [contains_secondRange]
      omega
    · rw [contains_continuation]
      omega
    · rw [contains_continuation]
      omega
    · rw [codePoint]
      omega

/-! ## What encodings begin with -/

/-- **Bytes begin an encoding without completing it** exactly when they fit the ranges after
the first one and there are ranges left. -/
theorem incomplete_cons_iff {b : UInt8} {more : List UInt8} :
    Incomplete (b :: more) ↔
      ∃ ranges, following? b = some ranges ∧ fitting ranges more = more ∧
        more.length < ranges.length := by
  constructor
  · rintro ⟨-, c, tail, htail, hc⟩
    obtain ⟨b', rest, hc', hcompletes, -⟩ := exists_completes c
    rw [hc', List.cons_append] at hc
    obtain ⟨rfl, rfl⟩ := List.cons.inj hc
    obtain ⟨ranges, hr, hfit, hlen⟩ := hcompletes.exists_fits
    refine ⟨ranges, hr, fitting_eq_of_append hfit, ?_⟩
    have hpos := List.length_pos_iff.2 htail
    rw [List.length_append] at hlen
    omega
  · rintro ⟨ranges, hr, hfit, hlen⟩
    obtain ⟨tail, htail⟩ := exists_fits_append (contains_low_of_following? hr) hfit
    refine ⟨List.cons_ne_nil _ _, _, tail, ?_, (htail.completes hr).utf8EncodeChar_ofNat⟩
    rintro rfl
    have hall := htail.2
    rw [List.append_nil] at hall
    omega

/-- At the start of an encoding, the ranges after its first byte all fit. -/
theorem fitting_of_utf8EncodeChar {c : Char} {b : UInt8} {rest tail : List UInt8}
    (h : b :: rest = String.utf8EncodeChar c ++ tail) :
    ∃ ranges, following? b = some ranges ∧ (fitting ranges rest).length = ranges.length := by
  obtain ⟨b', more, hc, hcompletes, -⟩ := exists_completes c
  rw [hc, List.cons_append] at h
  obtain ⟨rfl, rfl⟩ := List.cons.inj h
  obtain ⟨ranges, hr, hfit, hlen⟩ := hcompletes.exists_fits
  refine ⟨ranges, hr, Nat.le_antisymm (length_fitting_le_ranges _ _) ?_⟩
  rw [← hlen]
  exact (isPrefix_fitting_append hfit tail).length_le

/-- **No encoding starts another one**: the character and what follows it are determined. -/
theorem utf8EncodeChar_append_inj {c d : Char} {rest tail : List UInt8}
    (h : String.utf8EncodeChar c ++ rest = String.utf8EncodeChar d ++ tail) :
    c = d ∧ rest = tail := by
  obtain ⟨b, more, hc, hcompletes, hcode⟩ := exists_completes c
  obtain ⟨b', more', hd, hcompletes', hcode'⟩ := exists_completes d
  rw [hc, hd, List.cons_append, List.cons_append] at h
  obtain ⟨rfl, happend⟩ := List.cons.inj h
  obtain ⟨ranges, hr, -, hlen⟩ := hcompletes.exists_fits
  obtain ⟨ranges', hr', -, hlen'⟩ := hcompletes'.exists_fits
  obtain rfl := Option.some.inj (hr.symm.trans hr')
  obtain ⟨rfl, rfl⟩ := List.append_inj happend (hlen.trans hlen'.symm)
  refine ⟨Char.toNat_inj.1 ?_, rfl⟩
  rw [← hcode, ← hcode']

end CallCapture.Utf8
