/-!
# UTF-8 with faults

Captured strings are bytes that usually, but not always, are UTF-8.  This module cuts a
byte string into *segments*: the encoding of one scalar value, or a maximal ill-formed
subpart, which is the longest start of the remaining bytes that some well-formed encoding
begins with, and a single byte where there is none.

* `Segment.first`, `segments` --- the cut.
* `validate` --- the characters of a well-formed byte string, or its first `Fault`: where
  it is and how many bytes it takes.  An input that ends inside an encoding has a fault of
  unknown length, since more bytes could still complete it.
* `lossy` --- every ill-formed segment becomes one replacement character.
* `escaped` --- every byte of an ill-formed segment is shown as an escape.  The text comes
  in pieces: the characters up to a fault, then one piece for each byte of the fault.
* `Cut` --- what a cut into segments has to satisfy, said in terms of encodings of characters
  alone.
-/

namespace CallCapture.Utf8

/-! ## Which bytes follow which -/

/-- A closed range of bytes. -/
structure ByteRange where
  low : UInt8
  high : UInt8

namespace ByteRange

def contains (r : ByteRange) (b : UInt8) : Bool :=
  r.low ≤ b && b ≤ r.high

/-- The continuation bytes. -/
def continuation : ByteRange :=
  ⟨0x80, 0xBF⟩

end ByteRange

open ByteRange (continuation) in
/-- The ranges in which the bytes after a first byte must lie, one range per byte; `none`
for a byte that no encoding starts with.  The narrow ranges keep out overlong forms,
surrogates and values above the last code point. -/
def following? (b : UInt8) : Option (List ByteRange) :=
  if b ≤ 0x7F then some []
  else if b < 0xC2 then none
  else if b ≤ 0xDF then some [continuation]
  else if b = 0xE0 then some [⟨0xA0, 0xBF⟩, continuation]
  else if b = 0xED then some [⟨0x80, 0x9F⟩, continuation]
  else if b ≤ 0xEF then some [continuation, continuation]
  else if b = 0xF0 then some [⟨0x90, 0xBF⟩, continuation, continuation]
  else if b ≤ 0xF3 then some [continuation, continuation, continuation]
  else if b = 0xF4 then some [⟨0x80, 0x8F⟩, continuation, continuation]
  else none

/-- The longest start of the bytes that lies in the ranges, one range per byte. -/
def fitting : List ByteRange → List UInt8 → List UInt8
  | r :: ranges, b :: bytes => if r.contains b then b :: fitting ranges bytes else []
  | _, _ => []

/-- The code point that a first byte and its continuation bytes encode. -/
def codePoint : UInt8 → List UInt8 → Nat
  | b, [] => b.toNat
  | b, [x] => b.toNat % 0x20 * 0x40 + x.toNat % 0x40
  | b, [x, y] => (b.toNat % 0x10 * 0x40 + x.toNat % 0x40) * 0x40 + y.toNat % 0x40
  | b, x :: y :: z :: _ =>
    ((b.toNat % 0x08 * 0x40 + x.toNat % 0x40) * 0x40 + y.toNat % 0x40) * 0x40 + z.toNat % 0x40

/-! ## Segments -/

/-- One step of the cut of a byte string. -/
inductive Segment where
  /-- The encoding of one scalar value. -/
  | scalar (c : Char)
  /-- A maximal ill-formed subpart. -/
  | illFormed (first : UInt8) (more : List UInt8)
  deriving DecidableEq

namespace Segment

/-- The bytes that a segment stands for. -/
def bytes : Segment → List UInt8
  | .scalar c => String.utf8EncodeChar c
  | .illFormed first more => first :: more

/-- How many bytes a segment stands for. -/
def size : Segment → Nat
  | .scalar c => c.utf8Size
  | .illFormed _ more => more.length + 1

/-- The segment at the start of `b :: rest`. -/
def first (b : UInt8) (rest : List UInt8) : Segment :=
  match following? b with
  | none => .illFormed b []
  | some ranges =>
    let more := fitting ranges rest
    if more.length = ranges.length then .scalar (.ofNat (codePoint b more))
    else .illFormed b more

end Segment

/-- The segments of a byte string, in order. -/
def segments : List UInt8 → List Segment
  | [] => []
  | b :: rest =>
    let s := Segment.first b rest
    s :: segments (rest.drop (s.size - 1))
termination_by bytes => bytes.length
decreasing_by
  simp only [List.length_drop, List.length_cons]
  omega

@[simp]
theorem segments_nil : segments [] = [] := by
  rw [segments]

theorem segments_cons (b : UInt8) (rest : List UInt8) :
    segments (b :: rest) =
      Segment.first b rest :: segments (rest.drop ((Segment.first b rest).size - 1)) := by
  rw [segments]

/-! ## Validation -/

/-- Where a byte string stops being well formed. -/
structure Fault where
  /-- The characters before the fault. -/
  text : List Char
  /-- How many bytes these characters take. -/
  validUpTo : Nat
  /-- How many bytes the fault takes; `none` if the input ends inside an encoding. -/
  length? : Option Nat
  deriving DecidableEq

namespace Fault

/-- The fault that is met after one more character. -/
def after (c : Char) (f : Fault) : Fault :=
  ⟨c :: f.text, c.utf8Size + f.validUpTo, f.length?⟩

/-- How many bytes of the input are at fault: all that is left if the input ends inside
an encoding. -/
def size (f : Fault) (bytes : List UInt8) : Nat :=
  f.length?.getD (bytes.length - f.validUpTo)

end Fault

/-- The characters of a well-formed byte string, or its first fault. -/
def validate : List UInt8 → Except Fault (List Char)
  | [] => .ok []
  | b :: rest =>
    match Segment.first b rest with
    | .scalar c =>
      match validate (rest.drop (c.utf8Size - 1)) with
      | .ok text => .ok (c :: text)
      | .error fault => .error (fault.after c)
    | .illFormed _ more =>
      let cut := (following? b).isSome && more.length = rest.length
      .error ⟨[], 0, if cut then none else some (more.length + 1)⟩
termination_by bytes => bytes.length
decreasing_by
  simp only [List.length_drop, List.length_cons]
  omega

/-! ## The fault lies inside the input -/

theorem length_fitting_le (ranges : List ByteRange) (bytes : List UInt8) :
    (fitting ranges bytes).length ≤ bytes.length := by
  fun_induction fitting ranges bytes <;> simp_all

theorem le_of_following?_eq_nil {b : UInt8} (h : following? b = some []) : b ≤ 0x7F := by
  unfold following? at h
  split at h
  · assumption
  · exact absurd h (by repeat' split
                       all_goals simp)

/-- The character of a number has at most that code point. -/
theorem toNat_ofNat_le (n : Nat) : (Char.ofNat n).toNat ≤ n := by
  by_cases h : n.isValidChar
  · have hc : Char.ofNat n = Char.ofNatAux n h := dif_pos h
    rw [hc]
    exact Nat.le_refl n
  · have hc : Char.ofNat n = '\x00' := dif_neg h
    rw [hc]
    exact Nat.zero_le n

theorem utf8Size_le_one {c : Char} (h : c.toNat ≤ 0x7F) : c.utf8Size ≤ 1 :=
  Nat.le_of_eq (Char.utf8Size_eq_one_iff.2 (UInt32.le_iff_toNat_le.2 h))

theorem utf8Size_le_three {c : Char} (h : c.toNat ≤ 0xFFFF) : c.utf8Size ≤ 3 := by
  rcases c.utf8Size_eq with hc | hc | hc | hc
  · omega
  · omega
  · omega
  · exact absurd (UInt32.lt_iff_toNat_lt.1 (Char.utf8Size_eq_four_iff.1 hc)) (Nat.not_lt.2 h)

theorem utf8Size_le_two {c : Char} (h : c.toNat ≤ 0x7FF) : c.utf8Size ≤ 2 := by
  have h3 := utf8Size_le_three (Nat.le_trans h (by decide))
  rcases Nat.lt_or_eq_of_le h3 with hc | hc
  · omega
  · exact absurd (UInt32.lt_iff_toNat_lt.1 (Char.utf8Size_eq_three_iff.1 hc).1) (Nat.not_lt.2 h)

theorem utf8Size_ofNat_codePoint_le {b : UInt8} {ranges : List ByteRange} {more : List UInt8}
    (h : following? b = some ranges) (hl : more.length = ranges.length) :
    (Char.ofNat (codePoint b more)).utf8Size ≤ more.length + 1 := by
  have hc := toNat_ofNat_le (codePoint b more)
  match more, hl with
  | [], hl =>
    have hb : b ≤ 0x7F := le_of_following?_eq_nil (List.length_eq_zero_iff.1 hl.symm ▸ h)
    exact utf8Size_le_one (Nat.le_trans hc (UInt8.le_iff_toNat_le.1 hb))
  | [x], _ => exact utf8Size_le_two (Nat.le_trans hc (by simp only [codePoint]; omega))
  | [x, y], _ => exact utf8Size_le_three (Nat.le_trans hc (by simp only [codePoint]; omega))
  | _ :: _ :: _ :: _, _ => exact Nat.le_trans (Char.utf8Size_le_four _) (by simp)

/-- A segment takes no more bytes than there are. -/
theorem Segment.size_first_le (b : UInt8) (rest : List UInt8) :
    (Segment.first b rest).size ≤ rest.length + 1 := by
  unfold Segment.first
  split
  · simp [Segment.size]
  · next ranges h =>
    have hl := length_fitting_le ranges rest
    dsimp only
    split
    · next he => exact Nat.le_trans (utf8Size_ofNat_codePoint_le h he) (Nat.succ_le_succ hl)
    · exact Nat.succ_le_succ hl

/-- Some byte follows the characters before a fault. -/
theorem Fault.validUpTo_lt {bytes : List UInt8} {f : Fault} (h : validate bytes = .error f) :
    f.validUpTo < bytes.length := by
  fun_induction validate bytes generalizing f with
  | case1 => simp at h
  | case2 => simp at h
  | case3 b rest c hc fault hf ih =>
    have hs := Segment.size_first_le b rest
    have hp := c.utf8Size_pos
    simp only [hc, Segment.size] at hs
    have := ih hf
    obtain rfl := Except.error.inj h
    simp only [List.length_drop, Fault.after, List.length_cons] at *
    omega
  | case4 =>
    obtain rfl := Except.error.inj h
    simp

theorem Fault.length?_ne_zero {bytes : List UInt8} {f : Fault} (h : validate bytes = .error f) :
    f.length? ≠ some 0 := by
  fun_induction validate bytes generalizing f with
  | case1 => simp at h
  | case2 => simp at h
  | case3 b rest c hc fault hf ih =>
    obtain rfl := Except.error.inj h
    have := ih hf
    exact this
  | case4 =>
    obtain rfl := Except.error.inj h
    dsimp only
    split <;> simp

/-- A fault takes at least one byte. -/
theorem Fault.size_pos {bytes : List UInt8} {f : Fault} (h : validate bytes = .error f) :
    0 < f.size bytes := by
  have hv := Fault.validUpTo_lt h
  have hz := Fault.length?_ne_zero h
  unfold Fault.size
  cases hl : f.length? with
  | none => simp; omega
  | some n =>
    simp [hl] at hz ⊢; omega

/-- What follows a fault is shorter than the input. -/
theorem Fault.length_drop_lt {bytes : List UInt8} {f : Fault} (h : validate bytes = .error f) :
    ((bytes.drop f.validUpTo).drop (f.size bytes)).length < bytes.length := by
  have hv := Fault.validUpTo_lt h
  have hs := Fault.size_pos h
  simp only [List.length_drop]
  omega

/-! ## Texts -/

/-- The character shown in place of an ill-formed segment. -/
def replacement : Char :=
  '\uFFFD'

/-- The character of a segment, or the replacement character. -/
def Segment.shown : Segment → Char
  | .scalar c => c
  | .illFormed .. => replacement

/-- The text of a byte string with one replacement character per ill-formed segment. -/
def lossy (bytes : List UInt8) : String :=
  .ofList ((segments bytes).map Segment.shown)

/-- The two hexadecimal digits of a byte. -/
def hex (b : UInt8) : List Char :=
  [Nat.digitChar (b.toNat / 16), Nat.digitChar (b.toNat % 16)]

/-- The escape that shows one byte. -/
def escape (b : UInt8) : String :=
  .ofList ('\\' :: 'x' :: hex b)

/-- The text of a byte string in pieces, with the bytes at fault escaped one by one. -/
def escaped (bytes : List UInt8) : List String :=
  match _h : validate bytes with
  | .ok text => [.ofList text]
  | .error fault =>
    let bad := (bytes.drop fault.validUpTo).take (fault.size bytes)
    let rest := (bytes.drop fault.validUpTo).drop (fault.size bytes)
    .ofList fault.text :: bad.map escape ++ escaped rest
termination_by bytes.length
decreasing_by exact Fault.length_drop_lt _h

theorem escaped_of_ok {bytes : List UInt8} {text : List Char} (h : validate bytes = .ok text) :
    escaped bytes = [.ofList text] := by
  rw [escaped]
  split
  · next text' h' => rw [Except.ok.inj (h.symm.trans h')]
  · next fault h' => exact nomatch h.symm.trans h'

theorem escaped_of_error {bytes : List UInt8} {fault : Fault}
    (h : validate bytes = .error fault) :
    escaped bytes = .ofList fault.text ::
      ((bytes.drop fault.validUpTo).take (fault.size bytes)).map escape ++
        escaped ((bytes.drop fault.validUpTo).drop (fault.size bytes)) := by
  rw [escaped]
  split
  · next text h' => exact nomatch h.symm.trans h'
  · next fault' h' =>
    obtain rfl := Except.error.inj (h.symm.trans h')
    rfl

/-- The bytes of a text. -/
def encode (text : String) : List UInt8 :=
  text.toList.flatMap String.utf8EncodeChar

/-! ## The rule behind the segments

A segment is the encoding of a character, or a maximal subpart of bytes at which no encoding
starts.  Such a subpart is the longest start of an encoding that is found there, and a single
byte if there is none. -/

/-- The bytes begin the encoding of some character and do not complete it. -/
def Incomplete (bytes : List UInt8) : Prop :=
  bytes ≠ [] ∧ ∃ c tail, tail ≠ [] ∧ String.utf8EncodeChar c = bytes ++ tail

/-- The bytes `first :: more` are a maximal ill-formed subpart where `rest` follows. -/
structure MaximalSubpart (first : UInt8) (more rest : List UInt8) : Prop where
  /-- No encoding starts here. -/
  not_encoding : ∀ c tail, first :: more ++ rest ≠ String.utf8EncodeChar c ++ tail
  /-- The subpart is the start of an encoding, or a single byte. -/
  incomplete_or_single : Incomplete (first :: more) ∨ more = []
  /-- No longer start of an encoding is found here. -/
  longest : ∀ bytes tail, first :: more ++ rest = bytes ++ tail → Incomplete bytes →
    bytes.length ≤ more.length + 1

/-- The segments are a cut of the bytes by the rule. -/
inductive Cut : List UInt8 → List Segment → Prop where
  | nil : Cut [] []
  | scalar {c : Char} {rest : List UInt8} {ss : List Segment} :
    Cut rest ss → Cut (String.utf8EncodeChar c ++ rest) (.scalar c :: ss)
  | illFormed {first : UInt8} {more rest : List UInt8} {ss : List Segment} :
    MaximalSubpart first more rest → Cut rest ss →
      Cut (first :: more ++ rest) (.illFormed first more :: ss)

/-- A cut loses, repeats and moves no byte. -/
theorem Cut.flatMap_bytes {bytes : List UInt8} {ss : List Segment} (h : Cut bytes ss) :
    ss.flatMap Segment.bytes = bytes := by
  induction h with
  | nil => rfl
  | scalar _ ih => rw [List.flatMap_cons, ih, Segment.bytes]
  | illFormed _ _ ih => rw [List.flatMap_cons, ih, Segment.bytes]

end CallCapture.Utf8
