import CallCapture.Proofs.Utf8.Encoding

/-!
# There is one cut into segments

`segments` cuts by byte ranges, the rule `Cut` speaks of encodings alone.  The cut by ranges
obeys the rule (`cut_segments`), and no other cut does (`Cut.unique`), so every byte string
has exactly one cut.

Uniqueness needs nothing about the way the cut is made: at the start of the bytes either an
encoding stands, and then only one, or none does, and then the subpart is the longest
start of an encoding found there.

From the rule also follow the size of a subpart (`MaximalSubpart.length_le_three`) and that
it holds no ASCII byte (`MaximalSubpart.le_of_mem`), and that the cuts without subparts are
those of encoded texts (`Cut.forall_notMem_iff`).
-/

namespace CallCapture.Utf8

/-! ## The first segment -/

namespace Segment

/-- A byte that no encoding starts with is a segment of its own. -/
theorem first_eq_of_none {b : UInt8} (h : following? b = none) (rest : List UInt8) :
    first b rest = .illFormed b [] := by
  rw [first, h]

/-- Where all ranges fit, the segment is a character. -/
theorem first_eq_of_length_eq {b : UInt8} {ranges : List ByteRange} {rest : List UInt8}
    (h : following? b = some ranges) (hlen : (fitting ranges rest).length = ranges.length) :
    first b rest = .scalar (.ofNat (codePoint b (fitting ranges rest))) := by
  rw [first, h]
  exact if_pos hlen

/-- Where a range does not fit, the segment ends before it. -/
theorem first_eq_of_length_ne {b : UInt8} {ranges : List ByteRange} {rest : List UInt8}
    (h : following? b = some ranges) (hlen : (fitting ranges rest).length ≠ ranges.length) :
    first b rest = .illFormed b (fitting ranges rest) := by
  rw [first, h]
  exact if_neg hlen

end Segment

/-- A byte that no encoding starts with is a subpart of its own. -/
theorem maximalSubpart_of_none {b : UInt8} (h : following? b = none) (rest : List UInt8) :
    MaximalSubpart b [] rest where
  not_encoding := by
    intro c tail hc
    obtain ⟨ranges, hr, -⟩ := fitting_of_utf8EncodeChar hc
    rw [h] at hr
    exact nomatch hr
  incomplete_or_single := Or.inr rfl
  longest := by
    intro bytes tail hbytes hinc
    cases bytes with
    | nil => exact absurd rfl hinc.1
    | cons b' more =>
      obtain ⟨rfl, -⟩ := List.cons.inj hbytes
      obtain ⟨ranges, hr, -⟩ := incomplete_cons_iff.1 hinc
      rw [h] at hr
      exact nomatch hr

/-- Where some but not all of the ranges fit, the bytes that fit are a subpart. -/
theorem maximalSubpart_of_length_ne {b : UInt8} {ranges : List ByteRange} {rest tail : List UInt8}
    (h : following? b = some ranges) (hlen : (fitting ranges rest).length ≠ ranges.length)
    (htail : fitting ranges rest ++ tail = rest) :
    MaximalSubpart b (fitting ranges rest) tail where
  not_encoding := by
    intro c more hc
    rw [List.cons_append, htail] at hc
    obtain ⟨ranges', hr', hfull⟩ := fitting_of_utf8EncodeChar hc
    obtain rfl := Option.some.inj (h.symm.trans hr')
    exact hlen hfull
  incomplete_or_single := by
    refine Or.inl (incomplete_cons_iff.2 ⟨ranges, h, fitting_fitting ranges rest, ?_⟩)
    exact Nat.lt_of_le_of_ne (length_fitting_le_ranges ranges rest) hlen
  longest := by
    intro bytes more hbytes hinc
    rw [List.cons_append, htail] at hbytes
    cases bytes with
    | nil => exact absurd rfl hinc.1
    | cons b' start =>
      obtain ⟨rfl, rfl⟩ := List.cons.inj hbytes
      obtain ⟨ranges', hr', hfit, -⟩ := incomplete_cons_iff.1 hinc
      obtain rfl := Option.some.inj (h.symm.trans hr')
      exact Nat.succ_le_succ (isPrefix_fitting_append hfit more).length_le

/-- **The first segment** is the encoding of a character or a maximal subpart, and the bytes
after it are those that its size leaves. -/
theorem first_cases (b : UInt8) (rest : List UInt8) :
    (∃ c, Segment.first b rest = .scalar c ∧
      b :: rest = String.utf8EncodeChar c ++ rest.drop (c.utf8Size - 1)) ∨
    (∃ more, Segment.first b rest = .illFormed b more ∧
      b :: rest = b :: more ++ rest.drop more.length ∧
      MaximalSubpart b more (rest.drop more.length)) := by
  cases h : following? b with
  | none =>
    exact Or.inr ⟨[], Segment.first_eq_of_none h rest, rfl, maximalSubpart_of_none h rest⟩
  | some ranges =>
    have htail : fitting ranges rest ++ rest.drop (fitting ranges rest).length = rest :=
      List.prefix_iff_eq_append.1 (fitting_isPrefix ranges rest)
    by_cases hlen : (fitting ranges rest).length = ranges.length
    · refine Or.inl ⟨_, Segment.first_eq_of_length_eq h hlen, ?_⟩
      have hfits : Fits ranges (fitting ranges rest) := ⟨fitting_fitting ranges rest, hlen⟩
      have hc := (hfits.completes h).utf8EncodeChar_ofNat
      have hsize : (Char.ofNat (codePoint b (fitting ranges rest))).utf8Size =
          (fitting ranges rest).length + 1 := by
        rw [← String.length_utf8EncodeChar, hc, List.length_cons]
      rw [hsize, hc, List.cons_append, Nat.add_sub_cancel, htail]
    · refine Or.inr ⟨_, Segment.first_eq_of_length_ne h hlen, ?_, ?_⟩
      · rw [List.cons_append, htail]
      · exact maximalSubpart_of_length_ne h hlen htail

/-! ## The cut -/

/-- **The cut by ranges obeys the rule.** -/
theorem cut_segments (bytes : List UInt8) : Cut bytes (segments bytes) := by
  fun_induction segments bytes with
  | case1 => exact .nil
  | case2 b rest s ih =>
    have hs : s = Segment.first b rest := rfl
    rcases first_cases b rest with ⟨c, hc, hbytes⟩ | ⟨more, hmore, hbytes, hsub⟩
    · rw [hs, hc] at ih ⊢
      rw [hbytes]
      exact .scalar ih
    · rw [hs, hmore] at ih ⊢
      rw [hbytes]
      exact .illFormed hsub ih

/-- Two subparts at the start of the same bytes are as long as each other. -/
theorem MaximalSubpart.length_le {b : UInt8} {more more' rest rest' : List UInt8}
    (h : MaximalSubpart b more rest) (h' : MaximalSubpart b more' rest')
    (hbytes : b :: more ++ rest = b :: more' ++ rest') : more'.length ≤ more.length := by
  rcases h'.incomplete_or_single with hinc | hsingle
  · exact Nat.le_of_succ_le_succ (h.longest (b :: more') rest' hbytes hinc)
  · rw [hsingle]
    exact Nat.zero_le _

/-- **There is no other cut.** -/
theorem Cut.unique {bytes : List UInt8} {ss ts : List Segment} (hs : Cut bytes ss)
    (ht : Cut bytes ts) : ts = ss := by
  induction hs generalizing ts with
  | nil =>
    generalize hbytes : ([] : List UInt8) = bytes at ht
    cases ht with
    | nil => rfl
    | @scalar c rest =>
      have hne := String.utf8EncodeChar_ne_nil (c := c)
      exact absurd (List.append_eq_nil_iff.1 hbytes.symm).1 hne
    | illFormed => exact nomatch hbytes
  | @scalar c rest ss hrest ih =>
    generalize hbytes : String.utf8EncodeChar c ++ rest = bytes at ht
    cases ht with
    | nil =>
      have hne := String.utf8EncodeChar_ne_nil (c := c)
      exact absurd (List.append_eq_nil_iff.1 hbytes).1 hne
    | scalar hrest' =>
      obtain ⟨rfl, rfl⟩ := utf8EncodeChar_append_inj hbytes
      rw [ih hrest']
    | illFormed hsub _ => exact absurd hbytes.symm (hsub.not_encoding _ _)
  | @illFormed b more rest ss hsub hrest ih =>
    generalize hbytes : b :: more ++ rest = bytes at ht
    cases ht with
    | nil => exact nomatch hbytes
    | scalar _ => exact absurd hbytes (hsub.not_encoding _ _)
    | @illFormed b' more' rest' ts hsub' hrest' =>
      obtain ⟨rfl, happend⟩ := List.cons.inj hbytes
      have hlen : more.length = more'.length :=
        Nat.le_antisymm (hsub'.length_le hsub hbytes.symm) (hsub.length_le hsub' hbytes)
      obtain ⟨rfl, rfl⟩ := List.append_inj happend hlen
      rw [ih hrest']

/-! ## What a subpart holds -/

/-- A subpart has at most three bytes. -/
theorem MaximalSubpart.length_le_three {b : UInt8} {more rest : List UInt8}
    (h : MaximalSubpart b more rest) : (b :: more).length ≤ 3 := by
  rcases h.incomplete_or_single with ⟨-, c, tail, htail, hc⟩ | rfl
  · have hsize := c.utf8Size_le_four
    have hpos := List.length_pos_iff.2 htail
    rw [← String.length_utf8EncodeChar, hc, List.length_append] at hsize
    omega
  · simp

theorem le_of_contains_continuation {x : UInt8}
    (h : ByteRange.continuation.contains x = true) : 0x80 ≤ x :=
  UInt8.le_iff_toNat_le.2 ((contains_continuation x).1 h).1

theorem le_of_contains_secondRange {b x : UInt8} (h : (secondRange b).contains x = true) :
    0x80 ≤ x :=
  UInt8.le_iff_toNat_le.2 ((contains_secondRange b x).1 h).1

/-- Every byte of an encoding but the first is above ASCII. -/
theorem Completes.le_of_mem {b x : UInt8} {more : List UInt8} (h : Completes b more)
    (hmem : x ∈ more) : 0x80 ≤ x := by
  cases h with
  | one _ => exact nomatch hmem
  | two _ _ hx =>
    rw [List.mem_singleton] at hmem
    rw [hmem]
    exact le_of_contains_continuation hx
  | three _ _ hx hy =>
    rw [List.mem_cons, List.mem_singleton] at hmem
    rcases hmem with rfl | rfl
    · exact le_of_contains_secondRange hx
    · exact le_of_contains_continuation hy
  | four _ _ hx hy hz =>
    rw [List.mem_cons, List.mem_cons, List.mem_singleton] at hmem
    rcases hmem with rfl | rfl | rfl
    · exact le_of_contains_secondRange hx
    · exact le_of_contains_continuation hy
    · exact le_of_contains_continuation hz

/-- **No ASCII byte is part of a subpart.** -/
theorem MaximalSubpart.le_of_mem {b x : UInt8} {more rest : List UInt8}
    (h : MaximalSubpart b more rest) (hmem : x ∈ b :: more) : 0x80 ≤ x := by
  rcases List.mem_cons.1 hmem with rfl | hx
  · -- an ASCII byte is an encoding
    refine UInt8.le_iff_toNat_le.2 (Nat.not_lt.1 fun hlt => ?_)
    have hone : Completes x [] := .one (Nat.le_of_lt_succ hlt)
    refine h.not_encoding (.ofNat (codePoint x [])) (more ++ rest) ?_
    rw [hone.utf8EncodeChar_ofNat]
    rfl
  · rcases h.incomplete_or_single with ⟨-, c, tail, -, hc⟩ | rfl
    · obtain ⟨b', all, hc', hcompletes, -⟩ := exists_completes c
      rw [hc', List.cons_append] at hc
      obtain ⟨rfl, rfl⟩ := List.cons.inj hc
      exact hcompletes.le_of_mem (List.mem_append_left _ hx)
    · exact nomatch hx

/-- An ill-formed segment of a cut is a maximal subpart. -/
theorem Cut.exists_maximalSubpart {bytes : List UInt8} {ss : List Segment} (h : Cut bytes ss)
    {b : UInt8} {more : List UInt8} (hmem : .illFormed b more ∈ ss) :
    ∃ rest, MaximalSubpart b more rest := by
  induction h with
  | nil => exact nomatch hmem
  | scalar _ ih =>
    rcases List.mem_cons.1 hmem with heq | hmem
    · exact nomatch heq
    · exact ih hmem
  | illFormed hsub _ ih =>
    rcases List.mem_cons.1 hmem with heq | hmem
    · obtain ⟨rfl, rfl⟩ := Segment.illFormed.inj heq
      exact ⟨_, hsub⟩
    · exact ih hmem

/-! ## Well-formed byte strings -/

/-- A text is cut into its characters. -/
theorem cut_encode (text : List Char) :
    Cut (text.flatMap String.utf8EncodeChar) (text.map Segment.scalar) := by
  induction text with
  | nil => exact .nil
  | cons c text ih => exact .scalar ih

/-- Segments without ill-formed ones are those of characters. -/
theorem exists_eq_map_scalar {ss : List Segment} (h : ∀ b more, .illFormed b more ∉ ss) :
    ∃ text : List Char, ss = text.map Segment.scalar := by
  induction ss with
  | nil => exact ⟨[], rfl⟩
  | cons s ss ih =>
    obtain ⟨text, rfl⟩ := ih fun b more hmem => h b more (List.mem_cons_of_mem _ hmem)
    cases s with
    | scalar c => exact ⟨c :: text, rfl⟩
    | illFormed b more => exact absurd List.mem_cons_self (h b more)

/-- **The cuts without ill-formed segments** are those of encoded texts. -/
theorem Cut.forall_notMem_iff {bytes : List UInt8} {ss : List Segment} (h : Cut bytes ss) :
    (∀ b more, .illFormed b more ∉ ss) ↔ ∃ text : String, encode text = bytes := by
  constructor
  · intro hno
    obtain ⟨text, rfl⟩ := exists_eq_map_scalar hno
    refine ⟨.ofList text, ?_⟩
    rw [encode, String.toList_ofList, ← h.flatMap_bytes, List.flatMap_map]
    rfl
  · rintro ⟨text, rfl⟩ b more hmem
    rw [(cut_encode text.toList).unique h, List.mem_map] at hmem
    obtain ⟨c, -, hc⟩ := hmem
    exact nomatch hc

end CallCapture.Utf8
