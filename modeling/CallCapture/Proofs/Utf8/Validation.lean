import CallCapture.Proofs.Utf8.Segmentation

/-!
# Validation and the cut

`validate` reads characters up to the first fault and says where the fault is and how many
bytes it takes, with a special case where the input ends inside an encoding.  In terms of
segments: the characters are the segments before the first ill-formed one, and the fault is
that segment, in either case (`segments_of_validate_error`).

The escapes of a byte string come from a loop over its faults, the replacement characters
from the segments.  Both cut at the same places: `join_escaped` says that the escaped text
is written segment by segment.

A fault is reported by two numbers, and whoever cuts the bytes there relies on them
(`Fault.reliable`).  Both cuts lie inside the bytes, something is at fault but at most three bytes
are (`Fault.size_le_three`), and the bytes before the fault are those of the characters that were
read, so that they validate when they stand alone (`Fault.validate_take`).  The last point is not
immediate, since what a byte string is cut into depends on what follows.  It goes through the
rule: the encoding of a text has only one cut.
-/

namespace CallCapture.Utf8

/-- The segments of a byte string that validates are its characters. -/
theorem segments_of_validate_ok {bytes : List UInt8} {text : List Char}
    (h : validate bytes = .ok text) : segments bytes = text.map Segment.scalar := by
  fun_induction validate bytes generalizing text with
  | case1 =>
    obtain rfl := Except.ok.inj h
    exact segments_nil
  | case2 b rest c hc text' hrest ih =>
    obtain rfl := Except.ok.inj h
    rw [segments_cons, hc, Segment.size, ih hrest, List.map_cons]
  | case3 => cases h
  | case4 => cases h

/-- A fault after one more character takes the same bytes. -/
theorem Fault.drop_after (f : Fault) (c : Char) (b : UInt8) (rest : List UInt8) :
    (b :: rest).drop (f.after c).validUpTo = (rest.drop (c.utf8Size - 1)).drop f.validUpTo := by
  have hpos := c.utf8Size_pos
  have hsize : (f.after c).validUpTo = c.utf8Size - 1 + f.validUpTo + 1 := by
    show c.utf8Size + f.validUpTo = _
    omega
  rw [hsize, List.drop_succ_cons, List.drop_drop]

theorem Fault.size_after (f : Fault) (c : Char) (b : UInt8) (rest : List UInt8) :
    (f.after c).size (b :: rest) = f.size (rest.drop (c.utf8Size - 1)) := by
  have hpos := c.utf8Size_pos
  have hleft : (b :: rest).length - (f.after c).validUpTo =
      (rest.drop (c.utf8Size - 1)).length - f.validUpTo := by
    show rest.length + 1 - (c.utf8Size + f.validUpTo) = _
    rw [List.length_drop]
    omega
  rw [Fault.size, Fault.size, hleft]
  rfl

/-- An ill-formed segment at the start of the input is a fault of its size, also where the
input ends inside it and the fault has no length of its own. -/
theorem Fault.size_of_cut (b : UInt8) {rest more : List UInt8} (cut : Bool)
    (hcut : cut = true → more.length = rest.length) :
    Fault.size ⟨[], 0, if cut then none else some (more.length + 1)⟩ (b :: rest) =
      more.length + 1 := by
  cases cut with
  | true =>
    rw [hcut rfl]
    rfl
  | false => rfl

/-- **The fault is the first ill-formed segment.** -/
theorem segments_of_validate_error {bytes : List UInt8} {f : Fault}
    (h : validate bytes = .error f) :
    ∃ first more, (bytes.drop f.validUpTo).take (f.size bytes) = first :: more ∧
      segments bytes = f.text.map Segment.scalar ++ .illFormed first more ::
        segments ((bytes.drop f.validUpTo).drop (f.size bytes)) := by
  fun_induction validate bytes generalizing f with
  | case1 => cases h
  | case2 => cases h
  | case3 b rest c hc fault hf ih =>
    obtain rfl := Except.error.inj h
    obtain ⟨first, more, hbad, hsegments⟩ := ih hf
    rw [Fault.drop_after, Fault.size_after]
    refine ⟨first, more, hbad, ?_⟩
    rw [segments_cons, hc, Segment.size, hsegments]
    rfl
  | case4 b rest x more hx =>
    obtain rfl := Except.error.inj h
    rcases first_cases b rest with ⟨c, hc, -⟩ | ⟨more', hmore, hbytes, -⟩
    · cases hx.symm.trans hc
    · obtain ⟨rfl, rfl⟩ := Segment.illFormed.inj (hx.symm.trans hmore)
      have hcut : ((following? x).isSome && decide (more.length = rest.length)) = true →
          more.length = rest.length := by
        intro hand
        exact of_decide_eq_true (Bool.and_eq_true_iff.1 hand).2
      rw [Fault.size_of_cut x _ hcut]
      refine ⟨x, more, ?_, ?_⟩
      · rw [List.drop_zero, hbytes, List.cons_append, List.take_succ_cons, List.take_left]
      · rw [List.drop_zero, List.drop_succ_cons, segments_cons, hx]
        rfl

/-! ## Escapes -/

/-- The text of a segment in the dump: a character as it is, and an escape for each byte
that is ill-formed. -/
def Segment.rendered : Segment → String
  | .scalar c => .singleton c
  | .illFormed first more => .join ((first :: more).map escape)

theorem Segment.rendered_illFormed (first : UInt8) (more : List UInt8) :
    (Segment.illFormed first more).rendered = .join ((first :: more).map escape) := rfl

/-- Characters are rendered as they are. -/
theorem join_map_rendered_scalar (text : List Char) :
    String.join ((text.map Segment.scalar).map Segment.rendered) = .ofList text := by
  induction text with
  | nil => rfl
  | cons c text ih =>
    rw [List.map_cons, List.map_cons, String.join_cons, ih, Segment.rendered, String.ofList_cons]

/-- **Bytes are escaped segment by segment.** -/
theorem join_escaped (bytes : List UInt8) :
    String.join (escaped bytes) = String.join ((segments bytes).map Segment.rendered) := by
  fun_induction escaped bytes with
  | case1 bytes text h =>
    rw [segments_of_validate_ok h, join_map_rendered_scalar, String.join_cons, String.join_nil,
      String.append_empty]
  | case2 bytes fault h bad rest ih =>
    obtain ⟨first, more, hbad, hsegments⟩ := segments_of_validate_error h
    have hbad' : bad = first :: more := hbad
    have hrest : segments bytes =
        fault.text.map Segment.scalar ++ .illFormed first more :: segments rest := hsegments
    calc String.join (.ofList fault.text :: bad.map escape ++ escaped rest)
      _ = .ofList fault.text ++ (String.join (bad.map escape) ++ String.join (escaped rest)) := by
        rw [String.join_append, String.join_cons, String.append_assoc]
      _ = String.join ((fault.text.map Segment.scalar).map Segment.rendered) ++
          ((Segment.illFormed first more).rendered ++
            String.join ((segments rest).map Segment.rendered)) := by
        rw [join_map_rendered_scalar, Segment.rendered_illFormed, ← hbad', ih]
      _ = String.join ((segments bytes).map Segment.rendered) := by
        rw [hrest, List.map_append, List.map_cons, String.join_append, String.join_cons]

/-! ## What a fault says about the bytes -/

variable {bytes : List UInt8} {f : Fault}

/-! ### The bytes at fault -/

/-- The fault lies inside the bytes. -/
theorem Fault.validUpTo_add_size_le (h : validate bytes = .error f) :
    f.validUpTo + f.size bytes ≤ bytes.length := by
  fun_induction validate bytes generalizing f with
  | case1 => cases h
  | case2 => cases h
  | case3 b rest c hc fault hf ih =>
    obtain rfl := Except.error.inj h
    have hrest := ih hf
    have hfirst := Segment.size_first_le b rest
    have hpos := c.utf8Size_pos
    rw [hc, Segment.size] at hfirst
    rw [List.length_drop] at hrest
    rw [Fault.size_after, List.length_cons]
    show c.utf8Size + fault.validUpTo + _ ≤ _
    omega
  | case4 b rest x more hx =>
    obtain rfl := Except.error.inj h
    have hfirst := Segment.size_first_le b rest
    rw [hx, Segment.size] at hfirst
    rw [Fault.size_of_cut b _ fun hand => of_decide_eq_true (Bool.and_eq_true_iff.1 hand).2,
      List.length_cons, Nat.zero_add]
    exact hfirst

/-- **At most three bytes are at fault**, also where the input breaks off. -/
theorem Fault.size_le_three (h : validate bytes = .error f) : f.size bytes ≤ 3 := by
  obtain ⟨first, more, hbad, hsegments⟩ := segments_of_validate_error h
  have hmem : .illFormed first more ∈ segments bytes := by simp [hsegments]
  obtain ⟨rest, hsub⟩ := (cut_segments bytes).exists_maximalSubpart hmem
  have hlen := congrArg List.length hbad
  have hinside := Fault.validUpTo_add_size_le h
  rw [List.length_take, List.length_drop, Nat.min_eq_left (by omega)] at hlen
  rw [hlen]
  exact hsub.length_le_three

/-! ### The bytes before the fault -/

/-- The bytes before a fault are those of the characters that were read. -/
theorem Fault.take_validUpTo (h : validate bytes = .error f) :
    bytes.take f.validUpTo = f.text.flatMap String.utf8EncodeChar := by
  fun_induction validate bytes generalizing f with
  | case1 => cases h
  | case2 => cases h
  | case3 b rest c hc fault hf ih =>
    obtain rfl := Except.error.inj h
    rcases first_cases b rest with ⟨d, hd, hbytes⟩ | ⟨more, hmore, -⟩
    · obtain rfl := Segment.scalar.inj (hc.symm.trans hd)
      show (b :: rest).take (c.utf8Size + fault.validUpTo) = (c :: fault.text).flatMap _
      rw [hbytes, ← String.length_utf8EncodeChar, List.take_length_add_append,
        String.length_utf8EncodeChar, ih hf, List.flatMap_cons]
    · cases hc.symm.trans hmore
  | case4 =>
    obtain rfl := Except.error.inj h
    rfl

/-- **A text that is encoded validates**, and gives its characters back. -/
theorem validate_encode (text : List Char) :
    validate (text.flatMap String.utf8EncodeChar) = .ok text := by
  have hcut := (cut_encode text).unique (cut_segments _)
  cases h : validate (text.flatMap String.utf8EncodeChar) with
  | ok chars =>
    have hmap : chars.map Segment.scalar = text.map Segment.scalar :=
      (segments_of_validate_ok h).symm.trans hcut
    rw [(List.map_inj_right fun _ _ => Segment.scalar.inj).1 hmap]
  | error f =>
    -- a fault would be an ill-formed segment among characters
    obtain ⟨first, more, -, hsegments⟩ := segments_of_validate_error h
    have hmem : .illFormed first more ∈ text.map Segment.scalar := by simp [← hcut, hsegments]
    obtain ⟨c, -, hc⟩ := List.mem_map.1 hmem
    exact nomatch hc

/-- **The bytes before a fault validate** when they stand alone. -/
theorem Fault.validate_take (h : validate bytes = .error f) :
    validate (bytes.take f.validUpTo) = .ok f.text := by
  rw [Fault.take_validUpTo h, validate_encode]

/-! ### Cutting at a fault -/

/-- What a cut before and a cut behind the bytes at fault rely on. -/
structure Fault.Reliable (f : Fault) (bytes : List UInt8) : Prop where
  /-- The fault does not begin outside the bytes. -/
  validUpTo_le : f.validUpTo ≤ bytes.length
  /-- The bytes before it are those of the text that was read. -/
  encode_text : encode (.ofList f.text) = bytes.take f.validUpTo
  /-- They validate when they stand alone. -/
  validate_take : validate (bytes.take f.validUpTo) = .ok f.text
  /-- Some byte is at fault. -/
  size_pos : 1 ≤ f.size bytes
  /-- The bytes at fault are among those from there on. -/
  size_le : f.size bytes ≤ (bytes.drop f.validUpTo).length
  /-- At most three bytes are at fault. -/
  size_le_three : f.size bytes ≤ 3

/-- **Every fault can be relied on.** -/
theorem Fault.reliable (h : validate bytes = .error f) : f.Reliable bytes where
  validUpTo_le := Nat.le_of_lt (Fault.validUpTo_lt h)
  encode_text := by rw [encode, String.toList_ofList, Fault.take_validUpTo h]
  validate_take := Fault.validate_take h
  size_pos := Fault.size_pos h
  size_le := by
    have hinside := Fault.validUpTo_add_size_le h
    rw [List.length_drop]
    omega
  size_le_three := Fault.size_le_three h

end CallCapture.Utf8
