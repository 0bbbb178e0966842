import CallCapture.Dump.Grammar
import CallCapture.Proofs.Dump.Rendering
import CallCapture.Proofs.Json.Numbers
import CallCapture.Proofs.Json.Reading
import CallCapture.Proofs.Utf8.Validation

/-!
# One line for each call

The line ends in the dump of a call are counted on the tree: one at the end of the call, and
those of the names and strings that are shown.  Nothing else that is written has a line end ---
numbers, separators, marks and escapes are printable --- and a line end in a string is never
hidden in an escape, because no ill-formed part of a string has an ASCII byte in it.

* `Dump.lineEnds_body` --- a string shows as many line ends as it has bytes `0A`.
* `Dump.lineEnds_text`, `Dump.lineEnds_callText` --- the line ends of values and calls.
* `Dump.lines_join` --- texts that each end their only line are the lines of their
  concatenation.
-/

namespace CallCapture

/-! ## Bytes of line ends -/

namespace Utf8

/-- The encoding of a character that is not ASCII has no ASCII byte. -/
theorem le_of_mem_utf8EncodeChar {c : Char} (hc : 0x80 ≤ c.toNat) {x : UInt8}
    (hx : x ∈ String.utf8EncodeChar c) : 0x80 ≤ x := by
  obtain ⟨b, more, hbytes, hcompletes, hcode⟩ := exists_completes c
  rw [hbytes] at hx
  rcases List.mem_cons.1 hx with rfl | hmore
  · rw [UInt8.le_iff_toNat_le]
    show 0x80 ≤ x.toNat
    cases hcompletes with
    | one h =>
      rw [codePoint] at hcode
      omega
    | two h _ _ => omega
    | three h _ _ _ => omega
    | four h _ _ _ _ => omega
  · exact hcompletes.le_of_mem hmore

/-- The encoding of a character has the byte of a line end if the character is one. -/
theorem count_utf8EncodeChar (c : Char) :
    (String.utf8EncodeChar c).count 0x0A = [c].count '\n' := by
  by_cases hc : c.toNat ≤ 0x7F
  · by_cases hend : c = '\n'
    · subst hend
      rfl
    · have hne : UInt8.ofNat c.toNat ≠ 0x0A := by
        intro h
        have hbyte : (UInt8.ofNat c.toNat).toNat = c.toNat :=
          UInt8.toNat_ofNat_of_lt (Nat.lt_of_le_of_lt hc (by decide))
        rw [h] at hbyte
        exact hend (Char.toNat_inj.1 hbyte.symm)
      rw [utf8EncodeChar_one hc, List.count_eq_zero.2, List.count_eq_zero.2]
      · rwa [List.mem_singleton, eq_comm]
      · rwa [List.mem_singleton, eq_comm]
  · rw [List.count_eq_zero.2, List.count_eq_zero.2]
    · rw [List.mem_singleton]
      rintro rfl
      exact hc (by decide)
    · intro hmem
      exact absurd (le_of_mem_utf8EncodeChar (Nat.not_le.1 hc) hmem) (by decide)

end Utf8

namespace Dump

/-! ## Counting -/

theorem lineEnds_append (s t : String) : lineEnds (s ++ t) = lineEnds s + lineEnds t := by
  rw [lineEnds, String.toList_append, List.count_append]
  rfl

theorem total_append (ms ns : List Nat) : total (ms ++ ns) = total ms + total ns := by
  induction ms with
  | nil => rw [List.nil_append, total, Nat.zero_add]
  | cons m ms ih => rw [List.cons_append, total, total, ih, Nat.add_assoc]

/-- Commas between items add no line end. -/
theorem lineEnds_intercalate (items : List String) :
    lineEnds (", ".intercalate items) = total (items.map lineEnds) := by
  induction items with
  | nil => rfl
  | cons item items ih =>
    cases items with
    | nil => rw [String.intercalate_singleton, List.map_singleton, total, total, Nat.add_zero]
    | cons next items =>
      have hcomma : lineEnds ", " = 0 := rfl
      rw [String.intercalate_cons_cons, lineEnds_append, lineEnds_append, ih, hcomma, Nat.add_zero]
      rfl

/-! ## Numbers -/

theorem lineEnds_of_printable {text : String} (h : Json.Printable text.toList) :
    lineEnds text = 0 := by
  refine List.count_eq_zero.2 fun hmem => ?_
  exact absurd (h '\n' hmem) (by decide)

theorem lineEnds_natText (n : Nat) : lineEnds (natText n) = 0 :=
  lineEnds_of_printable (Json.printable_of_isNumber (Json.Reader.isNumber_natText n))

theorem lineEnds_intText (n : Int) : lineEnds (intText n) = 0 :=
  lineEnds_of_printable (Json.printable_of_isNumber (Json.Reader.isNumber_intText n))

theorem lineEnds_number (x : Double) : lineEnds (number.text x) = 0 := by
  by_cases hx : x.isFinite = true
  · exact lineEnds_of_printable
      (Json.printable_of_isNumber (Json.Reader.isNumber_text rfl (Or.inl rfl) hx))
  · have hnan : lineEnds number.nan = 0 := rfl
    have hinfinity : lineEnds number.infinity = 0 := rfl
    have hnegInfinity : lineEnds number.negInfinity = 0 := rfl
    rw [Layout.text]
    split
    · exact hnan
    · split
      · split
        · exact hnegInfinity
        · exact hinfinity
      · next hn hi =>
        rw [Double.isFinite_eq, Bool.eq_false_iff.2 hn, Bool.eq_false_iff.2 hi] at hx
        exact absurd rfl hx

/-! ## Strings -/

theorem lineEnds_escape (b : UInt8) : lineEnds (Utf8.escape b) = 0 := by
  have hb := b.toNat_lt
  have hhigh := Json.Reader.le_toNat_digitChar (n := b.toNat / 16) (by omega)
  have hlow := Json.Reader.le_toNat_digitChar (n := b.toNat % 16) (by omega)
  refine lineEnds_of_printable ?_
  intro c hc
  rw [Utf8.escape, String.toList_ofList, Utf8.hex] at hc
  simp only [List.mem_cons, List.not_mem_nil, or_false] at hc
  rcases hc with rfl | rfl | rfl | rfl
  · decide
  · decide
  · exact hhigh
  · exact hlow

theorem lineEnds_join_escape (bytes : List UInt8) :
    lineEnds (String.join (bytes.map Utf8.escape)) = 0 := by
  induction bytes with
  | nil => rfl
  | cons b bytes ih =>
    rw [List.map_cons, String.join_cons, lineEnds_append, lineEnds_escape, ih]

/-- Along a cut, the line ends that are shown are the bytes of line ends: a character shows its
own, and an ill-formed part has none. -/
theorem lineEnds_rendered {bytes : List UInt8} {ss : List Utf8.Segment} (h : Utf8.Cut bytes ss) :
    lineEnds (String.join (ss.map Utf8.Segment.rendered)) = bytes.count 0x0A := by
  induction h with
  | nil => rfl
  | @scalar c rest ss _ ih =>
    have hc : lineEnds (.singleton c) = [c].count '\n' := by
      rw [lineEnds, String.toList_singleton]
    rw [List.map_cons, String.join_cons, lineEnds_append, Utf8.Segment.rendered, hc, ih,
      List.count_append, Utf8.count_utf8EncodeChar]
  | @illFormed first more rest ss hsub _ ih =>
    have hnone : (first :: more).count 0x0A = 0 :=
      List.count_eq_zero.2 fun hmem => absurd (hsub.le_of_mem hmem) (by decide)
    rw [List.map_cons, String.join_cons, lineEnds_append, Utf8.Segment.rendered_illFormed,
      lineEnds_join_escape, ih, List.count_append, hnone]

/-- **A string shows its line ends**, and no other. -/
theorem lineEnds_body (bytes : List UInt8) : lineEnds (body bytes) = bytes.count 0x0A := by
  rw [body, Utf8.join_escaped, lineEnds_rendered (Utf8.cut_segments bytes)]

/-! ## Values and calls -/

/-- An array shows the line ends of the elements that it shows. -/
theorem lineEnds_arrayText (o : Options) (items : List String) :
    lineEnds (arrayText o items) =
      total ((items.map lineEnds).take (o.shownElements items.length)) := by
  have hopen : lineEnds "\x7b" = 0 := rfl
  have hclose : lineEnds "\x7d" = 0 := rfl
  by_cases hone : items.length = 1
  · obtain ⟨item, rfl⟩ := List.length_eq_one_iff.1 hone
    have hmark : lineEnds "&" = 0 := rfl
    rw [arrayText, lineEnds_append, hmark, Nat.zero_add]
    rfl
  · have hmark : total ((if o.shown items.length < items.length then ["..."] else []).map
        lineEnds) = 0 := by
      split
      · rfl
      · rfl
    rw [arrayText_of_length_ne_one o hone, lineEnds_append, lineEnds_append, hopen, hclose,
      lineEnds_intercalate, elide, List.map_append, total_append, hmark, List.map_take,
      Options.shownElements, if_neg hone, Nat.zero_add]
    rfl

/-- **The line ends of a value** are those of the names and strings that are shown. -/
theorem lineEnds_text (o : Options) (v : Value) : lineEnds (text o v) = valueLineEnds o v := by
  induction v with
  | null =>
    have hnull : lineEnds "NULL" = 0 := rfl
    exact hnull
  | bool b =>
    have htrue : lineEnds "true" = 0 := rfl
    have hfalse : lineEnds "false" = 0 := rfl
    cases b with
    | true => exact htrue
    | false => exact hfalse
  | sint n => exact lineEnds_intText n.toInt
  | uint n => exact lineEnds_natText n.toNat
  | float x => exact lineEnds_number x
  | str bytes =>
    have hquote : lineEnds "\"" = 0 := rfl
    rw [text, lineEnds_append, lineEnds_append, hquote, lineEnds_body, Nat.zero_add,
      valueLineEnds]
    rfl
  | const name v ih => rfl
  | array vs ih =>
    have hvs : (vs.map (text o)).map lineEnds = vs.map (valueLineEnds o) := by
      rw [List.map_map]
      exact List.map_congr_left ih
    rw [text_array, lineEnds_arrayText, hvs, List.length_map, valueLineEnds,
      elementLineEnds_eq_map]
  | blob bytes =>
    have hdots : lineEnds "... " = 0 := rfl
    rw [text, lineEnds_append, hdots, lineEnds_natText]
    rfl

theorem lineEnds_argText (o : Options) (a : Arg) : lineEnds (argText o a) = argLineEnds o a := by
  have hequals : lineEnds " = " = 0 := rfl
  rw [argText, lineEnds_append, lineEnds_append, hequals, lineEnds_text, Nat.add_zero, argLineEnds]

theorem lineEnds_retText (o : Options) (ret? : Option Value) :
    lineEnds (retText o ret?) = retLineEnds o ret? := by
  cases ret? with
  | none => rfl
  | some v =>
    have hequals : lineEnds " = " = 0 := rfl
    rw [retText, lineEnds_append, hequals, lineEnds_text, Nat.zero_add, retLineEnds]

/-- **The line ends of a call** are the one at its end and those that it shows. -/
theorem lineEnds_callText (o : Options) (c : Call) :
    lineEnds (callText o c) = 1 + callLineEnds o c := by
  have hopen : lineEnds "(" = 0 := rfl
  have hclose : lineEnds ")" = 0 := rfl
  have hend : lineEnds "\n" = 1 := rfl
  have hargs : (c.args.map (argText o)).map lineEnds = c.args.map (argLineEnds o) := by
    rw [List.map_map]
    exact List.map_congr_left fun a _ => lineEnds_argText o a
  simp only [callText, lineEnds_append, lineEnds_intercalate, lineEnds_retText, hargs, hopen,
    hclose, hend, callLineEnds, argsLineEnds]
  omega

/-! ## Lines -/

/-- A line with its line end is cut off what follows. -/
theorem cutLines_append {line : List Char} (h : '\n' ∉ line) (rest : List Char) :
    cutLines (line ++ '\n' :: rest) = (line ++ ['\n']) :: cutLines rest := by
  induction line with
  | nil => rfl
  | cons c line ih =>
    rw [List.mem_cons, not_or] at h
    rw [List.cons_append, cutLines, if_neg (Ne.symm h.1), ih h.2]
    rfl

/-- A text is a line: it has one line end, at its end. -/
def IsLine (text : String) : Prop :=
  ∃ line : List Char, '\n' ∉ line ∧ text.toList = line ++ ['\n']

/-- **Lines that are put together are cut apart again.** -/
theorem lines_join {texts : List String} (h : ∀ text ∈ texts, IsLine text) :
    lines (String.join texts) = texts := by
  induction texts with
  | nil => rfl
  | cons text texts ih =>
    obtain ⟨hline, hrest⟩ := List.forall_mem_cons.1 h
    obtain ⟨line, hnot, htext⟩ := hline
    have hcut : cutLines (String.join (text :: texts)).toList =
        (line ++ ['\n']) :: cutLines (String.join texts).toList := by
      rw [String.join_cons, String.toList_append, htext, List.append_assoc]
      exact cutLines_append hnot _
    rw [lines, hcut, List.map_cons, ← htext, String.ofList_toList]
    exact congrArg (text :: ·) (ih hrest)

/-- There are as many line ends as lines. -/
theorem lineEnds_join {texts : List String} (h : ∀ text ∈ texts, IsLine text) :
    lineEnds (String.join texts) = texts.length := by
  induction texts with
  | nil => rfl
  | cons text texts ih =>
    obtain ⟨hline, hrest⟩ := List.forall_mem_cons.1 h
    obtain ⟨line, hnot, htext⟩ := hline
    have hone : lineEnds text = 1 := by
      rw [lineEnds, htext, List.count_append, List.count_eq_zero.2 hnot]
      rfl
    rw [String.join_cons, lineEnds_append, hone, ih hrest, List.length_cons, Nat.add_comm]

/-- The dump of a call that shows no line end of a name or string is a line. -/
theorem isLine_callText {o : Options} {c : Call} (h : callLineEnds o c = 0) :
    IsLine (callText o c) := by
  have hend : lineEnds "\n" = 1 := rfl
  have hcount := lineEnds_callText o c
  rw [h, callText, lineEnds_append, hend, Nat.add_comm] at hcount
  refine ⟨_, List.count_eq_zero.1 (Nat.add_left_cancel hcount), ?_⟩
  rw [callText, String.toList_append]
  rfl

theorem result_dumpWith_eq_callText (o : Options) (c : Call) : (c.dumpWith o).result = callText o c := by
  rw [dumpWith_call_eq_callText]
  rfl

/-- **Each call has its line.**  The dump of a call ends its line, and has as many line ends
more as the names and strings that it shows.  So the dumps of calls that show none are the lines
of the text that they make up, one for each call and in order. -/
theorem call_lines (o : Options) :
    (∀ c : Call,
      (∃ start, (c.dumpWith o).result = start ++ "\n") ∧
        lineEnds (c.dumpWith o).result = 1 + callLineEnds o c) ∧
    (∀ calls : List Call, (∀ c ∈ calls, callLineEnds o c = 0) →
      lineEnds (String.join (calls.map fun c => (c.dumpWith o).result)) = calls.length ∧
        lines (String.join (calls.map fun c => (c.dumpWith o).result)) =
          calls.map fun c => (c.dumpWith o).result) := by
  simp only [result_dumpWith_eq_callText]
  refine ⟨fun c => ⟨⟨_, rfl⟩, lineEnds_callText o c⟩, fun calls hcalls => ?_⟩
  have hlines : ∀ text ∈ calls.map (callText o), IsLine text := by
    intro text htext
    obtain ⟨c, hc, rfl⟩ := List.mem_map.1 htext
    exact isLine_callText (hcalls c hc)
  exact ⟨by rw [lineEnds_join hlines, List.length_map], lines_join hlines⟩

/-- Two calls whose strings have line ends that are not shown, one past the limit and one under a
constant. -/
theorem call_lines_hidden :
    let calls := [(Call.named "f").pushArg "a" (.array [.bool true, .str [0x0A]]),
      ((Call.named "g").pushArg "b" (.const "N" (.str [0x0A]))).setRet .null]
    (∀ c ∈ calls, callLineEnds ⟨some 1⟩ c = 0) ∧
      lines (String.join (calls.map fun c => (c.dumpWith ⟨some 1⟩).result)) =
        ["f(a = \x7btrue, ...\x7d)\n", "g(b = N) = NULL\n"] := by
  intro calls
  have hnone : ∀ c ∈ calls, callLineEnds ⟨some 1⟩ c = 0 := by
    decide
  refine ⟨hnone, ((call_lines ⟨some 1⟩).2 calls hnone).2.trans ?_⟩
  simp only [result_dumpWith_eq_callText]
  rfl

end Dump

end CallCapture
