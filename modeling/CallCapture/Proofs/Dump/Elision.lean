import CallCapture.Proofs.Dump.Rendering
import CallCapture.Value.Reduced

/-!
# Elision is pruning

A limit on elements changes the text and leaves the tree alone; pruning changes the tree.
The dump of a pruned tree under a limit of its own is the dump of the tree under the
smaller of the two limits (`dump_prune`).

The mark that the dump puts in place of elements is, as a text, one more item of the array,
and so is the constant that pruning puts there.  The two could still be told apart by the
limit, which counts items: under a limit of exactly `most` the pruned array has one item
too many and shows the mark in place of the constant, which looks the same.  Arrays of one
element are never elided, and since `most` is positive, pruning neither makes nor changes
one.
-/

namespace CallCapture

namespace Dump

/-! ## Two limits -/

/-- The options with a limit of at most `most`: the smaller of the two limits. -/
def Options.atMost (most : Nat) (o : Options) : Options :=
  ⟨some (match o.maxElements? with
    | none => most
    | some n => min most n)⟩

theorem shown_atMost (most : Nat) (o : Options) (length : Nat) :
    (o.atMost most).shown length = min most (o.shown length) := by
  rcases o with ⟨_ | n⟩
  · rfl
  · exact Nat.min_assoc most n length

theorem shown_le (o : Options) (length : Nat) : o.shown length ≤ length := by
  rcases o with ⟨_ | n⟩
  · exact Nat.le_refl length
  · exact Nat.min_le_right n length

/-- Of `most + 1` items either all are shown, and then at least `most` of any longer list,
or as many as of any longer list. -/
theorem shown_succ_cases (o : Options) {most length : Nat} (h : most < length) :
    o.shown (most + 1) = most + 1 ∧ most ≤ o.shown length ∨
      o.shown (most + 1) ≤ most ∧ o.shown length = o.shown (most + 1) := by
  rcases o with ⟨_ | n⟩
  · exact Or.inl ⟨rfl, Nat.le_of_lt h⟩
  · show min n (most + 1) = most + 1 ∧ most ≤ min n length ∨
      min n (most + 1) ≤ most ∧ min n length = min n (most + 1)
    omega

/-! ## Items -/

/-- The first items, and the mark if there are more. -/
def shortenItems (most : Nat) (items : List String) : List String :=
  if items.length ≤ most then items else items.take most ++ ["..."]

theorem elide_of_shown_lt {o : Options} {items : List String}
    (h : o.shown items.length < items.length) :
    elide o items = items.take (o.shown items.length) ++ ["..."] := by
  rw [elide, if_pos h]

theorem elide_of_shown_eq {o : Options} {items : List String}
    (h : o.shown items.length = items.length) : elide o items = items := by
  rw [elide, h, if_neg (Nat.lt_irrefl _), List.take_length, List.append_nil]

/-- A limit on shortened items is the smaller limit on the items. -/
theorem elide_shortenItems (o : Options) (most : Nat) (items : List String) :
    elide o (shortenItems most items) = elide (o.atMost most) items := by
  have hatMost := shown_atMost most o items.length
  by_cases h : items.length ≤ most
  · have hle := shown_le o items.length
    have hshown : (o.atMost most).shown items.length = o.shown items.length := by omega
    rw [shortenItems, if_pos h, elide, elide, hshown]
  · have hlt : most < items.length := Nat.not_le.1 h
    have hlength : (items.take most ++ ["..."]).length = most + 1 := by
      rw [List.length_append, List.length_take, Nat.min_eq_left (Nat.le_of_lt hlt),
        List.length_singleton]
    rw [shortenItems, if_neg h]
    rcases shown_succ_cases o hlt with ⟨hall, hmost⟩ | ⟨hsome, hsame⟩
    · -- the constant is shown, as the mark is in the longer list
      have hshown : (o.atMost most).shown items.length = most := by omega
      rw [elide_of_shown_eq (by rw [hlength, hall]), elide_of_shown_lt (by rwa [hshown]), hshown]
    · -- the mark is shown in both, after the same items
      have hshown : (o.atMost most).shown items.length = o.shown (most + 1) := by omega
      rw [elide_of_shown_lt (by rw [hlength]; omega), elide_of_shown_lt (by omega), hlength, hshown,
        List.take_append_of_le_length (by rw [List.length_take]; omega), List.take_take,
        Nat.min_eq_left hsome]

theorem arrayText_shortenItems (o : Options) {most : Nat} (hmost : 1 ≤ most)
    (items : List String) :
    arrayText o (shortenItems most items) = arrayText (o.atMost most) items := by
  by_cases h : items.length = 1
  · obtain ⟨item, rfl⟩ := List.length_eq_one_iff.1 h
    have hshort : shortenItems most [item] = [item] := if_pos hmost
    rw [hshort]
    rfl
  · have hne : (shortenItems most items).length ≠ 1 := by
      rw [shortenItems]
      split
      · exact h
      · rw [List.length_append, List.length_take, List.length_singleton]
        omega
    rw [arrayText_of_length_ne_one o hne, arrayText_of_length_ne_one _ h, elide_shortenItems]

/-! ## Values and calls -/

/-- The texts of shortened elements are the shortened texts. -/
theorem map_text_shorten (o : Options) (most : Nat) (vs : List Value) :
    (Value.shorten most vs).map (text o) = shortenItems most (vs.map (text o)) := by
  rw [Value.shorten, shortenItems, List.length_map]
  by_cases h : vs.length ≤ most
  · rw [if_pos h, if_pos h]
  · rw [if_neg h, if_neg h, List.map_append, List.map_take]
    rfl

/-- **The text of a pruned tree** is the text of the tree under the smaller limit. -/
theorem text_prune (o : Options) {most : Nat} (hmost : 1 ≤ most) (v : Value) :
    text o (v.prune most) = text (o.atMost most) v := by
  induction v with
  | array vs ih =>
    have hmap : (vs.map (Value.prune most)).map (text o) = vs.map (text (o.atMost most)) := by
      rw [List.map_map]
      exact List.map_congr_left ih
    rw [Value.prune, Value.pruneAll_eq_map, text_array, text_array, map_text_shorten, hmap,
      arrayText_shortenItems o hmost]
  | _ => rfl

theorem callText_prune (o : Options) {most : Nat} (hmost : 1 ≤ most) (c : Call) :
    callText o (c.prune most) = callText (o.atMost most) c := by
  have hargs : (c.prune most).args.map (argText o) = c.args.map (argText (o.atMost most)) := by
    show (c.args.map fun a => (⟨a.name, a.value.prune most⟩ : Arg)).map (argText o) = _
    rw [List.map_map]
    refine List.map_congr_left fun a _ => ?_
    show a.name ++ " = " ++ text o (a.value.prune most) = argText (o.atMost most) a
    rw [text_prune o hmost, argText]
  have hret : retText o (c.prune most).ret? = retText (o.atMost most) c.ret? := by
    show retText o (c.ret?.map (Value.prune most)) = _
    cases c.ret? with
    | none => rfl
    | some v => rw [Option.map_some, retText, retText, text_prune o hmost]
  rw [callText, callText, hargs, hret]
  rfl

/-- **Elision is pruning.**  The dump of a pruned value or call under some options is the
dump of the value or call under the smaller of the two limits; in particular, a dump with a
limit is the canonical dump of the pruned value or call. -/
theorem dump_prune {most : Nat} (hmost : 1 ≤ most) :
    (∀ (v : Value) (o : Options), (v.prune most).dumpWith o = v.dumpWith (o.atMost most)) ∧
    (∀ v : Value, (v.prune most).dump = v.dumpWith ⟨some most⟩) ∧
    (∀ (c : Call) (o : Options), (c.prune most).dumpWith o = c.dumpWith (o.atMost most)) ∧
    (∀ c : Call, (c.prune most).dump = c.dumpWith ⟨some most⟩) := by
  have hvalue (v : Value) (o : Options) :
      (v.prune most).dumpWith o = v.dumpWith (o.atMost most) := by
    rw [dumpWith_eq_text, dumpWith_eq_text, text_prune o hmost]
  have hcall (c : Call) (o : Options) :
      (c.prune most).dumpWith o = c.dumpWith (o.atMost most) := by
    rw [dumpWith_call_eq_callText, dumpWith_call_eq_callText, callText_prune o hmost]
    rfl
  exact ⟨hvalue, fun v => hvalue v .canonical, hcall, fun c => hcall c .canonical⟩

/-- An inner and an outer array that are both too long, under two limits of which the other is the
smaller one, and a call with such arrays in an argument and in its return value, under two limits
of which the first is. -/
theorem dump_prune_nested :
    1 ≤ 2 ∧
    ((Value.array [.array [.null, .bool true, .null], .null, .null]).prune 2).dumpWith ⟨some 1⟩ =
      (Value.array [.array [.null, .bool true, .null], .null, .null]).dumpWith ⟨some 1⟩ ∧
    (Value.array [.array [.null, .bool true, .null], .null, .null]).dumpWith ⟨some 1⟩ =
      "\x7b\x7bNULL, ...\x7d, ...\x7d" ∧
    (Call.prune 2 ⟨"f", [⟨"p", .array [.array [.null, .null, .null], .null]⟩],
        some (.array [.null, .bool true, .null])⟩).dumpWith ⟨some 3⟩ =
      Call.dumpWith ⟨"f", [⟨"p", .array [.array [.null, .null, .null], .null]⟩],
        some (.array [.null, .bool true, .null])⟩ ⟨some 2⟩ ∧
    (Call.dumpWith ⟨"f", [⟨"p", .array [.array [.null, .null, .null], .null]⟩],
        some (.array [.null, .bool true, .null])⟩ ⟨some 2⟩).result =
      "f(p = \x7b\x7bNULL, NULL, ...\x7d, NULL\x7d) = \x7bNULL, true, ...\x7d\n" :=
  ⟨by decide, (dump_prune (by decide)).1 _ ⟨some 1⟩, by rw [dumpWith_eq_text]; rfl,
    (dump_prune (by decide)).2.2.1 _ ⟨some 3⟩, by rw [dumpWith_call_eq_callText]; rfl⟩

end Dump

end CallCapture
