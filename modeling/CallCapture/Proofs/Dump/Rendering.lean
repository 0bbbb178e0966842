import CallCapture.Dump.Grammar
import CallCapture.Proofs.Sink.Delivery

/-!
# What the dump writes

The handlers of the dump write into a sink as they go, with a separator that changes on
the way and an end at the first refusal.  None of this depends on the sink: there is a list
of pieces, the *script*, such that dumping is writing the script, whatever the sink.

* `Dump.script`, `Dump.callScript` --- the pieces, by recursion on the value.
* `Dump.value_eq_writeAll`, `Dump.call_eq_writeAll` --- dumping writes the script.
* `Dump.pieces_eq_script`, `Dump.callPieces_eq_callScript` --- the script is what a sink
  sees that keeps every piece.
* `Dump.dumpWith_eq_join_script`, `Dump.result_dumpWith_call` --- its pieces spell the dump.

The script has separators that are pieces of their own, the first of them empty, and a mark that
follows whatever separator is due.  Spelled out, this is the text of the grammar, in which items
are joined by commas.

* `Dump.join_itemsScript` --- separators written one by one join the items.
* `Dump.join_shown_mark` --- the mark is one more item.
* `Dump.dumpWith_eq_text`, `Dump.dumpWith_call_eq_callText` --- the dump is the text of the
  grammar.
-/

namespace CallCapture

namespace Dump

variable {σ : Type}

/-! ## Lists of items -/

/-- The pieces of items with a separator before all but the first. -/
def itemsScript (separator : String) : List (List String) → List String
  | [] => []
  | item :: rest => separator :: (item ++ itemsScript ", " rest)

/-- The separator that belongs before whatever follows the items. -/
def separatorAfter (separator : String) : List (List String) → String
  | [] => separator
  | _ :: _ => ", "

/-- The mark in place of elements that are left out. -/
def markScript (o : Options) (elements : List (List String)) : List String :=
  if o.shown elements.length < elements.length then
    [separatorAfter "" (elements.take (o.shown elements.length)), "..."]
  else
    []

/-- The pieces of an array, given those of its elements. -/
def arrayScript (o : Options) : List (List String) → List String
  | [element] => "&" :: element
  | elements =>
    "\x7b" :: (itemsScript "" (elements.take (o.shown elements.length)) ++
      markScript o elements ++ ["\x7d"])

/-- Items that write their pieces write the pieces of the list. -/
theorem items_map_writeAll (k : Sink σ) (separator : String) (scripts : List (List String)) :
    items k separator (scripts.map k.writeAll) =
      (do k.writeAll (itemsScript separator scripts)
          pure (separatorAfter separator scripts)) := by
  induction scripts generalizing separator with
  | nil => rw [List.map_nil, items, itemsScript, Sink.writeAll_nil, pure_bind, separatorAfter]
  | cons script scripts ih =>
    have hsep : separatorAfter ", " scripts = ", " := by cases scripts <;> rfl
    rw [List.map_cons, items, ih, hsep, itemsScript, Sink.writeAll_cons, Sink.writeAll_append,
      separatorAfter]
    simp only [bind_assoc]

theorem array_of_length_ne_one (k : Sink σ) (o : Options) {elements : List (Writing σ Unit)}
    (h : elements.length ≠ 1) :
    array k o elements = (do
      k.write "\x7b"
      let separator ← items k "" (elements.take (o.shown elements.length))
      if o.shown elements.length < elements.length then
        k.write separator
        k.write "..."
      k.write "\x7d") := by
  rcases elements with _ | ⟨first, _ | ⟨second, rest⟩⟩
  · rfl
  · exact absurd rfl h
  · rfl

theorem arrayScript_of_length_ne_one (o : Options) {scripts : List (List String)}
    (h : scripts.length ≠ 1) :
    arrayScript o scripts =
      "\x7b" :: (itemsScript "" (scripts.take (o.shown scripts.length)) ++
        markScript o scripts ++ ["\x7d"]) := by
  rcases scripts with _ | ⟨first, _ | ⟨second, rest⟩⟩
  · rfl
  · exact absurd rfl h
  · rfl

/-- An array whose elements write their pieces writes the pieces of the array. -/
theorem array_map_writeAll (k : Sink σ) (o : Options) (scripts : List (List String)) :
    array k o (scripts.map k.writeAll) = k.writeAll (arrayScript o scripts) := by
  by_cases h : scripts.length = 1
  · obtain ⟨element, rfl⟩ := List.length_eq_one_iff.1 h
    rfl
  · have hmap : (scripts.map k.writeAll).length ≠ 1 := by rwa [List.length_map]
    rw [array_of_length_ne_one k o hmap, arrayScript_of_length_ne_one o h, Sink.writeAll_cons,
      Sink.writeAll_append, Sink.writeAll_append, Sink.writeAll_singleton, List.length_map,
      ← List.map_take, items_map_writeAll]
    by_cases hmark : o.shown scripts.length < scripts.length
    · rw [markScript, if_pos hmark, Sink.writeAll_cons, Sink.writeAll_singleton]
      simp only [if_pos hmark, bind_assoc, pure_bind]
    · rw [markScript, if_neg hmark, Sink.writeAll_nil]
      simp only [if_neg hmark, bind_assoc, pure_bind]

/-! ## Values -/

/-- The handlers that list the pieces of a value. -/
def scriptVisitor (o : Options) : Visitor (List String) where
  null := ["NULL"]
  bool b := [if b then "true" else "false"]
  sint n := [intText n.toInt]
  uint n := [natText n.toNat]
  float x := [number.text x]
  str bytes := "\"" :: (Utf8.escaped bytes ++ ["\""])
  const name _ := [name]
  array := arrayScript o
  blob bytes := ["... ", natText bytes.size]

/-- The pieces of a value. -/
def script (o : Options) (v : Value) : List String :=
  v.visit (scriptVisitor o)

theorem script_array (o : Options) (vs : List Value) :
    script o (.array vs) = arrayScript o (vs.map (script o)) :=
  Value.visit_array (scriptVisitor o) vs

/-- **Dumping a value writes its script**, whatever the sink. -/
theorem value_eq_writeAll (k : Sink σ) (o : Options) (v : Value) :
    value k o v = k.writeAll (script o v) := by
  induction v with
  | null => exact (k.writeAll_singleton _).symm
  | bool b => exact (k.writeAll_singleton _).symm
  | sint n => exact (k.writeAll_singleton _).symm
  | uint n => exact (k.writeAll_singleton _).symm
  | float x => exact (k.writeAll_singleton _).symm
  | str bytes =>
    show (do k.write "\""; k.writeAll (Utf8.escaped bytes); k.write "\"") =
      k.writeAll ("\"" :: (Utf8.escaped bytes ++ ["\""]))
    rw [Sink.writeAll_cons, Sink.writeAll_append, Sink.writeAll_singleton]
  | const name v ih => exact (k.writeAll_singleton _).symm
  | array vs ih =>
    have hmap : vs.map (value k o) = (vs.map (script o)).map k.writeAll := by
      rw [List.map_map]
      exact List.map_congr_left ih
    rw [script_array, ← array_map_writeAll, ← hmap]
    exact Value.visit_array (visitor k o) vs
  | blob bytes =>
    show (do k.write "... "; k.write (natText bytes.size)) =
      k.writeAll ["... ", natText bytes.size]
    rw [Sink.writeAll_cons, Sink.writeAll_singleton]

/-! ## Calls -/

/-- The pieces of an argument. -/
def argScript (o : Options) (a : Arg) : List String :=
  a.name :: " = " :: script o a.value

/-- The pieces of the return value. -/
def retScript (o : Options) : Option Value → List String
  | none => []
  | some v => " = " :: script o v

/-- The pieces of a call. -/
def callScript (o : Options) (c : Call) : List String :=
  c.name :: "(" ::
    (itemsScript "" (c.args.map (argScript o)) ++ ")" :: (retScript o c.ret? ++ ["\n"]))

theorem argument_eq_writeAll (k : Sink σ) (o : Options) (a : Arg) :
    argument k o a = k.writeAll (argScript o a) := by
  rw [argument, argScript, Sink.writeAll_cons, Sink.writeAll_cons, value_eq_writeAll]

theorem returned_eq_writeAll (k : Sink σ) (o : Options) (ret? : Option Value) :
    returned k o ret? = k.writeAll (retScript o ret?) := by
  cases ret? with
  | none => rfl
  | some v => rw [returned, retScript, Sink.writeAll_cons, value_eq_writeAll]

/-- **Dumping a call writes its script**, whatever the sink. -/
theorem call_eq_writeAll (k : Sink σ) (o : Options) (c : Call) :
    call k o c = k.writeAll (callScript o c) := by
  have hargs : c.args.map (argument k o) = (c.args.map (argScript o)).map k.writeAll := by
    rw [List.map_map]
    exact List.map_congr_left fun a _ => argument_eq_writeAll k o a
  rw [call, hargs, items_map_writeAll, returned_eq_writeAll, callScript, Sink.writeAll_cons,
    Sink.writeAll_cons, Sink.writeAll_append, Sink.writeAll_cons, Sink.writeAll_append,
    Sink.writeAll_singleton]
  simp only [bind_assoc, pure_bind]

/-! ## What the script spells -/

/-- A sink that keeps every piece ends with the pieces that were written. -/
theorem startFrom_writeAll_pieces (ps seen : List String) :
    (Sink.pieces.writeAll ps).startFrom seen = (.ok (), seen ++ ps) := by
  induction ps generalizing seen with
  | nil => rw [List.append_nil]; rfl
  | cons p ps ih =>
    have hoffer : Sink.pieces.offer seen p = (true, seen ++ [p]) := rfl
    rw [Sink.startFrom_writeAll_of_accepted hoffer, ih, List.append_assoc, List.singleton_append]

theorem pieces_eq_script (o : Options) (v : Value) : pieces o v = script o v := by
  rw [pieces, value_eq_writeAll, startFrom_writeAll_pieces, List.nil_append]

theorem callPieces_eq_callScript (o : Options) (c : Call) : callPieces o c = callScript o c := by
  rw [callPieces, call_eq_writeAll, startFrom_writeAll_pieces, List.nil_append]

theorem dumpWith_eq_join_script (v : Value) (o : Options) :
    v.dumpWith o = String.join (script o v) := by
  rw [Value.dumpWith, Value.dumpInto, value_eq_writeAll, Sink.startFrom_writeAll_text,
    String.empty_append]

theorem result_dumpWith_call (c : Call) (o : Options) :
    (c.dumpWith o).result = String.join (callScript o c) := by
  show ((call Sink.text o c).startFrom "").2 = _
  rw [call_eq_writeAll, Sink.startFrom_writeAll_text, String.empty_append]

/-! ## The text of items -/

theorem join_itemsScript_cons (separator : String) (script : List String)
    (scripts : List (List String)) :
    String.join (itemsScript separator (script :: scripts)) =
      separator ++ ", ".intercalate ((script :: scripts).map String.join) := by
  induction scripts generalizing separator script with
  | nil =>
    rw [itemsScript, itemsScript, List.append_nil, String.join_cons, List.map_singleton,
      String.intercalate_singleton]
  | cons next scripts ih =>
    rw [itemsScript, String.join_cons, String.join_append, ih, List.map_cons, List.map_cons,
      List.map_cons, String.intercalate_cons_cons, String.append_assoc]

/-- Items written with no separator before the first are joined by commas. -/
theorem join_itemsScript (scripts : List (List String)) :
    String.join (itemsScript "" scripts) = ", ".intercalate (scripts.map String.join) := by
  cases scripts with
  | nil => rfl
  | cons script scripts => rw [join_itemsScript_cons, String.empty_append]

/-- What is written after items, with the separator that is due, is one more item. -/
theorem join_itemsScript_mark (scripts : List (List String)) (mark : String) :
    String.join (itemsScript "" scripts ++ [separatorAfter "" scripts, mark]) =
      ", ".intercalate (scripts.map String.join ++ [mark]) := by
  rw [String.join_append, join_itemsScript, String.join_cons, join_single]
  cases scripts with
  | nil =>
    rw [List.map_nil, List.nil_append, String.intercalate_nil, String.intercalate_singleton,
      separatorAfter, String.empty_append, String.empty_append]
  | cons script scripts =>
    rw [String.intercalate_append_of_ne_nil (by simp) (by simp), String.intercalate_singleton,
      separatorAfter, String.append_assoc]

/-! ## The text of arrays -/

/-- The elements that are shown and the mark spell the items of the array with the limit
applied. -/
theorem join_shown_mark (o : Options) (scripts : List (List String)) :
    String.join (itemsScript "" (scripts.take (o.shown scripts.length)) ++ markScript o scripts) =
      ", ".intercalate (elide o (scripts.map String.join)) := by
  rw [elide, markScript, List.length_map, ← List.map_take]
  by_cases h : o.shown scripts.length < scripts.length
  · rw [if_pos h, if_pos h, join_itemsScript_mark]
  · rw [if_neg h, if_neg h, List.append_nil, List.append_nil, join_itemsScript]

theorem arrayText_of_length_ne_one (o : Options) {items : List String} (h : items.length ≠ 1) :
    arrayText o items = "\x7b" ++ ", ".intercalate (elide o items) ++ "\x7d" := by
  rcases items with _ | ⟨first, _ | ⟨second, rest⟩⟩
  · rfl
  · exact absurd rfl h
  · rfl

theorem join_arrayScript (o : Options) (scripts : List (List String)) :
    String.join (arrayScript o scripts) = arrayText o (scripts.map String.join) := by
  by_cases h : scripts.length = 1
  · obtain ⟨element, rfl⟩ := List.length_eq_one_iff.1 h
    exact String.join_cons
  · have hmap : (scripts.map String.join).length ≠ 1 := by rwa [List.length_map]
    rw [arrayScript_of_length_ne_one o h, arrayText_of_length_ne_one o hmap, String.join_cons,
      String.join_append, join_shown_mark, join_single, String.append_assoc]

/-! ## The text of values and calls -/

theorem text_array (o : Options) (vs : List Value) :
    text o (.array vs) = arrayText o (vs.map (text o)) := by
  rw [text, texts_eq_map]

/-- The script of a value spells its text. -/
theorem join_script (o : Options) (v : Value) : String.join (script o v) = text o v := by
  induction v with
  | str bytes =>
    show String.join ("\"" :: (Utf8.escaped bytes ++ ["\""])) = "\"" ++ body bytes ++ "\""
    rw [String.join_cons, String.join_append, join_single, String.append_assoc, body]
  | array vs ih =>
    rw [script_array, join_arrayScript, text_array, List.map_map]
    exact congrArg (arrayText o) (List.map_congr_left ih)
  | blob bytes =>
    show String.join ["... ", natText bytes.size] = "... " ++ natText bytes.size
    rw [String.join_cons, join_single]
  | _ => exact join_single _

theorem join_argScript (o : Options) (a : Arg) : String.join (argScript o a) = argText o a := by
  rw [argScript, String.join_cons, String.join_cons, join_script, argText, String.append_assoc]

theorem join_retScript (o : Options) (ret? : Option Value) :
    String.join (retScript o ret?) = retText o ret? := by
  cases ret? with
  | none => rfl
  | some v => rw [retScript, String.join_cons, join_script, retText]

/-- The script of a call spells its text. -/
theorem join_callScript (o : Options) (c : Call) :
    String.join (callScript o c) = callText o c := by
  have hargs : (c.args.map (argScript o)).map String.join = c.args.map (argText o) := by
    rw [List.map_map]
    exact List.map_congr_left fun a _ => join_argScript o a
  rw [callScript, String.join_cons, String.join_cons, String.join_append, String.join_cons,
    String.join_append, join_itemsScript, hargs, join_retScript, join_single, callText]
  simp only [String.append_assoc]

/-- **The dump of a value is the text of the grammar.** -/
theorem dumpWith_eq_text (v : Value) (o : Options) : v.dumpWith o = text o v := by
  rw [dumpWith_eq_join_script, join_script]

/-- **The dump of a call is the text of the grammar**, inside the span of the call. -/
theorem dumpWith_call_eq_callText (c : Call) (o : Options) :
    c.dumpWith o = (Logged.quiet (callText o c)).inDumpSpan c.name := by
  have hspan : c.dumpWith o =
      (Logged.quiet ((call Sink.text o c).startFrom "").2).inDumpSpan c.name := rfl
  rw [hspan, call_eq_writeAll, Sink.startFrom_writeAll_text, String.empty_append, join_callScript]

end Dump

end CallCapture
