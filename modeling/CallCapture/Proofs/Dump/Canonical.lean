import CallCapture.Proofs.Dump.Elision
import CallCapture.Proofs.Dump.Strings

/-!
# The dump is the canonical text

The rules of the canonical text are equations, one for each kind of node and three for arrays:
a single element is shown behind `&` whatever the limit, an array that the limit allows lists
all its elements, and a longer one lists as many as allowed and the mark.  `Dump.Grammatical`
says that a rendering of values follows the rules.  Nothing in them speaks of a sink, of a
separator that changes on the way or of what was written before.

The rules leave nothing open: two renderings that follow them agree on every tree
(`Dump.Grammatical.unique`).  The text of the grammar follows them
(`Dump.grammatical_text`), and it is what the dump writes, so the dump is the one rendering
that follows the rules.
-/

namespace CallCapture

namespace Dump

/-- A rendering of values follows the rules of the canonical text, with at most `most?`
elements shown of an array. -/
structure Grammatical (most? : Option Nat) (render : Value → String) : Prop where
  null : render .null = "NULL"
  bool_true : render (.bool true) = "true"
  bool_false : render (.bool false) = "false"
  sint : ∀ n : Int64, render (.sint n) = toString n.toInt
  uint : ∀ n : UInt64, render (.uint n) = toString n.toNat
  float : ∀ x : Double, render (.float x) = number.text x
  /-- Characters stand for themselves, and ill-formed bytes are escaped. -/
  str : ∀ bytes : List UInt8, render (.str bytes) =
    "\"" ++ String.join ((Utf8.segments bytes).map Utf8.Segment.rendered) ++ "\""
  /-- What a constant stands for is not shown. -/
  const : ∀ (name : String) (v : Value), render (.const name v) = name
  blob : ∀ bytes : ByteArray, render (.blob bytes) = "... " ++ toString bytes.size
  /-- A single element is shown whatever the limit. -/
  single : ∀ v : Value, render (.array [v]) = "&" ++ render v
  /-- Any other array lists all its elements if the limit allows it. -/
  whole : ∀ vs : List Value, vs.length ≠ 1 → (∀ most, most? = some most → vs.length ≤ most) →
    render (.array vs) = "\x7b" ++ ", ".intercalate (vs.map render) ++ "\x7d"
  /-- Of a longer array the first elements are listed, and the mark is one more item. -/
  cut : ∀ (vs : List Value) (most : Nat), vs.length ≠ 1 → most? = some most → most < vs.length →
    render (.array vs) = "\x7b" ++ ", ".intercalate ((vs.take most).map render ++ ["..."]) ++ "\x7d"

/-! ## The rules determine the text -/

/-- The three rules for arrays are all there is: an array has a single element, or the limit
allows all of its elements, or it does not. -/
theorem array_cases (most? : Option Nat) (vs : List Value) :
    (∃ v, vs = [v]) ∨
      (vs.length ≠ 1 ∧ ∀ most, most? = some most → vs.length ≤ most) ∨
      (vs.length ≠ 1 ∧ ∃ most, most? = some most ∧ most < vs.length) := by
  by_cases hone : vs.length = 1
  · exact Or.inl (List.length_eq_one_iff.1 hone)
  · cases most? with
    | none => exact Or.inr (Or.inl ⟨hone, nofun⟩)
    | some most =>
      rcases Nat.lt_or_ge most vs.length with hlt | hge
      · exact Or.inr (Or.inr ⟨hone, most, rfl, hlt⟩)
      · refine Or.inr (Or.inl ⟨hone, ?_⟩)
        rintro _ ⟨⟩
        exact hge

/-- **Two renderings that follow the rules agree** on every tree. -/
theorem Grammatical.unique {most? : Option Nat} {render other : Value → String}
    (h : Grammatical most? render) (h' : Grammatical most? other) (v : Value) :
    render v = other v := by
  induction v with
  | null => rw [h.null, h'.null]
  | bool b =>
    cases b with
    | true => rw [h.bool_true, h'.bool_true]
    | false => rw [h.bool_false, h'.bool_false]
  | sint n => rw [h.sint, h'.sint]
  | uint n => rw [h.uint, h'.uint]
  | float x => rw [h.float, h'.float]
  | str bytes => rw [h.str, h'.str]
  | const name v ih => rw [h.const, h'.const]
  | blob bytes => rw [h.blob, h'.blob]
  | array vs ih =>
    rcases array_cases most? vs with ⟨v, rfl⟩ | ⟨hone, hall⟩ | ⟨hone, most, hmost, hlt⟩
    · rw [h.single, h'.single, ih v List.mem_cons_self]
    · rw [h.whole vs hone hall, h'.whole vs hone hall, List.map_congr_left ih]
    · have hshown : (vs.take most).map render = (vs.take most).map other :=
        List.map_congr_left fun v hv => ih v (List.mem_of_mem_take hv)
      rw [h.cut vs most hone hmost hlt, h'.cut vs most hone hmost hlt, hshown]

/-! ## The text of the grammar -/

theorem shown_eq_length {most? : Option Nat} {length : Nat}
    (h : ∀ most, most? = some most → length ≤ most) :
    Options.shown ⟨most?⟩ length = length := by
  cases most? with
  | none => rfl
  | some most => exact Nat.min_eq_right (h most rfl)

theorem shown_eq_limit {most length : Nat} (h : most < length) :
    Options.shown ⟨some most⟩ length = most :=
  Nat.min_eq_left (Nat.le_of_lt h)

/-- **The text of the grammar follows the rules.** -/
theorem grammatical_text (most? : Option Nat) : Grammatical most? (text ⟨most?⟩) where
  null := rfl
  bool_true := rfl
  bool_false := rfl
  sint n := intText_eq_toString n.toInt
  uint n := natText_eq_toString n.toNat
  float _ := rfl
  str bytes := by rw [text, body, Utf8.join_escaped]
  const _ _ := rfl
  blob _ := rfl
  single _ := rfl
  whole vs hone hall := by
    have hitems : (vs.map (text ⟨most?⟩)).length ≠ 1 := by rwa [List.length_map]
    rw [text_array, arrayText_of_length_ne_one _ hitems, elide_of_shown_eq]
    rw [List.length_map, shown_eq_length hall]
  cut vs most hone hmost hlt := by
    subst hmost
    have hitems : (vs.map (text ⟨some most⟩)).length ≠ 1 := by rwa [List.length_map]
    have hshown : Options.shown ⟨some most⟩ (vs.map (text ⟨some most⟩)).length = most := by
      rw [List.length_map, shown_eq_limit hlt]
    rw [text_array, arrayText_of_length_ne_one _ hitems, elide_of_shown_lt, hshown, List.map_take]
    rwa [hshown, List.length_map]

/-- **The dump is the canonical text.**  The dump of values under a limit is the one rendering
that follows the rules.  It is written behind whatever a string holds already, and writing
never fails.  The dump of a call puts the dumps of its arguments and of its return value, all
under the same limit, between the names and marks of the call, and ends the line. -/
theorem dump_canonical (most? : Option Nat) :
    (∀ render : Value → String,
      Grammatical most? render ↔ render = fun v => v.dumpWith ⟨most?⟩) ∧
    (∀ (v : Value) (s : String),
      v.dumpInto .text ⟨most?⟩ s = (.ok (), s ++ v.dumpWith ⟨most?⟩)) ∧
    (∀ (c : Call) (s : String),
      (c.dumpInto .text ⟨most?⟩ s).result = (.ok (), s ++
        (c.name ++ "(" ++
          ", ".intercalate (c.args.map fun a => a.name ++ " = " ++ a.value.dumpWith ⟨most?⟩) ++
          ")" ++ c.ret?.elim "" (fun v => " = " ++ v.dumpWith ⟨most?⟩) ++ "\n"))) := by
  have htext : (fun v : Value => v.dumpWith ⟨most?⟩) = text ⟨most?⟩ :=
    funext fun v => dumpWith_eq_text v ⟨most?⟩
  refine ⟨fun render => ?_, fun v s => ?_, fun c s => ?_⟩
  · rw [htext]
    constructor
    · intro h
      exact funext (h.unique (grammatical_text most?))
    · rintro rfl
      exact grammatical_text most?
  · rw [Value.dumpInto, value_eq_writeAll, Sink.startFrom_writeAll_text, dumpWith_eq_join_script]
  · show (call Sink.text ⟨most?⟩ c).startFrom s = _
    rw [call_eq_writeAll, Sink.startFrom_writeAll_text, join_callScript, callText]
    simp only [dumpWith_eq_text]
    cases c.ret? with
    | none => rfl
    | some v => rfl

/-- A single element is shown under the limit zero, which hides the elements of the array
that it is. -/
example : (Value.array [.array [.bool true, .null]]).dumpWith ⟨some 0⟩ = "&\x7b...\x7d" := by
  rw [dumpWith_eq_text]
  rfl

end Dump

end CallCapture
