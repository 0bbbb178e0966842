import CallCapture.Call
import CallCapture.Dump

/-!
# What a run of edits leaves in a call

A producer makes edits in any order, and afterwards only the call is left.  Two things of the
run can be seen in it: the arguments that were pushed, in order (`Call.pushed`), and the return
value that was set last (`Call.returned?`).  `Call.edit_spec` says what one edit does and
`Call.foldl_edit` what a run does, from any call; the other results read the lookups off the
pushes, and `Call.assemble_history` collects them.
-/

namespace CallCapture.Call

/-- The arguments that a run of edits pushes, in order. -/
def pushed (edits : List Edit) : List Arg :=
  edits.filterMap Edit.arg?

/-- The return value that a run of edits sets last. -/
def returned? (edits : List Edit) : Option Value :=
  (edits.filterMap Edit.ret?).getLast?

/-- **One edit** keeps the name, appends the argument that it pushes and replaces the return
value by the one that it sets. -/
theorem edit_spec (c : Call) (e : Edit) :
    c.edit e = ⟨c.name, c.args ++ e.arg?.toList, e.ret?.or c.ret?⟩ := by
  rcases c with ⟨name, args, ret?⟩
  cases e with
  | pushArg m v => rfl
  | withArg m v => rfl
  | setRet v =>
    show Call.mk name args (some v) = _
    rw [Edit.arg?, Option.toList_none, List.append_nil]
    rfl
  | withRet v =>
    show Call.mk name args (some v) = _
    rw [Edit.arg?, Option.toList_none, List.append_nil]
    rfl

theorem pushed_cons (e : Edit) (edits : List Edit) :
    pushed (e :: edits) = e.arg?.toList ++ pushed edits := by
  rw [pushed, List.filterMap_cons]
  cases e.arg? <;> rfl

theorem returned?_cons (e : Edit) (edits : List Edit) :
    returned? (e :: edits) = (returned? edits).or e.ret? := by
  rw [returned?, List.filterMap_cons, returned?]
  cases e.ret? with
  | none => rw [Option.or_none]
  | some v =>
    rw [List.getLast?_cons]
    cases (edits.filterMap Edit.ret?).getLast? <;> rfl

theorem pushed_append (edits later : List Edit) :
    pushed (edits ++ later) = pushed edits ++ pushed later :=
  List.filterMap_append

/-- **A run of edits** from any call. -/
theorem foldl_edit (edits : List Edit) (c : Call) :
    edits.foldl edit c = ⟨c.name, c.args ++ pushed edits, (returned? edits).or c.ret?⟩ := by
  induction edits generalizing c with
  | nil =>
    show c = ⟨c.name, c.args ++ [], c.ret?⟩
    rw [List.append_nil]
  | cons e edits ih =>
    rw [List.foldl_cons, ih, edit_spec, pushed_cons, returned?_cons, List.append_assoc,
      Option.or_assoc]

/-- The call that a run of edits produces. -/
theorem assemble_eq (name : String) (edits : List Edit) :
    assemble name edits = ⟨name, pushed edits, returned? edits⟩ := by
  rw [assemble, foldl_edit]
  show Call.mk name ([] ++ pushed edits) ((returned? edits).or none) = _
  rw [List.nil_append, Option.or_none]

/-- No return value was set exactly if no edit sets one. -/
theorem returned?_eq_none_iff (edits : List Edit) :
    returned? edits = none ↔ ∀ e ∈ edits, e.ret? = none := by
  rw [returned?, List.getLast?_eq_none_iff, List.filterMap_eq_nil_iff]

/-! ## Lookups by position -/

theorem argAt_eq_stored_iff (c : Call) (index : Nat) (v : Value) :
    c.argAt index = .stored v ↔ ∃ a, c.args[index]? = some a ∧ a.value = v := by
  rw [argAt]
  cases c.args[index]? with
  | none =>
    constructor
    · intro h
      exact nomatch h
    · rintro ⟨a, ha, -⟩
      exact nomatch ha
  | some a =>
    constructor
    · intro h
      exact ⟨a, rfl, Found.stored.inj h⟩
    · rintro ⟨b, hb, rfl⟩
      rw [Option.some.inj hb]
      rfl

theorem argAt_eq_absent_iff (c : Call) (index : Nat) :
    c.argAt index = .absent ↔ ¬index < c.args.length := by
  rw [argAt]
  cases h : c.args[index]? with
  | none => exact ⟨fun _ => Nat.not_lt.2 (List.getElem?_eq_none_iff.1 h), fun _ => rfl⟩
  | some a =>
    constructor
    · intro habsent
      exact nomatch habsent
    · intro hlt
      exact absurd (List.getElem?_eq_some_iff.1 h).1 hlt

/-! ## The call and the run -/

/-- A call shows of a run of edits what was pushed, in order, and what was returned last, and
nothing else. -/
structure Shows (name : String) (edits : List Edit) (c : Call) : Prop where
  name_eq : c.name = name
  /-- The arguments are the pushes, in order and with repeated names. -/
  args_eq : c.args = pushed edits
  /-- The return value is the one that was set last; a null that was returned is one. -/
  ret_eq : c.ret? = returned? edits
  ret_eq_none_iff : c.ret? = none ↔ ∀ e ∈ edits, e.ret? = none
  /-- A lookup by name finds the earliest push of exactly that name. -/
  arg_stored_iff : ∀ m v, (c.arg m).result = .stored v ↔
    ∃ index a, Arg.FirstAt (pushed edits) m index a ∧ a.value = v
  /-- And so does the lookup at the position of that push. -/
  arg_eq_argAt : ∀ m index a, Arg.FirstAt (pushed edits) m index a →
    (c.arg m).result = c.argAt index
  arg_absent_iff : ∀ m, (c.arg m).result = .absent ↔ ∀ a ∈ pushed edits, a.name ≠ m
  /-- A lookup by position finds the push of that number. -/
  argAt_stored_iff : ∀ index v, c.argAt index = .stored v ↔
    ∃ a, (pushed edits)[index]? = some a ∧ a.value = v
  argAt_absent_iff : ∀ index, c.argAt index = .absent ↔ ¬index < (pushed edits).length
  /-- No later edit changes what a lookup by name has found. -/
  arg_kept : ∀ later m v, (c.arg m).result = .stored v →
    ((assemble name (edits ++ later)).arg m).result = .stored v
  /-- No later edit changes what a lookup by position has found. -/
  argAt_kept : ∀ later index v, c.argAt index = .stored v →
    (assemble name (edits ++ later)).argAt index = .stored v
  /-- Another run from the same name produces the same call exactly if it makes the same pushes
  and sets the same return value last, however these are interleaved. -/
  same_iff : ∀ others, assemble name others = c ↔
    pushed others = pushed edits ∧ returned? others = returned? edits
  /-- And then it gives the same lookups and the same dump. -/
  same_seen : ∀ others, pushed others = pushed edits → returned? others = returned? edits →
    (∀ m, (assemble name others).arg m = c.arg m) ∧
    (∀ index, (assemble name others).argAt index = c.argAt index) ∧
    ∀ o, (assemble name others).dumpWith o = c.dumpWith o

theorem assemble_eq_iff (name : String) (others edits : List Edit) :
    assemble name others = assemble name edits ↔
      pushed others = pushed edits ∧ returned? others = returned? edits := by
  rw [assemble_eq, assemble_eq, Call.mk.injEq]
  constructor
  · rintro ⟨-, hargs, hret⟩
    exact ⟨hargs, hret⟩
  · rintro ⟨hargs, hret⟩
    exact ⟨rfl, hargs, hret⟩

/-- **The call is the record of the run**, for every run of edits. -/
theorem assemble_history (name : String) (edits : List Edit) :
    Shows name edits (assemble name edits) where
  name_eq := by rw [assemble_eq]
  args_eq := by rw [assemble_eq]
  ret_eq := by rw [assemble_eq]
  ret_eq_none_iff := by rw [assemble_eq, returned?_eq_none_iff]
  arg_stored_iff := by
    intro m v
    rw [result_arg_eq_stored_iff, assemble_eq]
  arg_eq_argAt := by
    intro m index a ha
    have hfirst : Arg.FirstAt (assemble name edits).args m index a := by rwa [assemble_eq]
    rw [arg_eq_of_firstAt hfirst]
    exact ((argAt_eq_stored_iff _ _ _).2 ⟨a, hfirst.getElem?, rfl⟩).symm
  arg_absent_iff := by
    intro m
    rw [result_arg_eq_absent_iff, assemble_eq]
  argAt_stored_iff := by
    intro index v
    rw [argAt_eq_stored_iff, assemble_eq]
  argAt_absent_iff := by
    intro index
    rw [argAt_eq_absent_iff, assemble_eq]
  arg_kept := by
    intro later m v h
    rw [result_arg_eq_stored_iff, assemble_eq] at h
    obtain ⟨index, a, ha, rfl⟩ := h
    rw [result_arg_eq_stored_iff, assemble_eq, pushed_append]
    exact ⟨index, a, ha.append (pushed later), rfl⟩
  argAt_kept := by
    intro later index v h
    rw [argAt_eq_stored_iff, assemble_eq] at h
    obtain ⟨a, ha, rfl⟩ := h
    rw [argAt_eq_stored_iff, assemble_eq, pushed_append]
    have hlt : index < (pushed edits).length := (List.getElem?_eq_some_iff.1 ha).1
    exact ⟨a, (List.getElem?_append_left hlt).trans ha, rfl⟩
  same_iff := fun others => assemble_eq_iff name others edits
  same_seen := by
    intro others hargs hret
    rw [(assemble_eq_iff name others edits).2 ⟨hargs, hret⟩]
    exact ⟨fun _ => rfl, fun _ => rfl, fun _ => rfl⟩

end CallCapture.Call
