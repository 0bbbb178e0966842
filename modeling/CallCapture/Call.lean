import CallCapture.Lookup
import CallCapture.Value.Equality

/-!
# Captured calls

A call has a name, its arguments in the order of the call site, and a return value once
the function has returned one.  A producer starts with the name and makes edits in any order
(`Call.assemble`): it pushes arguments and sets the return value, which can be replaced.
Afterwards the call is only read.

Argument names need not be distinct.  A lookup by name finds the first argument with
exactly that name, and leaves an event if there is none; a lookup by position leaves no
event.  `Arg.FirstAt` says by positions which argument is the first with a name, which is how a
lookup by name and one by position come together; `Call.arg_cases` says what a lookup by name
can do in these terms.
-/

namespace CallCapture

/-- A named argument. -/
structure Arg where
  name : String
  value : Value

/-- A captured call. -/
structure Call where
  name : String
  args : List Arg
  ret? : Option Value

namespace Call

/-- A call with a name and nothing else yet. -/
def named (name : String) : Call :=
  ⟨name, [], none⟩

/-- Appends an argument. -/
def pushArg (c : Call) (name : String) (v : Value) : Call :=
  { c with args := c.args ++ [⟨name, v⟩] }

/-- Sets or replaces the return value. -/
def setRet (c : Call) (v : Value) : Call :=
  { c with ret? := some v }

/-- The call with one more argument, for assembling a call in one expression. -/
def withArg (c : Call) (name : String) (v : Value) : Call :=
  c.pushArg name v

/-- The call with a return value, for assembling a call in one expression. -/
def withRet (c : Call) (v : Value) : Call :=
  c.setRet v

/-- The value of the first argument with a given name. -/
def arg (c : Call) (name : String) : Logged Found :=
  match c.args.find? (·.name == name) with
  | some a => .quiet (.stored a.value)
  | none => .note (.argumentNotFound c.name name) .absent

/-- The value of the argument at a position. -/
def argAt (c : Call) (index : Nat) : Found :=
  .ofOption (c.args[index]?.map Arg.value)

/-- What lies at the end of a path that starts at a named argument. -/
def probe (c : Call) (name : String) (path : List Step) : Logged Found :=
  (c.arg name).andThen fun f => f.follow path

/-- **Lookup by name.**  The answer is the value of the first argument that the search finds,
and if there is none, it is recorded that no argument has the name. -/
theorem arg_eq (c : Call) (name : String) :
    c.arg name = Found.answer (.argumentNotFound c.name name)
      ((c.args.find? (·.name == name)).map Arg.value) := by
  rw [arg]
  cases c.args.find? (·.name == name) <;> rfl

end Call

instance : BEq Arg where
  beq a b := a.name == b.name && a.value == b.value

instance : BEq Call where
  beq c d := c.name == d.name && c.args == d.args && c.ret? == d.ret?

/-! ## Assembly -/

namespace Call

/-- One edit of a call under assembly. -/
inductive Edit where
  | pushArg (name : String) (value : Value)
  | withArg (name : String) (value : Value)
  | setRet (value : Value)
  | withRet (value : Value)

/-- Makes an edit. -/
def edit (c : Call) : Edit → Call
  | .pushArg name v => c.pushArg name v
  | .withArg name v => c.withArg name v
  | .setRet v => c.setRet v
  | .withRet v => c.withRet v

/-- The call that a run of edits produces. -/
def assemble (name : String) (edits : List Edit) : Call :=
  edits.foldl edit (named name)

/-- The argument that an edit pushes. -/
def Edit.arg? : Edit → Option Arg
  | .pushArg name v => some ⟨name, v⟩
  | .withArg name v => some ⟨name, v⟩
  | .setRet _ => none
  | .withRet _ => none

/-- The return value that an edit sets. -/
def Edit.ret? : Edit → Option Value
  | .pushArg .. => none
  | .withArg .. => none
  | .setRet v => some v
  | .withRet v => some v

end Call

/-! ## The first argument with a name -/

/-- The argument at a position is the first with a name. -/
structure Arg.FirstAt (args : List Arg) (name : String) (index : Nat) (a : Arg) : Prop where
  getElem? : args[index]? = some a
  name_eq : a.name = name
  /-- No argument before it has the name. -/
  name_ne : ∀ j < index, ∀ b, args[j]? = some b → b.name ≠ name

/-- The first argument with a name stays the first when more are appended. -/
theorem Arg.FirstAt.append {args : List Arg} {name : String} {index : Nat} {a : Arg}
    (h : Arg.FirstAt args name index a) (more : List Arg) :
    Arg.FirstAt (args ++ more) name index a where
  getElem? := by
    have hlt : index < args.length := (List.getElem?_eq_some_iff.1 h.getElem?).1
    rw [List.getElem?_append_left hlt, h.getElem?]
  name_eq := h.name_eq
  name_ne := by
    intro j hj b hb
    have hlt : index < args.length := (List.getElem?_eq_some_iff.1 h.getElem?).1
    rw [List.getElem?_append_left (Nat.lt_trans hj hlt)] at hb
    exact h.name_ne j hj b hb

/-- There is only one first argument with a name. -/
theorem Arg.FirstAt.unique {args : List Arg} {name : String} {i j : Nat} {a b : Arg}
    (ha : Arg.FirstAt args name i a) (hb : Arg.FirstAt args name j b) : i = j ∧ a = b := by
  have hij : i = j := by
    rcases Nat.lt_trichotomy i j with h | h | h
    · exact absurd ha.name_eq (hb.name_ne i h a ha.getElem?)
    · exact h
    · exact absurd hb.name_eq (ha.name_ne j h b hb.getElem?)
  subst hij
  exact ⟨rfl, Option.some.inj (ha.getElem?.symm.trans hb.getElem?)⟩

namespace Call

/-- No argument has the name, which is recorded, or the first one with the name is found without
a record. -/
theorem arg_cases (c : Call) (name : String) :
    ((∀ a ∈ c.args, a.name ≠ name) ∧
        c.arg name = .note (.argumentNotFound c.name name) .absent) ∨
      ∃ index a, Arg.FirstAt c.args name index a ∧ c.arg name = .quiet (.stored a.value) := by
  rw [arg_eq]
  cases hfind : c.args.find? (·.name == name) with
  | none =>
    refine Or.inl ⟨?_, rfl⟩
    intro a ha hname
    exact List.find?_eq_none.1 hfind a ha (beq_iff_eq.2 hname)
  | some a =>
    obtain ⟨hname, i, hi, hget, hearlier⟩ := List.find?_eq_some_iff_getElem.1 hfind
    refine Or.inr ⟨i, a, ⟨?_, beq_iff_eq.1 hname, ?_⟩, rfl⟩
    · rw [List.getElem?_eq_getElem hi, hget]
    · intro j hj b hb hbname
      obtain ⟨hlt, rfl⟩ := List.getElem?_eq_some_iff.1 hb
      have hne := hearlier j hj
      rw [beq_iff_eq.2 hbname] at hne
      exact Bool.noConfusion hne

theorem arg_eq_of_firstAt {c : Call} {name : String} {index : Nat} {a : Arg}
    (h : Arg.FirstAt c.args name index a) : c.arg name = .quiet (.stored a.value) := by
  rcases c.arg_cases name with ⟨hnone, -⟩ | ⟨j, b, hb, harg⟩
  · exact absurd h.name_eq (hnone a (List.mem_of_getElem? h.getElem?))
  · rw [harg, (h.unique hb).2]

/-- The lookup by name answers with the first argument of the name. -/
theorem result_arg_eq_stored_iff (c : Call) (name : String) (v : Value) :
    (c.arg name).result = .stored v ↔
      ∃ index a, Arg.FirstAt c.args name index a ∧ a.value = v := by
  constructor
  · intro h
    rcases c.arg_cases name with ⟨-, harg⟩ | ⟨index, a, ha, harg⟩
    · rw [harg] at h
      exact nomatch h
    · rw [harg] at h
      exact ⟨index, a, ha, Found.stored.inj h⟩
  · rintro ⟨index, a, ha, rfl⟩
    rw [arg_eq_of_firstAt ha]
    rfl

/-- The lookup by name answers with nothing exactly if no argument has the name. -/
theorem result_arg_eq_absent_iff (c : Call) (name : String) :
    (c.arg name).result = .absent ↔ ∀ a ∈ c.args, a.name ≠ name := by
  rcases c.arg_cases name with ⟨hnone, harg⟩ | ⟨index, a, ha, harg⟩
  · rw [harg]
    exact ⟨fun _ => hnone, fun _ => rfl⟩
  · rw [harg]
    constructor
    · intro h
      exact nomatch h
    · intro hnone
      exact absurd ha.name_eq (hnone a (List.mem_of_getElem? ha.getElem?))

end Call

end CallCapture
