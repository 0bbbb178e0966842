import CallCapture.Call
import CallCapture.Coercion.Basic

/-!
# The ledger of a chain of lookups

A reader asks a call for an argument, takes steps from what it gets, and ends with a
reading in some shape.  None of this fails, and the log is the only place where one can see
what went wrong.  This module says exactly what is found at the end of such a chain and
exactly what is in the log.

What one element lookup can do is said once, in `Value.elementAt_cases`, which puts
`Value.elementAt_eq` in terms of the tree: it finds an element and is quiet, or it misses
(`Value.Misses`) and leaves the one event `Value.missed`.  Everything about paths follows from
this by induction on the path.

* `Found.absent_follow` --- from nothing, a path leads to nothing, and every element lookup
  of it is recorded as one on null.
* `Found.follow_eq_absent_iff` --- nothing is found exactly if nothing was there to start
  from or some lookup on the way missed.
* `Found.follow_eq_stored_iff` --- what is found is the node of the tree that the path leads
  to (`Value.Leads`).  A null in the tree is such a node, and not the same as nothing.
* `Found.entries_follow_eq_recorded` --- the log, lookup by lookup.
* `Call.probe_ledger` --- all of it for chains that start at an argument of a call.
-/

namespace CallCapture

theorem Logged.note_andThen {α : Type u} {β : Type v} (e : Event) (a : α) (f : α → Logged β) :
    (note e a).andThen f = ⟨(f a).result, .event e :: (f a).entries⟩ := rfl

/-! ## One element lookup -/

namespace Value

/-- There is no element at an index: what lies under the constants is no array, or an array
that ends before the index. -/
def Misses (v : Value) (index : Nat) : Prop :=
  ∀ vs, v.unwrapConst = .array vs → ¬index < vs.length

theorem misses_iff (v : Value) (index : Nat) : v.Misses index ↔ v.elements[index]? = none := by
  rw [List.getElem?_eq_none_iff]
  rcases v.array_or_kind_ne with ⟨vs, hvs⟩ | hk
  · rw [elements_of_array hvs]
    constructor
    · intro h
      exact Nat.not_lt.1 (h vs hvs)
    · intro h us hus
      obtain rfl := Value.array.inj (hvs.symm.trans hus)
      exact Nat.not_lt.2 h
  · rw [elements_of_kind_ne hk]
    constructor
    · intro _
      exact Nat.zero_le index
    · intro _ us hus
      exact absurd (congrArg kind hus) hk

/-- There is an element at an index exactly if an array with one lies under the constants. -/
theorem getElem?_elements_eq_some_iff {v w : Value} {index : Nat} :
    v.elements[index]? = some w ↔ ∃ vs, v.unwrapConst = .array vs ∧ vs[index]? = some w := by
  constructor
  · intro hw
    rcases v.array_or_kind_ne with ⟨vs, hvs⟩ | hk
    · rw [elements_of_array hvs] at hw
      exact ⟨vs, hvs, hw⟩
    · rw [elements_of_kind_ne hk] at hw
      exact nomatch hw
  · rintro ⟨vs, hvs, hw⟩
    rw [elements_of_array hvs, hw]

/-- **One lookup.**  It misses, with one event, or finds an element without any. -/
theorem elementAt_cases (v : Value) (index : Nat) :
    (v.Misses index ∧ v.elementAt index = .note (v.missed index) .absent) ∨
      ∃ vs w, v.unwrapConst = .array vs ∧ vs[index]? = some w ∧ ¬v.Misses index ∧
        v.elementAt index = .quiet (.stored w) := by
  rw [elementAt_eq, misses_iff]
  cases hw : v.elements[index]? with
  | none => exact Or.inl ⟨rfl, rfl⟩
  | some w =>
    obtain ⟨vs, hvs, hvw⟩ := getElem?_elements_eq_some_iff.1 hw
    exact Or.inr ⟨vs, w, hvs, hvw, nofun, rfl⟩

theorem elementAt_of_misses {v : Value} {index : Nat} (h : v.Misses index) :
    v.elementAt index = .note (v.missed index) .absent := by
  rw [elementAt_eq, (v.misses_iff index).1 h]
  rfl

/-- A miss is no error. -/
theorem level_missed (v : Value) (index : Nat) : (v.missed index).record.level = .trace := by
  rcases v.array_or_kind_ne with ⟨vs, hvs⟩ | hk
  · rw [missed_of_array hvs]
    rfl
  · rw [missed_of_kind_ne hk]
    rfl

/-- A path leads through a tree to a node: every element that it asks for is there. -/
inductive Leads : Value → List Step → Value → Prop where
  | here (v : Value) : Leads v [] v
  | unwrap {v w : Value} {path : List Step} :
      Leads v.unwrapConst path w → Leads v (.unwrap :: path) w
  | element {v u w : Value} {vs : List Value} {index : Nat} {path : List Step} :
      v.unwrapConst = .array vs → vs[index]? = some u → Leads u path w →
        Leads v (.element index :: path) w

end Value

namespace Step

/-- The index that an element lookup asks for. -/
def index? : Step → Option Nat
  | .element index => some index
  | .unwrap => none

/-- What is recorded of a step that leads from one place to another: an element lookup that
leads to nothing is recorded, and nothing else is. -/
def recorded (s : Step) (here there : Found) : List Event :=
  match s, there with
  | .element index, .absent => [here.value.missed index]
  | _, _ => []

end Step

namespace Found

/-! ## Paths -/

theorem follow_cons (f : Found) (s : Step) (path : List Step) :
    f.follow (s :: path) = (f.step s).andThen fun g => g.follow path := rfl

/-- A path in two parts is followed in two parts. -/
theorem follow_append (f : Found) (path later : List Step) :
    f.follow (path ++ later) = (f.follow path).andThen fun g => g.follow later := by
  induction path generalizing f with
  | nil => rfl
  | cons s path ih =>
    rw [List.cons_append, follow_cons, follow_cons, Logged.andThen_assoc]
    exact congrArg (f.step s).andThen (funext ih)

/-- **From nothing.**  A path leads to nothing, and every element lookup of it is recorded as
a lookup on null. -/
theorem absent_follow (path : List Step) :
    absent.follow path =
      ⟨.absent, (path.filterMap Step.index?).map fun i => .event (.notAnArray i .null)⟩ := by
  induction path with
  | nil => rfl
  | cons s path ih =>
    cases s with
    | unwrap =>
      rw [follow_cons]
      exact ih
    | element index =>
      have hstep : absent.step (.element index) = .note (.notAnArray index .null) .absent :=
        Value.elementAt_eq .null index
      rw [follow_cons, hstep, Logged.note_andThen, ih]
      rfl

/-- Where nothing was found, nothing is found later. -/
theorem follow_append_of_absent {f : Found} {path : List Step}
    (h : (f.follow path).result = .absent) (later : List Step) :
    (f.follow (path ++ later)).result = .absent ∧
      (f.follow (path ++ later)).entries = (f.follow path).entries ++
        (later.filterMap Step.index?).map fun i => .event (.notAnArray i .null) := by
  rw [follow_append, Logged.andThen, h, absent_follow]
  exact ⟨rfl, rfl⟩

/-- A single step ends at nothing exactly if there was nothing to start from or it is an
element lookup that misses. -/
theorem step_eq_absent_iff (f : Found) (s : Step) :
    (f.step s).result = .absent ↔
      f = .absent ∨ ∃ index, s = .element index ∧ f.value.Misses index := by
  cases s with
  | unwrap =>
    cases f with
    | absent => exact ⟨fun _ => Or.inl rfl, fun _ => rfl⟩
    | stored v =>
      constructor
      · intro h
        exact nomatch h
      · rintro (h | ⟨_, h, _⟩)
        · exact nomatch h
        · exact nomatch h
  | element index =>
    show (f.value.elementAt index).result = .absent ↔ _
    constructor
    · intro h
      rcases f.value.elementAt_cases index with ⟨hmiss, -⟩ | ⟨_, w, -, -, -, hfound⟩
      · exact Or.inr ⟨index, rfl, hmiss⟩
      · rw [hfound] at h
        exact nomatch h
    · rintro (rfl | ⟨_, hs, hmiss⟩)
      · rfl
      · obtain rfl := Step.element.inj hs
        rw [Value.elementAt_of_misses hmiss]
        rfl

/-- **Nothing is found** exactly if there was nothing to start from or some element lookup of
the path misses, on the node that the steps before it led to. -/
theorem follow_eq_absent_iff (f : Found) (path : List Step) :
    (f.follow path).result = .absent ↔
      f = .absent ∨ ∃ before index after, path = before ++ .element index :: after ∧
        (f.follow before).result.value.Misses index := by
  induction path generalizing f with
  | nil =>
    constructor
    · intro h
      exact Or.inl h
    · rintro (h | ⟨before, index, after, h, -⟩)
      · exact h
      · exact absurd h (by simp)
  | cons s path ih =>
    show (follow (f.step s).result path).result = .absent ↔ _
    rw [ih, step_eq_absent_iff]
    constructor
    · rintro ((rfl | ⟨index, rfl, hmiss⟩) | ⟨before, index, after, rfl, hmiss⟩)
      · exact Or.inl rfl
      · exact Or.inr ⟨[], index, path, rfl, hmiss⟩
      · exact Or.inr ⟨s :: before, index, after, rfl, hmiss⟩
    · rintro (rfl | ⟨before, index, after, h, hmiss⟩)
      · exact Or.inl (Or.inl rfl)
      · -- the lookup that misses is the first step or lies behind it
        cases before with
        | nil =>
          obtain ⟨rfl, -⟩ := List.cons.inj h
          exact Or.inl (Or.inr ⟨index, rfl, hmiss⟩)
        | cons t before =>
          obtain ⟨rfl, rfl⟩ := List.cons.inj h
          exact Or.inr ⟨before, index, after, rfl, hmiss⟩

/-- **What is found** is the node that the path leads to. -/
theorem follow_eq_stored_iff (v : Value) (path : List Step) (w : Value) :
    ((stored v).follow path).result = .stored w ↔ v.Leads path w := by
  induction path generalizing v with
  | nil =>
    constructor
    · intro h
      obtain rfl := Found.stored.inj h
      exact .here v
    · rintro ⟨⟩
      rfl
  | cons s path ih =>
    cases s with
    | unwrap =>
      show ((stored v.unwrapConst).follow path).result = _ ↔ _
      rw [ih]
      constructor
      · exact .unwrap
      · rintro ⟨⟩
        assumption
    | element index =>
      show (follow (v.elementAt index).result path).result = _ ↔ _
      rcases v.elementAt_cases index with ⟨hmiss, hnote⟩ | ⟨vs, u, hvs, hu, -, hfound⟩
      · rw [hnote]
        constructor
        · intro h
          have habsent : (absent.follow path).result = .stored w := h
          rw [absent_follow] at habsent
          exact nomatch habsent
        · rintro (_ | _ | ⟨hvs, hu, _⟩)
          exact absurd (List.getElem?_eq_some_iff.1 hu).1 (hmiss _ hvs)
      · rw [hfound]
        show ((stored u).follow path).result = _ ↔ _
        rw [ih]
        constructor
        · exact .element hvs hu
        · rintro (_ | _ | ⟨hvs', hu', hlead⟩)
          obtain rfl := Value.array.inj (hvs.symm.trans hvs')
          obtain rfl := Option.some.inj (hu.symm.trans hu')
          exact hlead

/-! ## The log -/

/-- What is recorded of the steps of a path, each from where the steps before it lead. -/
def recorded (f : Found) (path : List Step) : List Event :=
  path.zipIdx.flatMap fun (s, k) =>
    s.recorded (f.follow (path.take k)).result (f.follow (path.take (k + 1))).result

/-- **One step** leaves what is recorded of it. -/
theorem entries_step (f : Found) (s : Step) :
    (f.step s).entries = (s.recorded f (f.step s).result).map .event := by
  cases s with
  | unwrap => rfl
  | element index =>
    show (f.value.elementAt index).entries = _
    rcases f.value.elementAt_cases index with ⟨-, hnote⟩ | ⟨_, w, -, -, -, hfound⟩
    · have hstep : f.step (.element index) = .note (f.value.missed index) .absent := hnote
      rw [hnote, hstep]
      rfl
    · have hstep : f.step (.element index) = .quiet (.stored w) := hfound
      rw [hfound, hstep]
      rfl

/-- The first step of a path is recorded from its start, and the others as those of the path
that goes on from there. -/
theorem recorded_cons (f : Found) (s : Step) (path : List Step) :
    f.recorded (s :: path) =
      s.recorded f (f.step s).result ++ (f.step s).result.recorded path := by
  rw [recorded, List.zipIdx_cons, List.flatMap_cons, List.zipIdx_succ, List.flatMap_map]
  rfl

/-- **The log of a path** holds what is recorded of its steps. -/
theorem entries_follow_eq_recorded (f : Found) (path : List Step) :
    (f.follow path).entries = (f.recorded path).map .event := by
  induction path generalizing f with
  | nil => rfl
  | cons s path ih =>
    rw [recorded_cons, List.map_append, ← entries_step, ← ih]
    rfl

/-- Nothing that is recorded of a path is an error. -/
theorem level_of_mem_recorded {f : Found} {path : List Step} {e : Event}
    (h : e ∈ f.recorded path) : e.record.level = .trace := by
  obtain ⟨⟨s, k⟩, -, hs⟩ := List.mem_flatMap.1 h
  dsimp only [Step.recorded] at hs
  split at hs
  · rw [List.mem_singleton.1 hs]
    exact Value.level_missed _ _
  · exact absurd hs List.not_mem_nil

end Found

/-! ## Chains that start at an argument -/

namespace Call

/-- What is recorded of the lookup of an argument: that there is none of the name. -/
def recorded (c : Call) (name : String) : List Event :=
  if ∃ a ∈ c.args, a.name = name then [] else [.argumentNotFound c.name name]

theorem entries_arg (c : Call) (name : String) :
    (c.arg name).entries = (c.recorded name).map .event := by
  rcases c.arg_cases name with ⟨hnone, harg⟩ | ⟨index, a, ha, harg⟩
  · have hnot : ¬∃ a ∈ c.args, a.name = name := by
      rintro ⟨a, ha, hname⟩
      exact hnone a ha hname
    rw [harg, recorded, if_neg hnot]
    rfl
  · have hsome : ∃ a ∈ c.args, a.name = name :=
      ⟨a, List.mem_of_getElem? ha.getElem?, ha.name_eq⟩
    rw [harg, recorded, if_pos hsome]
    rfl

theorem level_of_mem_recorded {c : Call} {name : String} {e : Event}
    (h : e ∈ c.recorded name) : e.record.level = .trace := by
  unfold recorded at h
  split at h
  · exact absurd h List.not_mem_nil
  · rw [List.mem_singleton.1 h]
    rfl

theorem probe_append (c : Call) (name : String) (path later : List Step) :
    c.probe name (path ++ later) = (c.probe name path).andThen fun f => f.follow later := by
  rw [probe, probe, Logged.andThen_assoc]
  exact congrArg (c.arg name).andThen (funext fun f => f.follow_append path later)

/-- A chain of lookups that starts at an argument is accounted for: what it finds and what is
in the log are what the arguments, the tree and the path say. -/
structure Accounted (c : Call) (name : String) (path : List Step) : Prop where
  /-- Nothing is found exactly if no argument has the name or some element lookup misses on
  the node that the steps before it led to. -/
  absent_iff : (c.probe name path).result = .absent ↔
    (∀ a ∈ c.args, a.name ≠ name) ∨
      ∃ before index after, path = before ++ .element index :: after ∧
        (c.probe name before).result.value.Misses index
  /-- What is found is the node to which the path leads from the first argument of the name,
  be it null or anything else. -/
  stored_iff : ∀ v, (c.probe name path).result = .stored v ↔
    ∃ index a, Arg.FirstAt c.args name index a ∧ a.value.Leads path v
  /-- Once nothing is found, nothing is found by any later step, and every later element
  lookup is recorded as one on null. -/
  stays_absent : (c.probe name path).result = .absent → ∀ later,
    (c.probe name (path ++ later)).result = .absent ∧
      (c.probe name (path ++ later)).entries = (c.probe name path).entries ++
        (later.filterMap Step.index?).map fun i => .event (.notAnArray i .null)
  /-- A null in the tree was found, but there is no element in it. -/
  null_misses : (c.probe name path).result = .stored .null → ∀ index,
    (c.probe name (path ++ [.element index])).result = .absent
  /-- The log says once that no argument has the name, if so, and then once for each element
  lookup that finds nothing why it does not. -/
  entries_eq : (c.probe name path).entries =
    (c.recorded name ++ (c.arg name).result.recorded path).map .event
  /-- A remark: a reading that may fail has no log to write to, so the entries stay as they
  are. -/
  entries_coerce : ∀ s, ((c.probe name path).andThen fun f => .quiet (f.value.coerce s)).entries =
    (c.probe name path).entries
  /-- The same remark for conversions. -/
  entries_fromValue : ∀ (α : Type) [FromValue α],
    ((c.probe name path).andThen fun f =>
      .quiet (fromValue f.value : Except CoerceError α)).entries = (c.probe name path).entries
  /-- A demand leaves one entry more exactly if the kind that is found is refused. -/
  entries_demand : ∀ s, ((c.probe name path).andThen fun f => f.value.demand s).entries =
    (c.probe name path).entries ++
      if s.accepts (c.probe name path).result.value.unwrapConst.kind then []
      else [.event (.coercionFailed ⟨s, (c.probe name path).result.value.unwrapConst.kind⟩)]
  /-- And that entry is the only one that is written out as an error. -/
  error_iff : ∀ s, (∃ e, .event e ∈ ((c.probe name path).andThen fun f => f.value.demand s).entries ∧
      e.record.level = .error) ↔
    s.accepts (c.probe name path).result.value.unwrapConst.kind = false

theorem entries_probe (c : Call) (name : String) (path : List Step) :
    (c.probe name path).entries =
      (c.recorded name ++ (c.arg name).result.recorded path).map .event := by
  show (c.arg name).entries ++ ((c.arg name).result.follow path).entries = _
  rw [entries_arg, Found.entries_follow_eq_recorded, List.map_append]

theorem entries_probe_demand (c : Call) (name : String) (path : List Step) (s : Shape) :
    ((c.probe name path).andThen fun f => f.value.demand s).entries =
      (c.probe name path).entries ++
        if s.accepts (c.probe name path).result.value.unwrapConst.kind then []
        else [.event (.coercionFailed ⟨s, (c.probe name path).result.value.unwrapConst.kind⟩)] := by
  show (c.probe name path).entries ++ _ = _
  rw [Value.entries_demand]

/-- No lookup of a chain leaves an error. -/
theorem level_of_mem_probe {c : Call} {name : String} {path : List Step} {e : Event}
    (h : .event e ∈ (c.probe name path).entries) : e.record.level = .trace := by
  rw [entries_probe] at h
  obtain ⟨e', he', heq⟩ := List.mem_map.1 h
  obtain rfl := Entry.event.inj heq
  rcases List.mem_append.1 he' with harg | hpath
  · exact level_of_mem_recorded harg
  · exact Found.level_of_mem_recorded hpath

/-- **Every chain of lookups is accounted for**, whatever the call, the name, the path and the
reading at its end. -/
theorem probe_ledger (c : Call) (name : String) (path : List Step) : c.Accounted name path where
  absent_iff := by
    show ((c.arg name).result.follow path).result = .absent ↔ _
    rw [Found.follow_eq_absent_iff, result_arg_eq_absent_iff]
    rfl
  stored_iff := by
    intro v
    show ((c.arg name).result.follow path).result = .stored v ↔ _
    rcases c.arg_cases name with ⟨hnone, harg⟩ | ⟨index, a, ha, harg⟩
    · rw [harg]
      constructor
      · intro h
        have habsent : (Found.absent.follow path).result = .stored v := h
        rw [Found.absent_follow] at habsent
        exact nomatch habsent
      · rintro ⟨index, a, ha, -⟩
        exact absurd ha.name_eq (hnone a (List.mem_of_getElem? ha.getElem?))
    · rw [harg]
      show ((Found.stored a.value).follow path).result = .stored v ↔ _
      rw [Found.follow_eq_stored_iff]
      constructor
      · intro hlead
        exact ⟨index, a, ha, hlead⟩
      · rintro ⟨j, b, hb, hlead⟩
        rwa [(ha.unique hb).2]
  stays_absent := by
    intro h later
    obtain ⟨hresult, hentries⟩ := Found.follow_append_of_absent h later
    refine ⟨hresult, ?_⟩
    show (c.arg name).entries ++ _ = (c.arg name).entries ++ _ ++ _
    rw [hentries, List.append_assoc]
  null_misses := by
    intro h index
    rw [probe_append]
    show ((c.probe name path).result.follow [.element index]).result = .absent
    rw [h]
    rfl
  entries_eq := c.entries_probe name path
  entries_coerce := fun _ => List.append_nil _
  entries_fromValue := fun _ _ => List.append_nil _
  entries_demand := c.entries_probe_demand name path
  error_iff := by
    intro s
    rw [entries_probe_demand]
    constructor
    · rintro ⟨e, he, herror⟩
      rcases List.mem_append.1 he with hprobe | hdemand
      · rw [level_of_mem_probe hprobe] at herror
        exact nomatch herror
      · cases hs : s.accepts (c.probe name path).result.value.unwrapConst.kind with
        | false => rfl
        | true =>
          rw [hs] at hdemand
          exact nomatch hdemand
    · intro hs
      rw [hs]
      exact ⟨_, List.mem_append_right _ List.mem_cons_self, rfl⟩

/-- An argument of two constants around an array whose second element is null: the null is
found, its elements are not, and no reading of what is found after it succeeds. -/
example :
    let c := (named "glFoo").pushArg "p" (.const "A" (.const "B" (.array [.bool true, .null])))
    let path : List Step := [.element 1, .element 0, .unwrap, .element 7]
    ((c.probe "p" path).andThen fun f => f.value.demand .signedInteger).entries =
      [.event (.notAnArray 0 .null), .event (.notAnArray 7 .null),
        .event (.coercionFailed ⟨.signedInteger, .null⟩)] := by
  decide

end Call

end CallCapture
