import CallCapture.Coercion.Basic
import CallCapture.Value.Reduced

/-!
# Constants are transparent to readers

A reader moves through a tree by lookups and ends with a reading in some shape.  Both look
through constants, so the tree and its erasure should be the same to the reader, however
constants and arrays are nested.

The two runs are not equal: on the tree a step may answer with a constant, and the answer
on the erased tree is what that constant stands for.  What the steps keep is that the
answer on the erased tree is the *erasure* of the answer on the tree, and that the same
entries go to the log.

* `Found.step_erase` --- one step keeps this, and `Found.trail_erase` --- so does every
  step of a path.
* `Value.coerce_erase` --- a reading does not see the erasure.
* `Found.SameReadings` --- what a reader at the end of a path can tell, and
  `constants_transparent` --- it is the same for a tree and its erasure, also for paths
  that start at an argument of a call.
-/

namespace CallCapture

namespace Logged

variable {α : Type u} {β : Type v}

/-- The result changed, with the same entries. -/
def mapResult (f : α → β) (a : Logged α) : Logged β :=
  ⟨f a.result, a.entries⟩

@[simp] theorem result_mapResult (f : α → β) (a : Logged α) :
    (a.mapResult f).result = f a.result := rfl

@[simp] theorem entries_mapResult (f : α → β) (a : Logged α) :
    (a.mapResult f).entries = a.entries := rfl

end Logged

/-! ## What erasing does to a node -/

namespace Value

/-- No constant stands anywhere in the tree. -/
inductive ConstFree : Value → Prop where
  | null : ConstFree .null
  | bool (b : Bool) : ConstFree (.bool b)
  | sint (n : Int64) : ConstFree (.sint n)
  | uint (n : UInt64) : ConstFree (.uint n)
  | float (x : Double) : ConstFree (.float x)
  | str (bytes : List UInt8) : ConstFree (.str bytes)
  | array {vs : List Value} : (∀ v ∈ vs, ConstFree v) → ConstFree (.array vs)
  | blob (bytes : ByteArray) : ConstFree (.blob bytes)

/-- Erasing leaves no constant behind, at any depth. -/
theorem constFree_erase (v : Value) : v.erase.ConstFree := by
  induction v with
  | null => exact .null
  | bool b => exact .bool b
  | sint n => exact .sint n
  | uint n => exact .uint n
  | float x => exact .float x
  | str bytes => exact .str bytes
  | const name v ih =>
    rw [erase]
    exact ih
  | array vs ih =>
    rw [erase_array]
    refine .array fun w hw => ?_
    obtain ⟨v, hv, rfl⟩ := List.mem_map.1 hw
    exact ih v hv
  | blob bytes => exact .blob bytes

/-- Constants at the top are erased anyway. -/
@[simp] theorem erase_unwrapConst (v : Value) : v.unwrapConst.erase = v.erase := by
  induction v with
  | const name v ih => rw [unwrapConst_const, ih, erase]
  | _ => rfl

/-- The top of an erased tree has the kind that was under the constants. -/
theorem kind_erase (v : Value) : v.erase.kind = v.unwrapConst.kind := by
  induction v with
  | const name v ih => rw [unwrapConst_const, erase, ih]
  | _ => rfl

/-- There is no constant at the top of an erased tree. -/
@[simp] theorem unwrapConst_erase (v : Value) : v.erase.unwrapConst = v.erase := by
  refine unwrapConst_of_kind_ne ?_
  rw [kind_erase]
  exact v.kind_unwrapConst_ne

/-- An array under constants is erased element by element. -/
theorem erase_eq_array {v : Value} {vs : List Value} (h : v.unwrapConst = .array vs) :
    v.erase = .array (vs.map erase) := by
  rw [← erase_unwrapConst, h, erase_array]

/-! ## Readings -/

/-- **A reading does not see constants.**  The payload and the kind that an error names
are those of the erased tree. -/
theorem coerce_erase (s : Shape) (v : Value) : v.erase.coerce s = v.coerce s := by
  rw [← coerce_unwrapConst s v, ← erase_unwrapConst v]
  have hk := v.kind_unwrapConst_ne
  generalize v.unwrapConst = w at hk
  cases w with
  | const name w => exact absurd rfl hk
  | array vs =>
    rw [erase_array]
    cases s <;> rfl
  | _ => rfl

/-! ## Lookups -/

/-- What the lookups of elements see of an erased tree: the erased elements, and the same length
or kind where there is none. -/
theorem elements_erase (v : Value) :
    v.erase.elements = v.elements.map erase ∧ ∀ index, v.erase.missed index = v.missed index := by
  rcases v.array_or_kind_ne with ⟨vs, hvs⟩ | hk
  · have herase : v.erase.unwrapConst = .array (vs.map erase) := by
      rw [unwrapConst_erase, erase_eq_array hvs]
    rw [elements_of_array herase, elements_of_array hvs]
    refine ⟨rfl, fun index => ?_⟩
    rw [missed_of_array herase, missed_of_array hvs, List.length_map]
  · have hkind : v.erase.unwrapConst.kind = v.unwrapConst.kind := by
      rw [unwrapConst_erase, kind_erase]
    have herase := hkind ▸ hk
    rw [elements_of_kind_ne herase, elements_of_kind_ne hk]
    refine ⟨rfl, fun index => ?_⟩
    rw [missed_of_kind_ne herase, missed_of_kind_ne hk, hkind]

end Value

/-- A lookup that finds the erased value answers with the erased answer. -/
theorem Found.answer_erase (e : Event) (found : Option Value) :
    Found.answer e (found.map Value.erase) = (Found.answer e found).mapResult Found.erase := by
  cases found <;> rfl

/-- The element of an erased tree is the erased element, found or missed with the same
entries. -/
theorem Value.elementAt_erase (v : Value) (index : Nat) :
    v.erase.elementAt index = (v.elementAt index).mapResult Found.erase := by
  obtain ⟨helements, hmissed⟩ := v.elements_erase
  rw [elementAt_eq, elementAt_eq, helements, hmissed, List.getElem?_map, Found.answer_erase]

namespace Found

@[simp] theorem value_erase (f : Found) : f.erase.value = f.value.erase := by
  cases f <;> rfl

theorem unwrapConst_erase (f : Found) : f.erase.unwrapConst = f.unwrapConst.erase := by
  cases f with
  | absent => rfl
  | stored v =>
    show Found.stored v.erase.unwrapConst = Found.stored v.unwrapConst.erase
    rw [Value.unwrapConst_erase, Value.erase_unwrapConst]

/-- **One step.**  A step from what was found without constants answers with the answer
without constants, and leaves the same entries. -/
theorem step_erase (f : Found) (s : Step) :
    f.erase.step s = (f.step s).mapResult Found.erase := by
  cases s with
  | element index =>
    show f.erase.value.elementAt index = (f.value.elementAt index).mapResult Found.erase
    rw [value_erase, Value.elementAt_erase]
  | unwrap =>
    show Logged.quiet f.erase.unwrapConst = Logged.quiet f.unwrapConst.erase
    rw [unwrapConst_erase]

/-- **Every step of a path.** -/
theorem trail_erase (f : Found) (path : List Step) :
    f.erase.trail path = (f.trail path).map (Logged.mapResult Found.erase) := by
  induction path generalizing f with
  | nil => rfl
  | cons s path ih =>
    rw [trail, trail, List.map_cons, step_erase, Logged.result_mapResult, ih]

/-- The answer at the end of a path. -/
theorem result_follow_erase (f : Found) (path : List Step) :
    (f.erase.follow path).result = (f.follow path).result.erase := by
  induction path generalizing f with
  | nil => rfl
  | cons s path ih =>
    show (follow (f.erase.step s).result path).result =
      (follow (f.step s).result path).result.erase
    rw [step_erase, Logged.result_mapResult, ih]

/-- What a reader can tell at the end of a path is the same from `f` and from `g`, where
`g` stands for `f` without constants. -/
structure SameReadings (f g : Found) (path : List Step) : Prop where
  /-- Nothing is found from both or from neither. -/
  absent_iff : (g.follow path).result = .absent ↔ (f.follow path).result = .absent
  /-- What is found from `g` is what is found from `f`, without constants. -/
  erased : ∀ v, (f.follow path).result = .stored v →
    (g.follow path).result = .stored v.erase
  /-- Step by step, the same entries go to the log. -/
  entries : (g.trail path).map Logged.entries = (f.trail path).map Logged.entries
  /-- A reading in any shape gives the same payload or the same error. -/
  coerced : ∀ s, (g.follow path).result.value.coerce s = (f.follow path).result.value.coerce s

theorem sameReadings_erase (f : Found) (path : List Step) : SameReadings f f.erase path where
  absent_iff := by
    rw [result_follow_erase]
    cases (f.follow path).result <;> simp [Found.erase]
  erased := by
    intro v hv
    rw [result_follow_erase, hv]
    rfl
  entries := by
    rw [trail_erase, List.map_map]
    rfl
  coerced := by
    intro s
    rw [result_follow_erase, value_erase, Value.coerce_erase]

end Found

/-! ## Calls -/

namespace Call

/-- Looking up an argument by name, with the arguments erased. -/
theorem arg_eraseArgs (c : Call) (name : String) :
    c.eraseArgs.arg name = (c.arg name).mapResult Found.erase := by
  have hfind : (c.eraseArgs.args.find? (·.name == name)).map Arg.value =
      ((c.args.find? (·.name == name)).map Arg.value).map Value.erase := by
    rw [eraseArgs, List.find?_map, Option.map_map, Option.map_map]
    rfl
  rw [arg_eq, arg_eq, hfind, Found.answer_erase]
  rfl

/-- Looking up an argument by position, with the arguments erased. -/
theorem argAt_eraseArgs (c : Call) (index : Nat) :
    c.eraseArgs.argAt index = (c.argAt index).erase := by
  rw [argAt, argAt, eraseArgs, List.getElem?_map]
  cases c.args[index]? with
  | none => rfl
  | some a => rfl

end Call

/-- **Constants are transparent.**  A tree and its erasure, which has no constants left,
read alike at the end of every path, and so do a call and the call with its arguments
erased, from every argument asked for by name, with the same entry for a missing one, or
by position. -/
theorem constants_transparent :
    (∀ v : Value, v.erase.ConstFree) ∧
    (∀ (v : Value) (path : List Step),
      Found.SameReadings (.stored v) (.stored v.erase) path) ∧
    (∀ (c : Call) (name : String) (path : List Step),
      (c.eraseArgs.arg name).entries = (c.arg name).entries ∧
      Found.SameReadings (c.arg name).result (c.eraseArgs.arg name).result path) ∧
    (∀ (c : Call) (index : Nat) (path : List Step),
      Found.SameReadings (c.argAt index) (c.eraseArgs.argAt index) path) := by
  refine ⟨Value.constFree_erase, fun v path => Found.sameReadings_erase (.stored v) path, ?_, ?_⟩
  · intro c name path
    rw [Call.arg_eraseArgs]
    exact ⟨Logged.entries_mapResult _ _, Found.sameReadings_erase _ path⟩
  · intro c index path
    rw [Call.argAt_eraseArgs]
    exact Found.sameReadings_erase _ path

end CallCapture
