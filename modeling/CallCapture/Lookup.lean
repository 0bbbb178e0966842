import CallCapture.Diagnostic

/-!
# Looking into a value

Lookups never fail.  One that finds nothing answers `Found.absent`, which reads as null
and stays absent under every further lookup, and leaves an event that says why.  A null
that is stored in the tree is not absent: it was found.

* `Value.elementAt` --- the element of an array at an index.  `Value.elementAt_eq` is all that
  the rest of the library uses of it.
* `Found.trail`, `Found.follow` --- a path is a list of steps, each applied to what the step
  before found.  The trail has the answer and the entries of every step; following the path gives
  the last answer and all entries in one list.
* `Value.probes`, `Value.scan` --- a reader that does not know how many elements there are asks
  for one after the other until one reads as null.  The probes are the answers it gets, the last
  of which is the null; the scan lists the elements found before it.  A null in the array and the
  end of the array stop the scan alike, and only the log tells them apart.
-/

namespace CallCapture

/-- What a lookup found. -/
inductive Found where
  /-- Nothing. -/
  | absent
  /-- A value that stands in the tree. -/
  | stored (value : Value)

namespace Found

/-- What was found, read as a value; nothing reads as null. -/
def value : Found → Value
  | .absent => .null
  | .stored v => v

def isAbsent : Found → Bool
  | .absent => true
  | .stored _ => false

/-- What was found, or nothing. -/
def ofOption : Option Value → Found
  | none => .absent
  | some v => .stored v

/-- The value under all constants at the top of what was found. -/
def unwrapConst : Found → Found
  | .absent => .absent
  | .stored v => .stored v.unwrapConst

/-- The answer of a lookup that is recorded if it finds nothing. -/
def answer (e : Event) : Option Value → Logged Found
  | some v => .quiet (.stored v)
  | none => .note e .absent

end Found

/-! ## Elements -/

namespace Value

/-- The element of an array at an index, looking through constants. -/
def elementAt (v : Value) (index : Nat) : Logged Found :=
  match v.unwrapConst with
  | .array vs =>
    match vs[index]? with
    | some element => .quiet (.stored element)
    | none => .note (.indexOutOfRange index vs.length) .absent
  | other => .note (.notAnArray index other.kind) .absent

/-- What is recorded when there is no element at an index.  The node is told by what lies
under its constants. -/
def missed (v : Value) (index : Nat) : Event :=
  match v.unwrapConst with
  | .array vs => .indexOutOfRange index vs.length
  | other => .notAnArray index other.kind

theorem missed_of_array {v : Value} {vs : List Value} (h : v.unwrapConst = .array vs)
    (index : Nat) : v.missed index = .indexOutOfRange index vs.length := by
  simp only [missed, h]

/-- What is recorded of a value that is no array tells its kind. -/
theorem missed_of_kind_ne {v : Value} (h : v.unwrapConst.kind ≠ .array) (index : Nat) :
    v.missed index = .notAnArray index v.unwrapConst.kind := by
  unfold missed
  split
  · next vs hv =>
    rw [hv] at h
    exact absurd rfl h
  · rfl

/-- **Element lookup.**  The answer is the element at the index, and if there is none, what was
missed is recorded. -/
theorem elementAt_eq (v : Value) (index : Nat) :
    v.elementAt index = Found.answer (v.missed index) v.elements[index]? := by
  unfold elementAt
  split
  · next vs hv =>
    rw [missed_of_array hv, elements_of_array hv]
    cases vs[index]? <;> rfl
  · next hv =>
    have hk : v.unwrapConst.kind ≠ .array := by
      rcases v.array_or_kind_ne with ⟨vs, hvs⟩ | hk
      · exact absurd hvs (hv vs)
      · exact hk
    rw [missed_of_kind_ne hk, elements_of_kind_ne hk]
    rfl

end Value

/-! ## Paths -/

/-- One step of a path. -/
inductive Step where
  /-- To the element at an index. -/
  | element (index : Nat)
  /-- To the value under the constants. -/
  | unwrap
  deriving DecidableEq

namespace Found

/-- Takes one step from what was found. -/
def step (f : Found) : Step → Logged Found
  | .element index => f.value.elementAt index
  | .unwrap => .quiet f.unwrapConst

/-- The answers of the steps of a path, each with its entries. -/
def trail (f : Found) : List Step → List (Logged Found)
  | [] => []
  | s :: path => f.step s :: trail (f.step s).result path

/-- The answer at the end of a path, with the entries of all steps. -/
def follow (f : Found) : List Step → Logged Found
  | [] => .quiet f
  | s :: path => (f.step s).andThen fun g => follow g path

end Found

/-! ## Scans -/

namespace Value

/-- An element that is not null lies inside the array. -/
theorem lt_of_not_isNull_elementAt {v : Value} {index : Nat}
    (h : ¬(v.elementAt index).result.value.isNull = true) : index < v.elements.length := by
  rw [elementAt_eq] at h
  cases hw : v.elements[index]? with
  | some w => exact (List.getElem?_eq_some_iff.1 hw).1
  | none =>
    rw [hw] at h
    exact absurd rfl h

/-- The answers to asking for elements from an index on, up to the first that reads as
null. -/
def probesFrom (v : Value) (index : Nat) : List (Logged Found) :=
  if h : (v.elementAt index).result.value.isNull = true then
    [v.elementAt index]
  else
    v.elementAt index :: probesFrom v (index + 1)
termination_by v.elements.length - index
decreasing_by
  have := lt_of_not_isNull_elementAt h
  omega

/-- The answers to asking for elements from the first on, up to the first that reads as
null. -/
def probes (v : Value) : List (Logged Found) :=
  v.probesFrom 0

/-- The elements that a scan finds. -/
def scan (v : Value) : List Value :=
  v.probes.dropLast.map fun r => r.result.value

/-- What a scan leaves in the log. -/
def scanEntries (v : Value) : List Entry :=
  v.probes.flatMap Logged.entries

end Value

end CallCapture
