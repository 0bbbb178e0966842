import CallCapture.Diagnostic

/-!
# Reading primitives out of values

Readers know from the signature of the traced function what shape a value should have.
`Value.coerce` reads a value in a given shape or says what it found instead;
`Value.demand` is for readers to whom a mismatch is a mistake of their own: it records
the failure and stops with the text of the error.  Both look through constants.

An unsigned integer can be read as a signed one, bit for bit; nothing else is converted.
Null reads as an absent buffer, which is not the same as an empty one.

Whether a value can be read in a shape depends on one thing only, the kind of the node
under its constants.  `Shape.accepts` is the table of kinds for each shape.  A reading
follows it (`Value.coerce_cases`): one that is refused names the shape that was asked for
and the kind that was found.  A demand leaves an event exactly if it is refused
(`Value.entries_demand`).
-/

namespace CallCapture

/-- What a value of a given shape is read as. -/
abbrev Shape.Result : Shape → Type
  | .signedInteger => Int64
  | .unsignedInteger => UInt64
  | .double => Double
  | .buffer => Option ByteArray

namespace Value

/-- Reads a value in a given shape, looking through constants. -/
def coerce (s : Shape) (v : Value) : Except CoerceError s.Result :=
  match s, v.unwrapConst with
  | .signedInteger, .sint n => .ok n
  | .signedInteger, .uint n => .ok n.toInt64
  | .unsignedInteger, .uint n => .ok n
  | .double, .float x => .ok x
  | .buffer, .blob bytes => .ok (some bytes)
  | .buffer, .null => .ok none
  | s, other => .error ⟨s, other.kind⟩

/-- Reads a value in a shape that it has to have.  If it has not, the failure is recorded
and the reading stops with the detailed text of the error. -/
def demand (s : Shape) (v : Value) : Logged (Except String s.Result) :=
  match v.coerce s with
  | .ok a => .quiet (.ok a)
  | .error e => .note (.coercionFailed e) (.error e.detail)

end Value

/-- The types that values can be read as without naming a shape. -/
class FromValue (α : Type) where
  fromValue : Value → Except CoerceError α

export FromValue (fromValue)

instance : FromValue Int64 :=
  ⟨Value.coerce .signedInteger⟩

instance : FromValue UInt64 :=
  ⟨Value.coerce .unsignedInteger⟩

instance : FromValue Double :=
  ⟨Value.coerce .double⟩

/-! ## Which readings succeed -/

/-- Whether a node of a kind can be read in a shape. -/
def Shape.accepts : Shape → Kind → Bool
  | .signedInteger, .sint => true
  | .signedInteger, .uint => true
  | .unsignedInteger, .uint => true
  | .double, .float => true
  | .buffer, .blob => true
  | .buffer, .null => true
  | _, _ => false

namespace Value

/-- Reading looks through constants. -/
theorem coerce_unwrapConst (s : Shape) (v : Value) : v.unwrapConst.coerce s = v.coerce s := by
  simp only [coerce, unwrapConst_unwrapConst]

/-- **The kind decides.**  A reading of an accepted kind succeeds, and a reading of any other
kind says what was asked for and what was found. -/
theorem coerce_cases (s : Shape) (v : Value) :
    (s.accepts v.unwrapConst.kind = true ∧ ∃ a, v.coerce s = .ok a) ∨
      (s.accepts v.unwrapConst.kind = false ∧
        v.coerce s = .error ⟨s, v.unwrapConst.kind⟩) := by
  have hk := v.kind_unwrapConst_ne
  rw [← coerce_unwrapConst s v]
  generalize v.unwrapConst = w at hk
  cases w with
  | const name w => exact absurd rfl hk
  | _ => cases s <;> simp [Shape.accepts, kind, coerce, unwrapConst]

/-- A demand leaves one event if the kind is refused, and otherwise none. -/
theorem entries_demand (s : Shape) (v : Value) :
    (v.demand s).entries =
      if s.accepts v.unwrapConst.kind then []
      else [.event (.coercionFailed ⟨s, v.unwrapConst.kind⟩)] := by
  rcases coerce_cases s v with ⟨hs, a, ha⟩ | ⟨hs, he⟩
  · rw [demand, ha, if_pos hs]
    rfl
  · rw [demand, he, hs]
    rfl

end Value

end CallCapture
