import CallCapture.Value.Basic

/-!
# Payloads

What a node holds depends on its kind: `Kind.Payload k` is the type of the contents of a
node of kind `k`.  A value is a kind together with a payload of that kind
(`Value.ofPayload_payload`, `Value.narrow_ofPayload`), and `Value.narrow` recovers the
payload if the value is of the kind asked for.  It looks at the node itself and does not
look through constants.
-/

namespace CallCapture

/-- The contents of a node of a given kind. -/
abbrev Kind.Payload : Kind → Type
  | .null => Unit
  | .bool => Bool
  | .sint => Int64
  | .uint => UInt64
  | .float => Double
  | .str => List UInt8
  | .const => String × Value
  | .array => List Value
  | .blob => ByteArray

/-- A value that was asked for its payload as a kind that it is not of. -/
structure Mismatch where
  wanted : Kind
  /-- The value, handed back to the caller. -/
  input : Value

/-- The text of a mismatch names the kind that was asked for, not the one found. -/
def Mismatch.message (m : Mismatch) : String :=
  "Only " ++ m.wanted.label ++ " can be converted to " ++ m.wanted.recordName

namespace Value

/-- The contents of a node. -/
def payload : (v : Value) → v.kind.Payload
  | .null => ()
  | .bool b => b
  | .sint n => n
  | .uint n => n
  | .float x => x
  | .str bytes => bytes
  | .const name v => (name, v)
  | .array vs => vs
  | .blob bytes => bytes

/-- The node of a given kind and contents. -/
def ofPayload : (k : Kind) → k.Payload → Value
  | .null, _ => .null
  | .bool, b => .bool b
  | .sint, n => .sint n
  | .uint, n => .uint n
  | .float, x => .float x
  | .str, bytes => .str bytes
  | .const, (name, v) => .const name v
  | .array, vs => .array vs
  | .blob, bytes => .blob bytes

/-- The contents of a node as those of a given kind. -/
def narrow (k : Kind) (v : Value) : Except Mismatch k.Payload :=
  if h : v.kind = k then .ok (h ▸ v.payload) else .error ⟨k, v⟩

@[simp]
theorem ofPayload_payload (v : Value) : ofPayload v.kind v.payload = v := by
  cases v <;> rfl

@[simp]
theorem kind_ofPayload (k : Kind) (p : k.Payload) : (ofPayload k p).kind = k := by
  cases k <;> rfl

@[simp]
theorem narrow_ofPayload (k : Kind) (p : k.Payload) : narrow k (ofPayload k p) = .ok p := by
  cases k <;> rfl

/-- Values of the same kind are payloads of one kind. -/
theorem exists_ofPayload_of_kind_eq {v w : Value} (h : v.kind = w.kind) :
    ∃ (k : Kind) (p q : k.Payload), v = ofPayload k p ∧ w = ofPayload k q := by
  have hw : ∀ k, k = w.kind → ∃ q : k.Payload, w = ofPayload k q := by
    rintro _ rfl
    exact ⟨w.payload, w.ofPayload_payload.symm⟩
  obtain ⟨q, hq⟩ := hw v.kind h
  exact ⟨v.kind, v.payload, q, v.ofPayload_payload.symm, hq⟩

end Value

end CallCapture
