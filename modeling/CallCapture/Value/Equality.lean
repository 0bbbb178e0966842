import CallCapture.Value.Basic

/-!
# Equality of captured values

`a == b` compares trees node by node: the kinds must agree, strings and blobs agree byte
for byte, constants in name and in value, arrays in length and element by element.
Doubles are compared as numbers, so a tree that holds a NaN anywhere differs from every
tree, itself included, and the two zeros count as equal.

`Value.hasNaN` and `Value.dropZeroSigns` say the same without a comparison: trees are
equal if they hold no NaN and are one and the same tree once zeros have lost their signs.
-/

namespace CallCapture.Value

mutual

/-- Equality of values, with doubles compared as numbers. -/
def beq : Value → Value → Bool
  | .null, .null => true
  | .bool a, .bool b => a == b
  | .sint a, .sint b => a == b
  | .uint a, .uint b => a == b
  | .float a, .float b => a.numEq b
  | .str a, .str b => a == b
  | .const m a, .const n b => m == n && beq a b
  | .array as, .array bs => beqAll as bs
  | .blob a, .blob b => a == b
  | _, _ => false

/-- Equality of lists of values. -/
def beqAll : List Value → List Value → Bool
  | [], [] => true
  | a :: as, b :: bs => beq a b && beqAll as bs
  | _, _ => false

end

instance : BEq Value :=
  ⟨beq⟩

theorem beq_def (a b : Value) : (a == b) = beq a b := rfl

/-- Values of different kinds are never equal. -/
theorem kind_eq_of_beq {a b : Value} (h : beq a b = true) : a.kind = b.kind := by
  cases a <;> cases b <;> simp_all [beq, kind]

/-! ## NaNs and zeros -/

mutual

/-- Whether the tree holds a NaN anywhere. -/
def hasNaN : Value → Bool
  | .null => false
  | .bool _ => false
  | .sint _ => false
  | .uint _ => false
  | .float x => x.isNaN
  | .str _ => false
  | .const _ v => hasNaN v
  | .array vs => anyNaN vs
  | .blob _ => false

/-- Whether some tree of a list holds a NaN. -/
def anyNaN : List Value → Bool
  | [] => false
  | v :: vs => hasNaN v || anyNaN vs

end

mutual

/-- The tree with the sign of every zero cleared. -/
def dropZeroSigns : Value → Value
  | .null => .null
  | .bool b => .bool b
  | .sint n => .sint n
  | .uint n => .uint n
  | .float x => .float (if x.isZero then .zero else x)
  | .str bytes => .str bytes
  | .const name v => .const name (dropZeroSigns v)
  | .array vs => .array (dropZeroSignsAll vs)
  | .blob bytes => .blob bytes

/-- The trees of a list with the sign of every zero cleared. -/
def dropZeroSignsAll : List Value → List Value
  | [] => []
  | v :: vs => dropZeroSigns v :: dropZeroSignsAll vs

end

theorem anyNaN_eq_any (vs : List Value) : anyNaN vs = vs.any hasNaN := by
  induction vs with
  | nil => rfl
  | cons v vs ih => rw [anyNaN, ih, List.any_cons]

theorem dropZeroSignsAll_eq_map (vs : List Value) :
    dropZeroSignsAll vs = vs.map dropZeroSigns :=
  eq_map_of_cons rfl (fun _ _ => rfl) vs

end CallCapture.Value
