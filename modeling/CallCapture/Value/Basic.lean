import CallCapture.Double.Basic
import CallCapture.Text.Utf8

/-!
# Captured values

What a traced function received or returned is kept as a tree, whose nodes have one of nine
kinds.  Leaves are null, booleans, 64-bit integers with and without sign, doubles, strings and
blobs.  A *constant* is a name together with the value that the name stands for, and an *array*
holds the elements behind a pointer; a pointer to a single object is an array of one element.

Strings are bytes, since nothing forces a traced program to produce UTF-8.  Blobs are
opaque: nothing but their size is ever shown.

* `Kind` --- the nine kinds, with two texts each: the *label*, a capitalised word that names the
  kind in structured output (`SInt`), and the *description*, the phrase that messages to people
  use (`signed integer`).
* `Value`, `Value.ind` --- the trees, and induction on them with the elements of arrays.
* `Value.unwrapConst` --- strips all constants at the top of a tree, for readers that care about
  the value and not about its name.
* `Visitor`, `Value.visit` --- one handler for each kind of node.  The handlers of constants and
  arrays are given the visits of the children, which they may use or leave alone: when `β` is a
  type of actions, a visit that a handler leaves alone never runs.  There is no default handler,
  so a visitor says what it does with every kind.
-/

namespace CallCapture

/-! ## Kinds -/

/-- The nine kinds of a captured value. -/
inductive Kind where
  | null
  | bool
  | sint
  | uint
  | float
  | str
  | const
  | array
  | blob
  deriving DecidableEq

namespace Kind

/-- Every kind, in the order of declaration. -/
def all : List Kind :=
  [.null, .bool, .sint, .uint, .float, .str, .const, .array, .blob]

/-- The word that names the kind in structured output. -/
def label : Kind → String
  | .null => "Null"
  | .bool => "Bool"
  | .sint => "SInt"
  | .uint => "UInt"
  | .float => "Float"
  | .str => "Str"
  | .const => "Const"
  | .array => "Array"
  | .blob => "Blob"

/-- The phrase that names the kind in messages. -/
def description : Kind → String
  | .null => "null"
  | .bool => "bool"
  | .sint => "signed integer"
  | .uint => "unsigned integer"
  | .float => "float"
  | .str => "string"
  | .const => "constant"
  | .array => "array"
  | .blob => "blob"

/-- The name of the record that holds a value of this kind. -/
def recordName (k : Kind) : String :=
  k.label ++ "Value"

/-- The kind with a given label. -/
def ofLabel? (text : String) : Option Kind :=
  all.find? (·.label == text)

theorem ofLabel?_label (k : Kind) : ofLabel? k.label = some k := by
  cases k <;> decide

end Kind

/-! ## Trees -/

/-- A captured value. -/
inductive Value where
  | null
  | bool (value : Bool)
  | sint (value : Int64)
  | uint (value : UInt64)
  | float (value : Double)
  | str (bytes : List UInt8)
  | const (name : String) (value : Value)
  | array (elements : List Value)
  | blob (bytes : ByteArray)

namespace Value

instance : Inhabited Value :=
  ⟨.null⟩

/-- The string that holds the bytes of a text. -/
def ofText (text : String) : Value :=
  .str (Utf8.encode text)

/-- A pointer to one value. -/
def reference (v : Value) : Value :=
  .array [v]

/-- The kind of the node at the top of the tree; a constant is a constant. -/
def kind : Value → Kind
  | .null => .null
  | .bool _ => .bool
  | .sint _ => .sint
  | .uint _ => .uint
  | .float _ => .float
  | .str _ => .str
  | .const .. => .const
  | .array _ => .array
  | .blob _ => .blob

/-- Whether the node itself is null; a constant that stands for null is not. -/
def isNull : Value → Bool
  | .null => true
  | _ => false

/-- The value under all constants at the top of the tree. -/
def unwrapConst : Value → Value
  | .const _ v => v.unwrapConst
  | v => v

/-- The elements of an array, looking through constants; no other value has elements. -/
def elements (v : Value) : List Value :=
  match v.unwrapConst with
  | .array vs => vs
  | _ => []

/-- Induction on values: an array has the property if all its elements have it. -/
@[elab_as_elim, induction_eliminator]
theorem ind {motive : Value → Prop} (null : motive .null)
    (bool : ∀ b, motive (.bool b)) (sint : ∀ n, motive (.sint n))
    (uint : ∀ n, motive (.uint n)) (float : ∀ x, motive (.float x))
    (str : ∀ bytes, motive (.str bytes))
    (const : ∀ name v, motive v → motive (.const name v))
    (array : ∀ vs, (∀ v ∈ vs, motive v) → motive (.array vs))
    (blob : ∀ bytes, motive (.blob bytes)) (v : Value) : motive v :=
  Value.rec null bool sint uint float str const array blob
    (fun _ h => nomatch h)
    (fun _ _ head tail w h => by
      rcases List.mem_cons.1 h with rfl | h
      · exact head
      · exact tail w h)
    v

@[simp]
theorem unwrapConst_const (name : String) (v : Value) :
    (Value.const name v).unwrapConst = v.unwrapConst := rfl

theorem unwrapConst_of_kind_ne {v : Value} (h : v.kind ≠ .const) : v.unwrapConst = v := by
  cases v <;> simp_all [kind, unwrapConst]

/-- What is left after stripping constants is no constant. -/
theorem kind_unwrapConst_ne (v : Value) : v.unwrapConst.kind ≠ .const := by
  induction v with
  | const name v ih => exact ih
  | _ => simp [unwrapConst, kind]

@[simp]
theorem unwrapConst_unwrapConst (v : Value) : v.unwrapConst.unwrapConst = v.unwrapConst :=
  unwrapConst_of_kind_ne v.kind_unwrapConst_ne

theorem isNull_iff {v : Value} : v.isNull = true ↔ v = .null := by
  cases v <;> simp [isNull]

theorem elements_of_array {v : Value} {vs : List Value} (h : v.unwrapConst = .array vs) :
    v.elements = vs := by
  simp only [elements, h]

theorem elements_of_kind_ne {v : Value} (h : v.unwrapConst.kind ≠ .array) : v.elements = [] := by
  unfold elements
  split
  · next vs hv =>
    rw [hv] at h
    exact absurd rfl h
  · rfl

/-- What lies under the constants is an array, or it is of another kind. -/
theorem array_or_kind_ne (v : Value) :
    (∃ vs, v.unwrapConst = .array vs) ∨ v.unwrapConst.kind ≠ .array := by
  cases v.unwrapConst with
  | array vs => exact Or.inl ⟨vs, rfl⟩
  | _ => exact Or.inr nofun

end Value

/-! ## Recursion into arrays -/

section Companions

variable {α : Type u} {β : Type v}

/-- A function on trees that goes into arrays has a companion on lists of trees, since an array
holds a list.  One that works from element to element maps the function over the list. -/
theorem eq_map_of_cons {f : α → β} {all : List α → List β} (nil : all [] = [])
    (cons : ∀ a as, all (a :: as) = f a :: all as) (as : List α) : all as = as.map f := by
  induction as with
  | nil => exact nil
  | cons a as ih => rw [cons, ih, List.map_cons]

/-- A companion that puts the lists of the elements one after the other. -/
theorem eq_flatMap_of_cons {f : α → List β} {all : List α → List β} (nil : all [] = [])
    (cons : ∀ a as, all (a :: as) = f a ++ all as) (as : List α) : all as = as.flatMap f := by
  induction as with
  | nil => exact nil
  | cons a as ih => rw [cons, ih, List.flatMap_cons]

end Companions

/-! ## Visitors -/

/-- One handler for each kind of node. -/
structure Visitor (β : Type u) where
  null : β
  bool : Bool → β
  sint : Int64 → β
  uint : UInt64 → β
  float : Double → β
  str : List UInt8 → β
  /-- Receives the name and the visit of the value that the name stands for. -/
  const : String → β → β
  /-- Receives the visits of the elements, in order. -/
  array : List β → β
  blob : ByteArray → β

namespace Value

variable {β : Type u}

mutual

/-- Routes a node to the handler of its kind. -/
def visit (h : Visitor β) : Value → β
  | .null => h.null
  | .bool b => h.bool b
  | .sint n => h.sint n
  | .uint n => h.uint n
  | .float x => h.float x
  | .str bytes => h.str bytes
  | .const name v => h.const name (visit h v)
  | .array vs => h.array (visitAll h vs)
  | .blob bytes => h.blob bytes

/-- The visits of a list of values. -/
def visitAll (h : Visitor β) : List Value → List β
  | [] => []
  | v :: vs => visit h v :: visitAll h vs

end

theorem visitAll_eq_map (h : Visitor β) (vs : List Value) :
    visitAll h vs = vs.map (visit h) :=
  eq_map_of_cons rfl (fun _ _ => rfl) vs

theorem visit_array (h : Visitor β) (vs : List Value) :
    visit h (.array vs) = h.array (vs.map (visit h)) := by
  rw [visit, visitAll_eq_map]

end Value

end CallCapture
