import CallCapture.Call

/-!
# Values with something left out

Four functions take a tree and keep only part of it.  Each is the other side of a statement about
what some reader can see: the reader cannot tell two trees apart of which the same part is kept.

* `Value.erase` --- every constant is replaced, at every depth, by the value that it stands for.
  Readers who look through constants cannot tell a tree from its erasure.
* `Value.prune` --- every array is shortened to its first elements, with a constant named `...` in
  place of the rest.  Shorter arrays keep all their elements, and what a constant stands for is
  left as it is.
* `Value.maskBlobs`, `Value.maskHidden` --- the bytes of every blob are blanked and its size is
  kept; the second also forgets what constants stand for.
* `Value.skeleton` --- the kind of every node, the names of constants, the sizes of blobs and the
  order of children, and nothing else.
-/

namespace CallCapture

/-! ## Without constants -/

namespace Value

mutual

/-- The tree with every constant replaced by the value it stands for. -/
def erase : Value → Value
  | .null => .null
  | .bool b => .bool b
  | .sint n => .sint n
  | .uint n => .uint n
  | .float x => .float x
  | .str bytes => .str bytes
  | .const _ v => erase v
  | .array vs => .array (eraseAll vs)
  | .blob bytes => .blob bytes

/-- The trees of a list without constants. -/
def eraseAll : List Value → List Value
  | [] => []
  | v :: vs => erase v :: eraseAll vs

end

theorem eraseAll_eq_map (vs : List Value) : eraseAll vs = vs.map erase :=
  eq_map_of_cons rfl (fun _ _ => rfl) vs

@[simp]
theorem erase_array (vs : List Value) : erase (.array vs) = .array (vs.map erase) := by
  rw [erase, eraseAll_eq_map]

end Value

/-- What was found, without constants. -/
def Found.erase : Found → Found
  | .absent => .absent
  | .stored v => .stored v.erase

/-- An argument without constants. -/
def Arg.erase (a : Arg) : Arg :=
  { a with value := a.value.erase }

/-- A call without constants in its arguments. -/
def Call.eraseArgs (c : Call) : Call :=
  { c with args := c.args.map Arg.erase }

/-! ## With short arrays -/

namespace Value

/-- The constant that stands in place of elements that are left out. -/
def ellipsis : Value :=
  .const "..." .null

/-- The first elements, and the mark if there are more. -/
def shorten (most : Nat) (vs : List Value) : List Value :=
  if vs.length ≤ most then vs else vs.take most ++ [ellipsis]

mutual

/-- The tree with every array shortened, except under constants. -/
def prune (most : Nat) : Value → Value
  | .null => .null
  | .bool b => .bool b
  | .sint n => .sint n
  | .uint n => .uint n
  | .float x => .float x
  | .str bytes => .str bytes
  | .const name v => .const name v
  | .array vs => .array (shorten most (pruneAll most vs))
  | .blob bytes => .blob bytes

/-- The trees of a list with their arrays shortened. -/
def pruneAll (most : Nat) : List Value → List Value
  | [] => []
  | v :: vs => prune most v :: pruneAll most vs

end

theorem pruneAll_eq_map (most : Nat) (vs : List Value) :
    pruneAll most vs = vs.map (prune most) :=
  eq_map_of_cons rfl (fun _ _ => rfl) vs

end Value

/-- A call with its arguments and its return value pruned. -/
def Call.prune (most : Nat) (c : Call) : Call where
  name := c.name
  args := c.args.map fun a => ⟨a.name, a.value.prune most⟩
  ret? := c.ret?.map (Value.prune most)

/-! ## Without contents -/

/-- A blob of the same size with all bytes zero. -/
def blank (bytes : ByteArray) : ByteArray :=
  ⟨Array.replicate bytes.size 0⟩

namespace Value

mutual

/-- The tree with every blob blanked. -/
def maskBlobs : Value → Value
  | .null => .null
  | .bool b => .bool b
  | .sint n => .sint n
  | .uint n => .uint n
  | .float x => .float x
  | .str bytes => .str bytes
  | .const name v => .const name (maskBlobs v)
  | .array vs => .array (maskBlobsAll vs)
  | .blob bytes => .blob (blank bytes)

/-- The trees of a list with every blob blanked. -/
def maskBlobsAll : List Value → List Value
  | [] => []
  | v :: vs => maskBlobs v :: maskBlobsAll vs

end

mutual

/-- The tree with every blob blanked and every constant standing for null. -/
def maskHidden : Value → Value
  | .null => .null
  | .bool b => .bool b
  | .sint n => .sint n
  | .uint n => .uint n
  | .float x => .float x
  | .str bytes => .str bytes
  | .const name _ => .const name .null
  | .array vs => .array (maskHiddenAll vs)
  | .blob bytes => .blob (blank bytes)

/-- The trees of a list with what is hidden masked. -/
def maskHiddenAll : List Value → List Value
  | [] => []
  | v :: vs => maskHidden v :: maskHiddenAll vs

end

theorem maskBlobsAll_eq_map (vs : List Value) : maskBlobsAll vs = vs.map maskBlobs :=
  eq_map_of_cons rfl (fun _ _ => rfl) vs

theorem maskHiddenAll_eq_map (vs : List Value) : maskHiddenAll vs = vs.map maskHidden :=
  eq_map_of_cons rfl (fun _ _ => rfl) vs

end Value

/-- Applies a mask to the arguments and the return value of a call. -/
def Call.mask (f : Value → Value) (c : Call) : Call where
  name := c.name
  args := c.args.map fun a => ⟨a.name, f a.value⟩
  ret? := c.ret?.map f

/-! ## Skeletons -/

/-- The shape of a tree of values. -/
inductive Skeleton where
  /-- A node without children of a kind of which nothing else is kept. -/
  | leaf (kind : Kind)
  | const (name : String) (inner : Skeleton)
  | array (elements : List Skeleton)
  | blob (size : Nat)

namespace Value

mutual

/-- The skeleton of a value. -/
def skeleton : Value → Skeleton
  | .null => .leaf .null
  | .bool _ => .leaf .bool
  | .sint _ => .leaf .sint
  | .uint _ => .leaf .uint
  | .float _ => .leaf .float
  | .str _ => .leaf .str
  | .const name v => .const name (skeleton v)
  | .array vs => .array (skeletons vs)
  | .blob bytes => .blob bytes.size

/-- The skeletons of a list of values. -/
def skeletons : List Value → List Skeleton
  | [] => []
  | v :: vs => skeleton v :: skeletons vs

end

theorem skeletons_eq_map (vs : List Value) : skeletons vs = vs.map skeleton :=
  eq_map_of_cons rfl (fun _ _ => rfl) vs

end Value

/-- The skeleton of a call: its name, the names and skeletons of its arguments, and the
skeleton of its return value. -/
structure CallSkeleton where
  name : String
  args : List (String × Skeleton)
  ret? : Option Skeleton

def Call.skeleton (c : Call) : CallSkeleton where
  name := c.name
  args := c.args.map fun a => (a.name, a.value.skeleton)
  ret? := c.ret?.map Value.skeleton

end CallCapture
