import CallCapture.Call
import CallCapture.Tally

/-!
# Walks

A walk lists the places of a capture in the order in which a traversal enters and leaves
them.  Every value is a place of its own around the place of its contents, which carries
the name of a constant and the size of a blob; children lie between the entry and the exit
of the contents.  An argument surrounds its value, and a call its arguments and then its
return value, if it has one.

The moves of a walk say where the traversal is by kind, name and size, and two nodes that agree
in these look alike in it.  To say that two traversals meet the same nodes, the nodes have to be
kept: `Value.tour` is the walk with the node that every move is about, `Value.preorder` lists the
nodes, each before its children, and `Value.handled` those with which the handlers of a visitor
are called that goes through constants and into arrays.

All nodes are walked in the same way: `Value.place` is the place of the contents of a node and
`Value.children` are the values below it.  `Value.childInd` is induction on values in these
terms.
-/

namespace CallCapture

namespace Walk

/-- What is entered and left. -/
inductive Place where
  | value
  | null
  | bool
  | sint
  | uint
  | float
  | str
  | const (name : String)
  | array
  | blob (size : Nat)
  | arg (name : String)
  | call (name : String)
  deriving DecidableEq

/-- The words for a place. -/
def Place.label : Place → String
  | .value => "Value"
  | .null => Kind.null.recordName
  | .bool => Kind.bool.recordName
  | .sint => Kind.sint.recordName
  | .uint => Kind.uint.recordName
  | .float => Kind.float.recordName
  | .str => Kind.str.recordName
  | .const name => Kind.const.recordName ++ " " ++ name
  | .array => Kind.array.recordName
  | .blob size => Kind.blob.recordName ++ " " ++ natText size
  | .arg name => "Arg " ++ name
  | .call name => "Call " ++ name

/-- One event of a walk. -/
inductive Move where
  | enter (place : Place)
  | leave (place : Place)
  deriving DecidableEq

def Move.label : Move → String
  | .enter place => "+" ++ place.label
  | .leave place => "-" ++ place.label

/-- Follows moves with the places that are open, innermost first.  A place can only be
left while it is the innermost one. -/
def replay : List Place → List Move → Option (List Place)
  | opened, [] => some opened
  | opened, .enter place :: moves => replay (place :: opened) moves
  | [], .leave _ :: _ => none
  | top :: opened, .leave place :: moves => if top = place then replay opened moves else none

/-- Whether every place that is entered is left again, in the opposite order. -/
def Nested (moves : List Move) : Prop :=
  replay [] moves = some []

/-- A place around the walk of what lies in it. -/
def around (place : Place) (inside : List Move) : List Move :=
  .enter place :: (inside ++ [.leave place])

end Walk

open Walk (around Move)

namespace Value

mutual

/-- The walk of a value. -/
def walk : Value → List Move
  | .null => around .value (around .null [])
  | .bool _ => around .value (around .bool [])
  | .sint _ => around .value (around .sint [])
  | .uint _ => around .value (around .uint [])
  | .float _ => around .value (around .float [])
  | .str _ => around .value (around .str [])
  | .const name v => around .value (around (.const name) (walk v))
  | .array vs => around .value (around .array (walkAll vs))
  | .blob bytes => around .value (around (.blob bytes.size) [])

/-- The walks of a list of values, one after the other. -/
def walkAll : List Value → List Move
  | [] => []
  | v :: vs => walk v ++ walkAll vs

end

theorem walkAll_eq_flatMap (vs : List Value) : walkAll vs = vs.flatMap walk :=
  eq_flatMap_of_cons rfl (fun _ _ => rfl) vs

end Value

/-- The walk of an argument. -/
def Arg.walk (a : Arg) : List Move :=
  around (.arg a.name) a.value.walk

/-- The walk of a call. -/
def Call.walk (c : Call) : List Move :=
  around (.call c.name) (c.args.flatMap Arg.walk ++ (c.ret?.map Value.walk).getD [])

/-! ## Nodes and their children -/

namespace Value

/-- The place of the contents of a node. -/
def place : Value → Walk.Place
  | .null => .null
  | .bool _ => .bool
  | .sint _ => .sint
  | .uint _ => .uint
  | .float _ => .float
  | .str _ => .str
  | .const name _ => .const name
  | .array _ => .array
  | .blob bytes => .blob bytes.size

/-- The values directly below a node. -/
def children : Value → List Value
  | .const _ v => [v]
  | .array vs => vs
  | _ => []

/-- Induction on values: a value has the property if its children have it. -/
theorem childInd {motive : Value → Prop}
    (node : ∀ v : Value, (∀ w ∈ v.children, motive w) → motive v) (v : Value) : motive v := by
  induction v with
  | const name v ih =>
    refine node _ fun w hw => ?_
    rw [List.mem_singleton.1 hw]
    exact ih
  | array vs ih => exact node _ ih
  | _ => exact node _ fun w hw => nomatch hw

/-! ## Tours -/

/-- The moves at a node around those inside of it. -/
def tourAround (v : Value) (inside : List (Move × Value)) : List (Move × Value) :=
  (.enter .value, v) :: (.enter v.place, v) ::
    (inside ++ [(.leave v.place, v), (.leave .value, v)])

mutual

/-- The walk of a value, each move with the node that it is about. -/
def tour : Value → List (Move × Value)
  | .const name v => tourAround (.const name v) (tour v)
  | .array vs => tourAround (.array vs) (tourAll vs)
  | .null => tourAround .null []
  | .bool b => tourAround (.bool b) []
  | .sint n => tourAround (.sint n) []
  | .uint n => tourAround (.uint n) []
  | .float x => tourAround (.float x) []
  | .str bytes => tourAround (.str bytes) []
  | .blob bytes => tourAround (.blob bytes) []

/-- The tours of a list of values, one after the other. -/
def tourAll : List Value → List (Move × Value)
  | [] => []
  | v :: vs => tour v ++ tourAll vs

end

/-! ## Nodes in order -/

mutual

/-- The nodes of a tree, each before its children. -/
def preorder : Value → List Value
  | .const name v => .const name v :: preorder v
  | .array vs => .array vs :: preorderAll vs
  | .null => [.null]
  | .bool b => [.bool b]
  | .sint n => [.sint n]
  | .uint n => [.uint n]
  | .float x => [.float x]
  | .str bytes => [.str bytes]
  | .blob bytes => [.blob bytes]

/-- The nodes of a list of trees. -/
def preorderAll : List Value → List Value
  | [] => []
  | v :: vs => preorder v ++ preorderAll vs

end

/-! ## Handler calls -/

/-- Notes that a handler is called with a node. -/
def noteHandled (v : Value) : StateM (List Value) Unit :=
  modify (· ++ [v])

/-- Handlers that note the node they are called with and go on to its children.  Every visit
comes with the value that it visits, so that a handler can put its own node together. -/
def handlers : Visitor (Value × StateM (List Value) Unit) where
  null := (.null, noteHandled .null)
  bool b := (.bool b, noteHandled (.bool b))
  sint n := (.sint n, noteHandled (.sint n))
  uint n := (.uint n, noteHandled (.uint n))
  float x := (.float x, noteHandled (.float x))
  str bytes := (.str bytes, noteHandled (.str bytes))
  const name inner :=
    (.const name inner.1, do
      noteHandled (.const name inner.1)
      inner.2)
  array elements :=
    (.array (elements.map Prod.fst), do
      noteHandled (.array (elements.map Prod.fst))
      elements.forM Prod.snd)
  blob bytes := (.blob bytes, noteHandled (.blob bytes))

/-- The nodes with which handlers are called, in the order of the calls. -/
def handled (v : Value) : List Value :=
  ((v.visit handlers).2.run []).2

/-! ## The same equation for every node -/

theorem walk_eq (v : Value) :
    v.walk = Walk.around .value (Walk.around v.place (v.children.flatMap walk)) := by
  cases v with
  | const name v => rw [walk, children, List.flatMap_singleton]; rfl
  | array vs => rw [walk, walkAll_eq_flatMap]; rfl
  | _ => rfl

theorem tourAll_eq_flatMap (vs : List Value) : tourAll vs = vs.flatMap tour :=
  eq_flatMap_of_cons rfl (fun _ _ => rfl) vs

theorem tour_eq (v : Value) : v.tour = tourAround v (v.children.flatMap tour) := by
  cases v with
  | const name v => rw [tour, children, List.flatMap_singleton]
  | array vs => rw [tour, tourAll_eq_flatMap]; rfl
  | _ => rfl

theorem preorderAll_eq_flatMap (vs : List Value) : preorderAll vs = vs.flatMap preorder :=
  eq_flatMap_of_cons rfl (fun _ _ => rfl) vs

theorem preorder_eq (v : Value) : v.preorder = v :: v.children.flatMap preorder := by
  cases v with
  | const name v => rw [preorder, children, List.flatMap_singleton]
  | array vs => rw [preorder, preorderAll_eq_flatMap]; rfl
  | _ => rfl

end Value

end CallCapture
