import CallCapture.Call
import CallCapture.Double.Text
import CallCapture.Json.Basic

/-!
# Captures as JSON documents

Every value becomes an object whose first field, `$t`, names its kind.  Three things are
not kept: of a blob only the size is written, ill-formed parts of a string become
replacement characters, and a double that is not finite becomes null.

A call always has a field for its return value, which is null if there is none; a null
that was returned is an object like any other value.

A `Sketch` holds what the document of a value keeps of it: the whole tree with names,
integers and booleans, the size of a blob in place of its bytes, the text of a string with
replacement characters, and of a double the number that is written, if it is finite.
`Sketch.ofJson?` reads a sketch off a document.
-/

namespace CallCapture

namespace Json

/-- Doubles always have a point or a power of ten, with the latter below `1e-5` and from
`1e16` on and always signed. -/
def double : Layout where
  tie := .even
  plainFrom := ⟨0x3EE4F8B588E368F1⟩
  plainBelow := ⟨0x4341C37937E08000⟩
  whole := ".0"
  plus := "+"
  nan := "null"
  infinity := "null"
  negInfinity := "null"

/-- A double as a number, or null if it is not finite. -/
def ofDouble (x : Double) : Json :=
  if x.isFinite then .number (double.text x) else .null

/-- An object that names a kind in its first field. -/
def tagged (k : Kind) (fields : List (String × Json)) : Json :=
  .object (("$t", .string k.label) :: fields)

end Json

namespace Value

mutual

/-- The document of a value. -/
def json : Value → Json
  | .null => .tagged .null []
  | .bool b => .tagged .bool [("value", .bool b)]
  | .sint n => .tagged .sint [("value", .number (intText n.toInt))]
  | .uint n => .tagged .uint [("value", .number (natText n.toNat))]
  | .float x => .tagged .float [("value", .ofDouble x)]
  | .str bytes => .tagged .str [("value", .string (Utf8.lossy bytes))]
  | .const name v => .tagged .const [("name", .string name), ("value", json v)]
  | .array vs => .tagged .array [("values", .array (jsonAll vs))]
  | .blob bytes => .tagged .blob [("size", .number (natText bytes.size))]

/-- The documents of a list of values. -/
def jsonAll : List Value → List Json
  | [] => []
  | v :: vs => json v :: jsonAll vs

end

theorem jsonAll_eq_map (vs : List Value) : jsonAll vs = vs.map json :=
  eq_map_of_cons rfl (fun _ _ => rfl) vs

end Value

/-- The document of an argument. -/
def Arg.json (a : Arg) : Json :=
  .object [("name", .string a.name), ("value", a.value.json)]

/-- The document of a call. -/
def Call.json (c : Call) : Json :=
  .object
    [("name", .string c.name),
      ("args", .array (c.args.map Arg.json)),
      ("ret", match c.ret? with
        | none => .null
        | some v => v.json)]

/-! ## Sketches -/

/-- What the document of a value keeps. -/
inductive Sketch where
  | null
  | bool (value : Bool)
  | sint (value : Int)
  | uint (value : Nat)
  | float (literal? : Option String)
  | str (text : String)
  | const (name : String) (inner : Sketch)
  | array (elements : List Sketch)
  | blob (size : Nat)

namespace Value

mutual

/-- The sketch of a value. -/
def sketch : Value → Sketch
  | .null => .null
  | .bool b => .bool b
  | .sint n => .sint n.toInt
  | .uint n => .uint n.toNat
  | .float x => .float (if x.isFinite then some (Json.double.text x) else none)
  | .str bytes => .str (Utf8.lossy bytes)
  | .const name v => .const name (sketch v)
  | .array vs => .array (sketches vs)
  | .blob bytes => .blob bytes.size

/-- The sketches of a list of values. -/
def sketches : List Value → List Sketch
  | [] => []
  | v :: vs => sketch v :: sketches vs

end

theorem sketches_eq_map (vs : List Value) : sketches vs = vs.map sketch :=
  eq_map_of_cons rfl (fun _ _ => rfl) vs

end Value

namespace Sketch

mutual

/-- The sketch that a document describes. -/
def ofJson? : Json → Option Sketch
  | .object [("$t", .string "Null")] => some .null
  | .object [("$t", .string "Bool"), ("value", .bool b)] => some (.bool b)
  | .object [("$t", .string "SInt"), ("value", .number literal)] => (readInt literal).map .sint
  | .object [("$t", .string "UInt"), ("value", .number literal)] => (readNat literal).map .uint
  | .object [("$t", .string "Float"), ("value", .number literal)] => some (.float (some literal))
  | .object [("$t", .string "Float"), ("value", .null)] => some (.float none)
  | .object [("$t", .string "Str"), ("value", .string text)] => some (.str text)
  | .object [("$t", .string "Const"), ("name", .string name), ("value", inner)] =>
    (ofJson? inner).map (.const name)
  | .object [("$t", .string "Array"), ("values", .array items)] => (ofJsons? items).map .array
  | .object [("$t", .string "Blob"), ("size", .number literal)] => (readNat literal).map .blob
  | _ => none

/-- The sketches that documents describe, if all of them do. -/
def ofJsons? : List Json → Option (List Sketch)
  | [] => some []
  | j :: js =>
    match ofJson? j, ofJsons? js with
    | some s, some ss => some (s :: ss)
    | _, _ => none

end

end Sketch

/-- What the document of a call keeps. -/
structure CallSketch where
  name : String
  args : List (String × Sketch)
  ret? : Option Sketch

/-- The sketch of a call. -/
def Call.sketch (c : Call) : CallSketch where
  name := c.name
  args := c.args.map fun a => (a.name, a.value.sketch)
  ret? := c.ret?.map Value.sketch

namespace CallSketch

/-- The argument that a document describes. -/
def argOfJson? : Json → Option (String × Sketch)
  | .object [("name", .string name), ("value", item)] => (Sketch.ofJson? item).map (name, ·)
  | _ => none

/-- The return value that a field describes; null stands for none. -/
def retOfJson? : Json → Option (Option Sketch)
  | .null => some none
  | j => (Sketch.ofJson? j).map some

/-- The sketch of a call that a document describes. -/
def ofJson? : Json → Option CallSketch
  | .object [("name", .string name), ("args", .array args), ("ret", ret)] => do
    some ⟨name, ← args.mapM argOfJson?, ← retOfJson? ret⟩
  | _ => none

end CallSketch

end CallCapture
