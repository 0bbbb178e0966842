import CallCapture.Call
import CallCapture.Double.Text
import CallCapture.Text.Numeral
import CallCapture.Text.Quoted
import CallCapture.Value.Payload

/-!
# Outlines

An outline shows how a value is built, constructor by constructor and field by field.  It
is a small document of records, tagged items and lists, and can be laid out on one line
(`Outline.flat`) or over several lines with four more columns per level
(`Outline.pretty`).

Outlines show the bytes of a string as numbers, and of a blob only the size.
-/

namespace CallCapture

/-- A document of records, tagged items and lists. -/
inductive Outline where
  /-- A text that is never broken. -/
  | atom (text : String)
  /-- A constructor around one item. -/
  | tagged (tag : String) (item : Outline)
  /-- A constructor with named fields. -/
  | record (tag : String) (fields : List (String × Outline))
  | list (items : List Outline)

namespace Outline

/-! ## On one line -/

mutual

/-- The document on one line. -/
def flat : Outline → String
  | .atom text => text
  | .tagged tag item => tag ++ "(" ++ flat item ++ ")"
  | .record tag fields => tag ++ " \x7b " ++ ", ".intercalate (flatFields fields) ++ " \x7d"
  | .list items => "[" ++ ", ".intercalate (flatAll items) ++ "]"

/-- Each document on one line. -/
def flatAll : List Outline → List String
  | [] => []
  | item :: items => flat item :: flatAll items

/-- Each field on one line. -/
def flatFields : List (String × Outline) → List String
  | [] => []
  | (name, item) :: fields => (name ++ ": " ++ flat item) :: flatFields fields

end

/-! ## Over several lines -/

/-- The end of a line and the columns of the next one. -/
def newline (level : Nat) : String :=
  .ofList ('\n' :: List.replicate (4 * level) ' ')

/-- Each item on lines of its own, followed by a comma, one level deeper than the
brackets around them. -/
def block (level : Nat) (items : List String) : String :=
  .join (items.map fun item => newline (level + 1) ++ item ++ ",") ++ newline level

mutual

/-- The document over several lines, at a given level; the first line is not indented. -/
def prettyAt (level : Nat) : Outline → String
  | .atom text => text
  | .tagged tag item => tag ++ "(" ++ block level [prettyAt (level + 1) item] ++ ")"
  | .record tag fields => tag ++ " \x7b" ++ block level (prettyFields (level + 1) fields) ++ "\x7d"
  | .list [] => "[]"
  | .list (item :: items) =>
    "[" ++ block level (prettyAt (level + 1) item :: prettyAll (level + 1) items) ++ "]"

/-- Each document over several lines. -/
def prettyAll (level : Nat) : List Outline → List String
  | [] => []
  | item :: items => prettyAt level item :: prettyAll level items

/-- Each field over several lines. -/
def prettyFields (level : Nat) : List (String × Outline) → List String
  | [] => []
  | (name, item) :: fields => (name ++ ": " ++ prettyAt level item) :: prettyFields level fields

end

/-- The document over several lines. -/
def pretty (o : Outline) : String :=
  prettyAt 0 o

/-! ## Outlines of captures -/

/-- Doubles always have a point or a power of ten, with the latter below `1e-4` and from
`1e16` on. -/
def number : Layout where
  tie := .away
  plainFrom := ⟨0x3F1A36E2EB1C432D⟩
  plainBelow := ⟨0x4341C37937E08000⟩
  whole := ".0"
  plus := ""
  nan := "NaN"
  infinity := "inf"
  negInfinity := "-inf"

/-- A record with a single field. -/
def field (tag name : String) (item : Outline) : Outline :=
  .record tag [(name, item)]

end Outline

namespace Value

open Outline (field)

mutual

/-- The record that holds the contents of a node. -/
def contents : Value → Outline
  | .null => .atom Kind.null.recordName
  | .bool b => field Kind.bool.recordName "value" (.atom (if b then "true" else "false"))
  | .sint n => field Kind.sint.recordName "value" (.atom (intText n.toInt))
  | .uint n => field Kind.uint.recordName "value" (.atom (natText n.toNat))
  | .float x => field Kind.float.recordName "value" (.atom (Outline.number.text x))
  | .str bytes =>
    field Kind.str.recordName "value" (.list (bytes.map fun b => .atom (natText b.toNat)))
  | .const name v =>
    .record Kind.const.recordName
      [("name", .atom (Quoted.encode name)), ("value", .tagged v.kind.label (contents v))]
  | .array vs => field Kind.array.recordName "values" (.list (outlines vs))
  | .blob bytes => field Kind.blob.recordName "size" (.atom (natText bytes.size))

/-- The outlines of a list of values. -/
def outlines : List Value → List Outline
  | [] => []
  | v :: vs => .tagged v.kind.label (contents v) :: outlines vs

end

/-- The outline of a value: its contents, tagged by its kind. -/
def outline (v : Value) : Outline :=
  .tagged v.kind.label v.contents

theorem outlines_eq_map (vs : List Value) : outlines vs = vs.map outline :=
  eq_map_of_cons rfl (fun _ _ => rfl) vs

end Value

/-- The outline of a payload. -/
def Kind.Payload.outline (k : Kind) (p : k.Payload) : Outline :=
  (Value.ofPayload k p).contents

/-- The outline of an argument. -/
def Arg.outline (a : Arg) : Outline :=
  .record "Arg" [("name", .atom (Quoted.encode a.name)), ("value", a.value.outline)]

/-- The outline of a call. -/
def Call.outline (c : Call) : Outline :=
  .record "Call"
    [("name", .atom (Quoted.encode c.name)),
      ("args", .list (c.args.map Arg.outline)),
      ("ret", match c.ret? with
        | none => .atom "None"
        | some v => .tagged "Some" v.outline)]

end CallCapture
