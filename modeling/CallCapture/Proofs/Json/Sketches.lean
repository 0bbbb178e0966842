import CallCapture.Json.Capture
import CallCapture.Proofs.Json.Reading
import CallCapture.Proofs.Utf8.Segmentation

/-!
# What the text of a capture keeps

The text of a value or a call is well-formed JSON, and it keeps a sketch and nothing else
(`texts_keep_sketches`).

The way back goes in two steps.  The reader gives the document, because all numerals in it are
number literals (`Value.wellFormed_json`, `Call.wellFormed_json`), and the sketch is read off the
document (`Value.ofJson?_json`, `Call.ofJson?_json`).  So equal texts have equal sketches.  For
the converse, the document is written again from the sketch alone (`Value.document_sketch`,
`Call.document_sketch`).
-/

namespace CallCapture

/-! ## Documents are well-formed -/

namespace Json

theorem wellFormed_ofDouble (x : Double) : (ofDouble x).WellFormed := by
  unfold ofDouble
  split
  · next hx => exact .number (Reader.isNumber_text rfl (Or.inr rfl) hx)
  · exact .null

/-- An object is well-formed if the documents in its fields are; its tag is a string. -/
theorem wellFormed_tagged (k : Kind) {fields : List (String × Json)}
    (h : ∀ field ∈ fields, field.2.WellFormed) : (tagged k fields).WellFormed :=
  .object (List.forall_mem_cons.2 ⟨.string _, h⟩)

theorem wellFormed_tagged_singleton (k : Kind) (key : String) {j : Json} (h : j.WellFormed) :
    (tagged k [(key, j)]).WellFormed :=
  wellFormed_tagged k (List.forall_mem_singleton.2 h)

end Json

/-- The document of a value is well-formed. -/
theorem Value.wellFormed_json (v : Value) : v.json.WellFormed := by
  induction v with
  | null => exact Json.wellFormed_tagged _ nofun
  | bool b => exact Json.wellFormed_tagged_singleton _ _ (.bool b)
  | sint n => exact Json.wellFormed_tagged_singleton _ _ (.number (Json.Reader.isNumber_intText _))
  | uint n => exact Json.wellFormed_tagged_singleton _ _ (.number (Json.Reader.isNumber_natText _))
  | float x => exact Json.wellFormed_tagged_singleton _ _ (Json.wellFormed_ofDouble x)
  | str bytes => exact Json.wellFormed_tagged_singleton _ _ (.string _)
  | const name v ih =>
    exact Json.wellFormed_tagged _
      (List.forall_mem_cons.2 ⟨.string name, List.forall_mem_singleton.2 ih⟩)
  | array vs ih =>
    refine Json.wellFormed_tagged_singleton _ _ (.array ?_)
    rw [jsonAll_eq_map]
    exact List.forall_mem_map.2 ih
  | blob bytes =>
    exact Json.wellFormed_tagged_singleton _ _ (.number (Json.Reader.isNumber_natText _))

theorem Arg.wellFormed_json (a : Arg) : a.json.WellFormed :=
  .object (List.forall_mem_cons.2 ⟨.string _, List.forall_mem_singleton.2 a.value.wellFormed_json⟩)

/-- The document of a call is well-formed. -/
theorem Call.wellFormed_json (c : Call) : c.json.WellFormed := by
  have hargs : (Json.array (c.args.map Arg.json)).WellFormed :=
    .array (List.forall_mem_map.2 fun a _ => a.wellFormed_json)
  refine .object (List.forall_mem_cons.2 ⟨.string c.name, List.forall_mem_cons.2 ⟨hargs, ?_⟩⟩)
  refine List.forall_mem_singleton.2 ?_
  cases c.ret? with
  | none => exact .null
  | some v => exact v.wellFormed_json

/-! ## From documents to sketches -/

theorem Sketch.ofJsons?_map {vs : List Value} (h : ∀ v ∈ vs, ofJson? v.json = some v.sketch) :
    ofJsons? (vs.map Value.json) = some (vs.map Value.sketch) := by
  induction vs with
  | nil => rfl
  | cons v vs ih =>
    obtain ⟨hv, hvs⟩ := List.forall_mem_cons.1 h
    rw [List.map_cons, ofJsons?, hv, ih hvs]
    rfl

/-- **The sketch of a value** is read off its document. -/
theorem Value.ofJson?_json (v : Value) : Sketch.ofJson? v.json = some v.sketch := by
  induction v with
  | null => rfl
  | bool b => rfl
  | sint n =>
    show (readInt (intText n.toInt)).map Sketch.sint = _
    rw [readInt_intText]
    rfl
  | uint n =>
    show (readNat (natText n.toNat)).map Sketch.uint = _
    rw [readNat_natText]
    rfl
  | float x =>
    rw [json, sketch, Json.ofDouble]
    cases x.isFinite <;> rfl
  | str bytes => rfl
  | const name v ih =>
    show (Sketch.ofJson? v.json).map (Sketch.const name) = _
    rw [ih]
    rfl
  | array vs ih =>
    show (Sketch.ofJsons? (jsonAll vs)).map Sketch.array = _
    rw [jsonAll_eq_map, Sketch.ofJsons?_map ih, sketch, sketches_eq_map]
    rfl
  | blob bytes =>
    show (readNat (natText bytes.size)).map Sketch.blob = _
    rw [readNat_natText]
    rfl

theorem Arg.ofJson?_json (a : Arg) :
    CallSketch.argOfJson? a.json = some (a.name, a.value.sketch) := by
  show (Sketch.ofJson? a.value.json).map (a.name, ·) = _
  rw [a.value.ofJson?_json]
  rfl

/-- The return value is read off its field, and nothing is not mistaken for a value. -/
theorem Call.retOfJson?_json (ret? : Option Value) :
    CallSketch.retOfJson? (match ret? with
      | none => .null
      | some v => v.json) = some (ret?.map Value.sketch) := by
  cases ret? with
  | none => rfl
  | some v =>
    have hobject : CallSketch.retOfJson? v.json = (Sketch.ofJson? v.json).map some := by
      cases v <;> rfl
    rw [hobject, v.ofJson?_json]
    rfl

/-- **The sketch of a call** is read off its document. -/
theorem Call.ofJson?_json (c : Call) : CallSketch.ofJson? c.json = some c.sketch := by
  have hargs : (c.args.map Arg.json).mapM CallSketch.argOfJson? =
      some (c.args.map fun a => (a.name, a.value.sketch)) := by
    induction c.args with
    | nil => rfl
    | cons a args ih =>
      rw [List.map_cons, List.mapM_cons, a.ofJson?_json, ih]
      rfl
  show (((c.args.map Arg.json).mapM CallSketch.argOfJson?).bind fun args =>
    (CallSketch.retOfJson? (match c.ret? with
      | none => .null
      | some v => v.json)).bind fun ret? => some (CallSketch.mk c.name args ret?)) = _
  rw [hargs, retOfJson?_json]
  rfl

/-! ## From sketches to documents -/

namespace Sketch

mutual

/-- The document that is written for values with a given sketch. -/
def document : Sketch → Json
  | .null => .tagged .null []
  | .bool b => .tagged .bool [("value", .bool b)]
  | .sint n => .tagged .sint [("value", .number (intText n))]
  | .uint n => .tagged .uint [("value", .number (natText n))]
  | .float none => .tagged .float [("value", .null)]
  | .float (some literal) => .tagged .float [("value", .number literal)]
  | .str text => .tagged .str [("value", .string text)]
  | .const name s => .tagged .const [("name", .string name), ("value", document s)]
  | .array ss => .tagged .array [("values", .array (documents ss))]
  | .blob size => .tagged .blob [("size", .number (natText size))]

/-- The documents for a list of sketches. -/
def documents : List Sketch → List Json
  | [] => []
  | s :: ss => document s :: documents ss

end

theorem documents_eq_map (ss : List Sketch) : documents ss = ss.map document :=
  eq_map_of_cons rfl (fun _ _ => rfl) ss

end Sketch

/-- The document of a value depends on nothing but its sketch. -/
theorem Value.document_sketch (v : Value) : v.sketch.document = v.json := by
  induction v with
  | float x =>
    rw [sketch, json, Json.ofDouble]
    cases x.isFinite <;> rfl
  | const name v ih => rw [sketch, Sketch.document, ih, json]
  | array vs ih =>
    have hitems : (vs.map sketch).map Sketch.document = vs.map json := by
      rw [List.map_map]
      exact List.map_congr_left ih
    rw [sketch, Sketch.document, Sketch.documents_eq_map, sketches_eq_map, hitems, json,
      jsonAll_eq_map]
  | _ => rfl

/-- The document that is written for calls with a given sketch. -/
def CallSketch.document (s : CallSketch) : Json :=
  .object
    [("name", .string s.name),
      ("args", .array (s.args.map fun a =>
        .object [("name", .string a.1), ("value", a.2.document)])),
      ("ret", match s.ret? with
        | none => .null
        | some r => r.document)]

/-- The document of a call depends on nothing but its sketch. -/
theorem Call.document_sketch (c : Call) : c.sketch.document = c.json := by
  have hargs : (c.args.map fun a => (a.name, a.value.sketch)).map (fun a =>
      Json.object [("name", .string a.1), ("value", a.2.document)]) = c.args.map Arg.json := by
    rw [List.map_map]
    refine List.map_congr_left fun a _ => ?_
    show Json.object [("name", .string a.name), ("value", a.value.sketch.document)] = a.json
    rw [a.value.document_sketch, Arg.json]
  rw [CallSketch.document, sketch, json, hargs]
  cases c.ret? with
  | none => rfl
  | some v =>
    show Json.object [_, _, ("ret", v.sketch.document)] = _
    rw [v.document_sketch]

/-! ## Texts -/

/-- The texts of documents keep a feature of what they are written for, and no more: each text
is one object without control characters, the feature is read back from it, and things with the
same feature have the same text. -/
structure Json.Keeps {α β : Type} (document : α → Json) (kept : α → β)
    (decode : Json → Option β) : Prop where
  isObject : ∀ a, ∃ fields, Json.read (document a).text = some (.object fields)
  printable : ∀ a, Json.Printable (document a).text.toList
  readBack : ∀ a, (Json.read (document a).text).bind decode = some (kept a)
  text_eq_iff : ∀ a b, (document a).text = (document b).text ↔ kept a = kept b

/-- Well-formed objects from which a feature can be read off, and which can be written again from
the feature, keep it in their texts. -/
theorem Json.Keeps.of_document {α β : Type} {document : α → Json} {kept : α → β}
    {decode : Json → Option β} (hobject : ∀ a, ∃ fields, document a = .object fields)
    (hform : ∀ a, (document a).WellFormed) (hdecode : ∀ a, decode (document a) = some (kept a))
    (rebuild : β → Json) (hrebuild : ∀ a, rebuild (kept a) = document a) :
    Json.Keeps document kept decode where
  isObject a := by
    obtain ⟨fields, hfields⟩ := hobject a
    exact ⟨fields, by rw [read_text (hform a), hfields]⟩
  printable a := by
    rw [Json.text, String.toList_ofList]
    exact (hform a).printable_onto [] .nil
  readBack a := by rw [read_text (hform a), Option.bind_some, hdecode]
  text_eq_iff a b := by
    constructor
    · intro htext
      have hdocument : some (document a) = some (document b) := by
        rw [← read_text (hform a), ← read_text (hform b), htext]
      have hkept : some (kept a) = some (kept b) := by
        rw [← hdecode a, ← hdecode b, Option.some.inj hdocument]
      exact Option.some.inj hkept
    · intro hkept
      rw [← hrebuild a, ← hrebuild b, hkept]

/-- **The text of a capture keeps its sketch and no more.**  The text of every value and of every
call is one JSON object without control characters, the sketch is read back from it, and two
texts are equal just if the sketches are.  A call that has returned nothing is told apart from
every call that has returned something, be it null.  What is kept of a string is the text of its
only cut, with one replacement character for each ill-formed part. -/
theorem texts_keep_sketches :
    Json.Keeps Value.json Value.sketch Sketch.ofJson? ∧
    Json.Keeps Call.json Call.sketch CallSketch.ofJson? ∧
    (∀ (c d : Call) (v : Value),
      (Call.json { c with ret? := none }).text ≠ (d.setRet v).json.text) ∧
    ∀ bytes : List UInt8, ∃ ss : List Utf8.Segment,
      Utf8.Cut bytes ss ∧ (∀ ts, Utf8.Cut bytes ts → ts = ss) ∧
      (Value.str bytes).sketch = .str (.ofList (ss.map Utf8.Segment.shown)) := by
  have hcalls : Json.Keeps Call.json Call.sketch CallSketch.ofJson? :=
    .of_document (fun _ => ⟨_, rfl⟩) Call.wellFormed_json Call.ofJson?_json CallSketch.document
      Call.document_sketch
  refine ⟨?_, hcalls, ?_, ?_⟩
  · refine .of_document ?_ Value.wellFormed_json Value.ofJson?_json Sketch.document
      Value.document_sketch
    intro v
    cases v <;> exact ⟨_, rfl⟩
  · intro c d v htext
    have hsketch := (hcalls.text_eq_iff _ _).1 htext
    exact nomatch congrArg CallSketch.ret? hsketch
  · intro bytes
    have hcut := Utf8.cut_segments bytes
    refine ⟨Utf8.segments bytes, hcut, fun ts => hcut.unique, ?_⟩
    rw [Value.sketch, Utf8.lossy]

end CallCapture
