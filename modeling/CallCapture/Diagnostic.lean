import CallCapture.Text.Numeral
import CallCapture.Value.Basic

/-!
# Diagnostics

A reader asks a value for one of four primitive *shapes*.  When the value does not have it, the
error records the shape that was asked for and the kind that was found.  Each shape has a stable
diagnostic code.

Reading a capture can also go wrong without an error: a lookup that finds nothing answers with
an absent value and leaves a record of why.  `Event` lists what is recorded, `Entry` adds
the marks of the span that surrounds the dump of a call, and `Logged` is a result together
with the entries that were recorded on the way to it, in order.

Every event and the opening of a span have the same parts when written out: a level, a
target that names the area of the library, a text and named fields (`Record`).
-/

namespace CallCapture

/-! ## Errors of coercion -/

/-- The primitive shape that a reader asks a value for. -/
inductive Shape where
  | signedInteger
  | unsignedInteger
  | double
  | buffer
  deriving DecidableEq

namespace Shape

/-- Every shape, in the order of the codes. -/
def all : List Shape :=
  [.signedInteger, .unsignedInteger, .double, .buffer]

/-- The word that names the shape in structured output. -/
def label : Shape → String
  | .signedInteger => "SignedInteger"
  | .unsignedInteger => "UnsignedInteger"
  | .double => "Double"
  | .buffer => "Buffer"

/-- The diagnostic code of a failure to read the shape. -/
def code : Shape → String
  | .signedInteger => "TM0001"
  | .unsignedInteger => "TM0002"
  | .double => "TM0003"
  | .buffer => "TM0004"

/-- The phrase for what would have been accepted. -/
def expected : Shape → String
  | .signedInteger => "a signed or unsigned integer"
  | .unsignedInteger => "an unsigned integer"
  | .double => "a float"
  | .buffer => "a blob or null"

/-- The shape with a given label. -/
def ofLabel? (text : String) : Option Shape :=
  all.find? (·.label == text)

theorem ofLabel?_label (s : Shape) : ofLabel? s.label = some s := by
  cases s <;> decide

/-- Distinct shapes have distinct codes. -/
theorem code_injective {s t : Shape} (h : s.code = t.code) : s = t := by
  revert h
  cases s <;> cases t <;> decide

end Shape

/-- A value did not have the shape that was asked for. -/
structure CoerceError where
  shape : Shape
  /-- The kind found under all constants. -/
  actual : Kind
  deriving DecidableEq

namespace CoerceError

def code (e : CoerceError) : String :=
  e.shape.code

/-- The message for people. -/
def message (e : CoerceError) : String :=
  "expected " ++ e.shape.expected ++ ", found " ++ e.actual.description

/-- The message with the diagnostic code. -/
def detail (e : CoerceError) : String :=
  e.message ++ " [" ++ e.code ++ "]"

end CoerceError

/-! ## What is recorded -/

/-- How serious a record is. -/
inductive Level where
  | trace
  | error
  deriving DecidableEq

def Level.label : Level → String
  | .trace => "TRACE"
  | .error => "ERROR"

/-- The parts of a record as they are written out. -/
structure Record where
  level : Level
  target : String
  text : String
  fields : List (String × String)
  deriving DecidableEq

/-- What is recorded while a capture is read. -/
inductive Event where
  /-- An element past the end of an array was asked for. -/
  | indexOutOfRange (index length : Nat)
  /-- An element was asked for of something that is no array. -/
  | notAnArray (index : Nat) (kind : Kind)
  /-- A call has no argument of the name that was asked for. -/
  | argumentNotFound (call name : String)
  /-- A value that had to have some shape did not have it. -/
  | coercionFailed (error : CoerceError)
  deriving DecidableEq

/-- The written form of an event. -/
def Event.record : Event → Record
  | .indexOutOfRange index length =>
    { level := .trace
      target := "trace_model::value"
      text := "element index out of range"
      fields := [("index", natText index), ("len", natText length)] }
  | .notAnArray index kind =>
    { level := .trace
      target := "trace_model::value"
      text := "element lookup on non-array value"
      fields := [("index", natText index), ("kind", kind.description)] }
  | .argumentNotFound call name =>
    { level := .trace
      target := "trace_model::call"
      text := "argument not found"
      fields := [("call", call), ("arg", name)] }
  | .coercionFailed error =>
    { level := .error
      target := "trace_model::coerce"
      text := error.message
      fields := [("code", error.code), ("actual", error.actual.description)] }

/-- The written form of the opening of the span around the dump of a call. -/
def dumpSpan (call : String) : Record where
  level := .trace
  target := "trace_model::dump"
  text := "dump_call"
  fields := [("call", call)]

/-- One entry of the log. -/
inductive Entry where
  | event (event : Event)
  | spanOpened (call : String)
  | spanEntered
  | spanLeft
  | spanClosed
  deriving DecidableEq

/-! ## Results with records -/

/-- A result and what was recorded on the way to it. -/
structure Logged (α : Type u) where
  result : α
  entries : List Entry

namespace Logged

variable {α : Type u} {β : Type v}

/-- A result that leaves no record. -/
def quiet (a : α) : Logged α :=
  ⟨a, []⟩

/-- A result with one event. -/
def note (e : Event) (a : α) : Logged α :=
  ⟨a, [.event e]⟩

/-- A result inside the span that surrounds the dump of a call. -/
def inDumpSpan (call : String) (a : Logged α) : Logged α :=
  ⟨a.result, [.spanOpened call, .spanEntered] ++ a.entries ++ [.spanLeft, .spanClosed]⟩

/-- Goes on from a result; the records of both parts are kept in order. -/
def andThen (a : Logged α) (f : α → Logged β) : Logged β :=
  ⟨(f a.result).result, a.entries ++ (f a.result).entries⟩

theorem andThen_assoc {γ : Type w} (a : Logged α) (f : α → Logged β) (g : β → Logged γ) :
    (a.andThen f).andThen g = a.andThen fun x => (f x).andThen g := by
  simp [andThen]

end Logged

end CallCapture
