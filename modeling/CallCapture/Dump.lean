import CallCapture.Call
import CallCapture.Double.Text
import CallCapture.Sink
import CallCapture.Text.Numeral
import CallCapture.Value.Basic

/-!
# The dump of values and calls

The dump is a text for people and logs; it is not meant to be read back.

* Null is `NULL`, booleans are `true` and `false`, integers are decimal numerals.
* Doubles have the fewest digits that name them, with a power of ten below `1e-5` and from
  `1e16` on.
* Strings stand between double quotes with nothing escaped but the bytes that are not
  UTF-8.
* A constant shows its name only, a blob its size only.
* An array of one element is `&` and the element.  Other arrays list their elements
  between braces, and with a limit on elements, show only the first ones and a mark in
  place of the rest; the limit holds at every depth.
* A call is its name, the arguments between parentheses, the return value if there is one,
  and the end of the line.

The dump is a visitor whose handlers write into a `Sink`, so it ends at the first piece
that the sink refuses.
-/

namespace CallCapture

namespace Dump

/-- How values are shown. -/
structure Options where
  /-- How many elements of an array are shown at most; `none` shows all. -/
  maxElements? : Option Nat

/-- Every element is shown. -/
def Options.canonical : Options :=
  ⟨none⟩

/-- How many of `length` elements are shown. -/
def Options.shown (o : Options) (length : Nat) : Nat :=
  match o.maxElements? with
  | none => length
  | some most => min most length

/-- Doubles have no point if they are whole, and a power of ten below `1e-5` and from
`1e16` on. -/
def number : Layout where
  tie := .away
  plainFrom := ⟨0x3EE4F8B588E368F1⟩
  plainBelow := ⟨0x4341C37937E08000⟩
  whole := ""
  plus := ""
  nan := "NaN"
  infinity := "inf"
  negInfinity := "-inf"

variable {σ : Type}

/-- Writes items with a separator before all but the first, and gives the separator that
belongs before whatever follows them. -/
def items (k : Sink σ) (separator : String) : List (Writing σ Unit) → Writing σ String
  | [] => pure separator
  | item :: rest => do
    k.write separator
    item
    items k ", " rest

/-- Writes an array, given the actions that write its elements. -/
def array (k : Sink σ) (o : Options) : List (Writing σ Unit) → Writing σ Unit
  | [element] => do
    k.write "&"
    element
  | elements => do
    let shown := o.shown elements.length
    k.write "\x7b"
    let separator ← items k "" (elements.take shown)
    if shown < elements.length then
      k.write separator
      k.write "..."
    k.write "\x7d"

/-- The handlers that write a value. -/
def visitor (k : Sink σ) (o : Options) : Visitor (Writing σ Unit) where
  null := k.write "NULL"
  bool b := k.write (if b then "true" else "false")
  sint n := k.write (intText n.toInt)
  uint n := k.write (natText n.toNat)
  float x := k.write (number.text x)
  str bytes := do
    k.write "\""
    k.writeAll (Utf8.escaped bytes)
    k.write "\""
  const name _ := k.write name
  array := array k o
  blob bytes := do
    k.write "... "
    k.write (natText bytes.size)

/-- Writes a value. -/
def value (k : Sink σ) (o : Options) (v : Value) : Writing σ Unit :=
  v.visit (visitor k o)

/-- Writes an argument. -/
def argument (k : Sink σ) (o : Options) (a : Arg) : Writing σ Unit := do
  k.write a.name
  k.write " = "
  value k o a.value

/-- Writes the return value, if there is one. -/
def returned (k : Sink σ) (o : Options) : Option Value → Writing σ Unit
  | none => pure ()
  | some v => do
    k.write " = "
    value k o v

/-- Writes a call. -/
def call (k : Sink σ) (o : Options) (c : Call) : Writing σ Unit := do
  k.write c.name
  k.write "("
  let _ ← items k "" (c.args.map (argument k o))
  k.write ")"
  returned k o c.ret?
  k.write "\n"

end Dump

/-- Dumps a value into a sink. -/
def Value.dumpInto {σ : Type} (v : Value) (k : Sink σ) (o : Dump.Options) (s : σ) :
    Except Refused Unit × σ :=
  (Dump.value k o v).startFrom s

/-- The dump of a value. -/
def Value.dumpWith (v : Value) (o : Dump.Options) : String :=
  (v.dumpInto .text o "").2

/-- The dump of a value with all elements shown. -/
def Value.dump (v : Value) : String :=
  v.dumpWith .canonical

/-- Dumps a call into a sink, inside a span of the log. -/
def Call.dumpInto {σ : Type} (c : Call) (k : Sink σ) (o : Dump.Options) (s : σ) :
    Logged (Except Refused Unit × σ) :=
  (Logged.quiet ((Dump.call k o c).startFrom s)).inDumpSpan c.name

/-- The dump of a call. -/
def Call.dumpWith (c : Call) (o : Dump.Options) : Logged String :=
  (c.dumpInto .text o "").andThen fun r => .quiet r.2

/-- The dump of a call with all elements shown. -/
def Call.dump (c : Call) : Logged String :=
  c.dumpWith .canonical

end CallCapture
