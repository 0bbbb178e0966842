import CallCapture.Dump

/-!
# The grammar of the dump

What the dump writes, said without sinks and separators that change on the way: a text by
recursion on the value, with lists of items joined by commas (`Dump.text`, `Dump.callText`).
`Dump.pieces` lists the pieces in which the dump of a value is written, in order, as a
sink that only keeps them sees them.

The dump of a call ends its line, and other line ends come only from names and strings:
the name of the call, the names of its arguments, and the names of constants and the bytes
of strings that are shown.  What is under a constant or past the limit on elements is not
shown.  `Dump.callLineEnds` counts them on the call, and `Dump.lines` cuts a text into lines,
after each line end.
-/

namespace CallCapture

namespace Dump

/-- The items of an array with the limit applied: the first ones, and the mark if some are
left out. -/
def elide (o : Options) (items : List String) : List String :=
  items.take (o.shown items.length) ++
    if o.shown items.length < items.length then ["..."] else []

/-- The text of an array, given the texts of its elements. -/
def arrayText (o : Options) : List String → String
  | [element] => "&" ++ element
  | elements => "\x7b" ++ ", ".intercalate (elide o elements) ++ "\x7d"

/-- The text of a string between its quotes. -/
def body (bytes : List UInt8) : String :=
  .join (Utf8.escaped bytes)

mutual

/-- The text of a value. -/
def text (o : Options) : Value → String
  | .null => "NULL"
  | .bool b => if b then "true" else "false"
  | .sint n => intText n.toInt
  | .uint n => natText n.toNat
  | .float x => number.text x
  | .str bytes => "\"" ++ body bytes ++ "\""
  | .const name _ => name
  | .array vs => arrayText o (texts o vs)
  | .blob bytes => "... " ++ natText bytes.size

/-- The texts of a list of values. -/
def texts (o : Options) : List Value → List String
  | [] => []
  | v :: vs => text o v :: texts o vs

end

theorem texts_eq_map (o : Options) (vs : List Value) : texts o vs = vs.map (text o) :=
  eq_map_of_cons rfl (fun _ _ => rfl) vs

/-- The text of an argument. -/
def argText (o : Options) (a : Arg) : String :=
  a.name ++ " = " ++ text o a.value

/-- The text of the return value. -/
def retText (o : Options) : Option Value → String
  | none => ""
  | some v => " = " ++ text o v

/-- The text of a call. -/
def callText (o : Options) (c : Call) : String :=
  c.name ++ "(" ++ ", ".intercalate (c.args.map (argText o)) ++ ")" ++ retText o c.ret? ++ "\n"

/-- The pieces in which a value is written. -/
def pieces (o : Options) (v : Value) : List String :=
  ((value .pieces o v).startFrom []).2

/-- The pieces in which a call is written. -/
def callPieces (o : Options) (c : Call) : List String :=
  ((call .pieces o c).startFrom []).2

/-! ## Line ends -/

/-- How many line ends a text has. -/
def lineEnds (text : String) : Nat :=
  text.toList.count '\n'

/-- Characters in lines, each with the line end that it ends in.  What follows the last line
end is one more line, if there is anything. -/
def cutLines : List Char → List (List Char)
  | [] => []
  | c :: rest =>
    if c = '\n' then [c] :: cutLines rest
    else
      match cutLines rest with
      | [] => [[c]]
      | line :: others => (c :: line) :: others

/-- The lines of a text, line ends included. -/
def lines (text : String) : List String :=
  (cutLines text.toList).map .ofList

/-- The sum of a list of counts. -/
def total : List Nat → Nat
  | [] => 0
  | n :: counts => n + total counts

/-- How many of the elements of an array are shown; a single element always is. -/
def Options.shownElements (o : Options) (length : Nat) : Nat :=
  if length = 1 then 1 else o.shown length

mutual

/-- How many line ends the names and strings that are shown of a value have. -/
def valueLineEnds (o : Options) : Value → Nat
  | .null => 0
  | .bool _ => 0
  | .sint _ => 0
  | .uint _ => 0
  | .float _ => 0
  | .str bytes => bytes.count 0x0A
  | .const name _ => lineEnds name
  | .array vs => total ((elementLineEnds o vs).take (o.shownElements vs.length))
  | .blob _ => 0

/-- The line ends of each value of a list. -/
def elementLineEnds (o : Options) : List Value → List Nat
  | [] => []
  | v :: vs => valueLineEnds o v :: elementLineEnds o vs

end

theorem elementLineEnds_eq_map (o : Options) (vs : List Value) :
    elementLineEnds o vs = vs.map (valueLineEnds o) :=
  eq_map_of_cons rfl (fun _ _ => rfl) vs

/-- How many line ends an argument shows, its name included. -/
def argLineEnds (o : Options) (a : Arg) : Nat :=
  lineEnds a.name + valueLineEnds o a.value

/-- How many line ends the arguments of a call show. -/
def argsLineEnds (o : Options) (args : List Arg) : Nat :=
  total (args.map (argLineEnds o))

/-- How many line ends a return value shows. -/
def retLineEnds (o : Options) : Option Value → Nat
  | none => 0
  | some v => valueLineEnds o v

/-- How many line ends the names and strings that are shown of a call have. -/
def callLineEnds (o : Options) (c : Call) : Nat :=
  lineEnds c.name + argsLineEnds o c.args + retLineEnds o c.ret?

end Dump

end CallCapture
