import CallCapture.Text.Numeral
import CallCapture.Value.Basic

/-!
# A visitor that counts

`Tally.visitor` visits every node of a value, through constants and into arrays.  It
counts the handlers that were called, in its state, and shows the tree in a plain form
with the bits of doubles and the bytes of strings in hexadecimal.
-/

namespace CallCapture

namespace Tally

/-- Counts one call of a handler. -/
def count : StateM Nat Unit :=
  modify (· + 1)

/-- The number in hexadecimal digits, at least `width` of them. -/
def hexText (width n : Nat) : String :=
  let digits := Nat.toDigits 16 n
  .ofList (List.replicate (width - digits.length) '0' ++ digits)

/-- Bytes in hexadecimal, two digits each. -/
def bytesText (bytes : List UInt8) : String :=
  .ofList (bytes.flatMap Utf8.hex)

/-- The bits of a number in hexadecimal; all NaNs are shown alike. -/
def doubleText (x : Double) : String :=
  if x.isNaN then "nan" else hexText 16 x.bits.toNat

/-- Runs actions in order and collects their results. -/
def inOrder : List (StateM Nat String) → StateM Nat (List String)
  | [] => pure []
  | action :: actions => do
    let s ← action
    let rest ← inOrder actions
    pure (s :: rest)

/-- The handlers, each of which counts itself. -/
def visitor : Visitor (StateM Nat String) where
  null := do count; pure "null"
  bool b := do count; pure ("bool:" ++ if b then "true" else "false")
  sint n := do count; pure ("sint:" ++ intText n.toInt)
  uint n := do count; pure ("uint:" ++ natText n.toNat)
  float x := do count; pure ("float:" ++ doubleText x)
  str bytes := do count; pure ("str:" ++ bytesText bytes)
  const name inner := do
    count
    let shown ← inner
    pure ("const:" ++ name ++ "(" ++ shown ++ ")")
  array elements := do
    count
    let shown ← inOrder elements
    pure ("array[" ++ ",".intercalate shown ++ "]")
  blob bytes := do count; pure ("blob:" ++ natText bytes.size)

end Tally

/-- The plain form of a value and the number of handlers called for it. -/
def Value.tally (v : Value) : String × Nat :=
  (v.visit Tally.visitor).run 0

end CallCapture
