/-!
# Sinks

Text is written piece by piece into a *sink*, a machine with a state that is offered one
piece at a time and accepts or refuses it.  A sink that refuses a piece may have taken
some of its text, and may accept pieces again later; it is the writer who stops at the
first refusal (`Writing`).

* `Sink.text` --- appends everything to a string and never refuses.
* `Sink.pieces` --- keeps the pieces apart and never refuses.
* `Sink.limited` --- takes characters as long as there is room for them, and refuses the
  piece that does not fit, of which it keeps as much as there was room for.
-/

namespace CallCapture

/-- A machine that is offered text piece by piece. -/
structure Sink (σ : Type) where
  /-- Whether the piece is accepted, and the state afterwards. -/
  offer : σ → String → Bool × σ

/-- The sink refused a piece of text. -/
inductive Refused where
  | refused
  deriving DecidableEq

/-- Actions that write into a sink with states `σ` and end at the first refusal. -/
abbrev Writing (σ : Type) (α : Type) : Type :=
  ExceptT Refused (StateM σ) α

/-- Runs an action from a state of the sink: how it ended, and the state it left. -/
def Writing.startFrom {σ α : Type} (w : Writing σ α) (s : σ) : Except Refused α × σ :=
  (ExceptT.run w).run s

namespace Writing

variable {σ α β : Type}

/-- What follows an action runs from the state it left, unless it ended at a refusal. -/
theorem startFrom_bind (w : Writing σ α) (f : α → Writing σ β) (s : σ) :
    (w >>= f).startFrom s =
      match w.startFrom s with
      | (.ok a, s) => (f a).startFrom s
      | (.error e, s) => (.error e, s) := by
  show (match ExceptT.run w s with
    | (r, s) => ExceptT.bindCont f r s) = _
  simp only [Writing.startFrom, StateT.run]
  rcases ExceptT.run w s with ⟨_ | _, _⟩ <;> rfl

end Writing

namespace Sink

variable {σ : Type}

/-- Offers one piece of text. -/
def write (k : Sink σ) (piece : String) : Writing σ Unit :=
  ExceptT.mk fun s =>
    match k.offer s piece with
    | (true, s) => (.ok (), s)
    | (false, s) => (.error .refused, s)

theorem startFrom_write (k : Sink σ) (piece : String) (s : σ) :
    (k.write piece).startFrom s =
      match k.offer s piece with
      | (true, s) => (.ok (), s)
      | (false, s) => (.error .refused, s) := rfl

/-- Offers pieces of text in order. -/
def writeAll (k : Sink σ) : List String → Writing σ Unit
  | [] => pure ()
  | piece :: pieces => do
    k.write piece
    writeAll k pieces

/-- The sink that keeps everything. -/
def text : Sink String where
  offer s piece := (true, s ++ piece)

/-- The sink that keeps every piece. -/
def pieces : Sink (List String) where
  offer s piece := (true, s ++ [piece])

end Sink

/-- The state of a sink with limited room. -/
structure LimitedText where
  /-- What has been taken so far. -/
  written : String
  /-- How many more characters there is room for. -/
  room : Nat

/-- The sink that takes characters as long as there is room. -/
def Sink.limited : Sink LimitedText where
  offer s piece :=
    if piece.length ≤ s.room then
      (true, ⟨s.written ++ piece, s.room - piece.length⟩)
    else
      (false, ⟨s.written ++ .ofList (piece.toList.take s.room), 0⟩)

end CallCapture
