import CallCapture.Walk
import Mathlib.Data.List.Basic

/-!
# Walks are properly nested

A walk is replayed with a stack of what is open.  `Walk.Replays` does this for moves that come
with something they are about, and lets a move close only the place that was opened last, about
the same thing.  A tour replays from any stack back to that stack (`Value.replays_tour`), by
induction on the children: what lies between the two moves at a place is a tour of each child,
and leaves the stack as it was.

Two things follow for any moves that replay: the moves alone are nested
(`Walk.Replays.replay_eq`), and what is left is what was entered, in another order
(`Walk.Replays.perm`).
-/

namespace CallCapture

namespace Walk

variable {α : Type u}

/-- What a move enters, and what it is about. -/
def entered? : Move × α → Option (Place × α)
  | (.enter place, a) => some (place, a)
  | (.leave _, _) => none

/-- What a move leaves, and what it is about. -/
def left? : Move × α → Option (Place × α)
  | (.enter _, _) => none
  | (.leave place, a) => some (place, a)

/-- What is entered or left as a value, and not as the contents of one. -/
def asValue? : Place × α → Option α
  | (.value, a) => some a
  | _ => none

/-- Moves lead from what is open, innermost first, to what is open after them.  A move that
leaves closes what was entered last. -/
inductive Replays : List (Place × α) → List (Move × α) → List (Place × α) → Prop where
  | done (opened : List (Place × α)) : Replays opened [] opened
  | enter {opened closed : List (Place × α)} {moves : List (Move × α)} {place : Place} {a : α} :
      Replays ((place, a) :: opened) moves closed →
        Replays opened ((.enter place, a) :: moves) closed
  | leave {opened closed : List (Place × α)} {moves : List (Move × α)} {place : Place} {a : α} :
      Replays opened moves closed →
        Replays ((place, a) :: opened) ((.leave place, a) :: moves) closed

namespace Replays

variable {opened between closed : List (Place × α)} {moves later : List (Move × α)}

theorem append (h : Replays opened moves between) (hlater : Replays between later closed) :
    Replays opened (moves ++ later) closed := by
  induction h with
  | done => exact hlater
  | enter _ ih => exact .enter (ih hlater)
  | leave _ ih => exact .leave (ih hlater)

/-- Moves one after the other that each end where they began do so together. -/
theorem flatMap {β : Type v} {tour : β → List (Move × α)} {bs : List β}
    (h : ∀ b ∈ bs, Replays opened (tour b) opened) : Replays opened (bs.flatMap tour) opened := by
  induction bs with
  | nil => exact .done opened
  | cons b bs ih =>
    rw [List.flatMap_cons]
    have hfirst := h b List.mem_cons_self
    have hrest := ih fun c hc => h c (List.mem_cons_of_mem b hc)
    exact hfirst.append hrest

/-- Moves at a place around moves that end where they began. -/
theorem around {place : Place} {a : α}
    (h : Replays ((place, a) :: opened) moves ((place, a) :: opened)) :
    Replays opened ((.enter place, a) :: (moves ++ [(.leave place, a)])) opened :=
  .enter (h.append (.leave (.done opened)))

/-- Nothing changes when less is said of what the moves are about. -/
theorem map {β : Type v} (f : α → β) (h : Replays opened moves closed) :
    Replays (opened.map (Prod.map id f)) (moves.map (Prod.map id f))
      (closed.map (Prod.map id f)) := by
  induction h with
  | done opened => exact .done _
  | enter _ ih => exact .enter ih
  | leave _ ih => exact .leave ih

/-- Without what they are about, the moves replay by their places. -/
theorem replay_eq (h : Replays opened moves closed) :
    replay (opened.map Prod.fst) (moves.map Prod.fst) = some (closed.map Prod.fst) := by
  induction h with
  | done opened =>
    rw [List.map_nil]
    cases opened <;> rfl
  | enter _ ih =>
    rw [List.map_cons, replay]
    exact ih
  | leave _ ih =>
    rw [List.map_cons, List.map_cons, replay, if_pos rfl]
    exact ih

/-- What was open and is entered is, up to order, what is left and stays open. -/
theorem perm (h : Replays opened moves closed) :
    (opened ++ moves.filterMap entered?).Perm (moves.filterMap left? ++ closed) := by
  induction h with
  | done opened => rw [List.filterMap_nil, List.filterMap_nil, List.append_nil, List.nil_append]
  | @enter opened closed moves place a _ ih =>
    have hmoves : ((Move.enter place, a) :: moves).filterMap entered? =
      (place, a) :: moves.filterMap entered? := rfl
    rw [hmoves]
    exact List.perm_middle.trans ih
  | leave _ ih => exact ih.cons _

/-- Moves from nothing open to nothing open leave exactly what they enter. -/
theorem perm_of_nested (h : Replays [] moves []) :
    (moves.filterMap left?).Perm (moves.filterMap entered?) := by
  have hperm := h.perm
  rw [List.nil_append, List.append_nil] at hperm
  exact hperm.symm

end Replays

/-- Among the moves alone, the values that are entered can be counted. -/
theorem count_enter_value (moves : List (Move × α)) :
    (moves.map Prod.fst).count (.enter .value) =
      ((moves.filterMap entered?).filterMap asValue?).length := by
  induction moves with
  | nil => rfl
  | cons move moves ih =>
    rw [List.map_cons, List.count_cons, ih]
    rcases move with ⟨⟨place⟩ | ⟨place⟩, a⟩
    · cases place <;> rfl
    · rfl

/-- Among the moves alone, the values that are left can be counted. -/
theorem count_leave_value (moves : List (Move × α)) :
    (moves.map Prod.fst).count (.leave .value) =
      ((moves.filterMap left?).filterMap asValue?).length := by
  induction moves with
  | nil => rfl
  | cons move moves ih =>
    rw [List.map_cons, List.count_cons, ih]
    rcases move with ⟨⟨place⟩ | ⟨place⟩, a⟩
    · rfl
    · cases place <;> rfl

end Walk

namespace Value

open Walk (Move Replays entered? left? asValue?)

/-! ## Tours -/

/-- A tour has the moves of the walk. -/
theorem map_fst_tour (v : Value) : v.tour.map Prod.fst = v.walk := by
  induction v using childInd with
  | node v ih =>
    have hinside : (v.children.flatMap tour).map Prod.fst = v.children.flatMap walk := by
      rw [List.map_flatMap]
      exact List.flatMap_congr ih
    rw [tour_eq, walk_eq, ← hinside]
    simp [tourAround, Walk.around]

/-- **A tour is properly nested**, whatever is open around it. -/
theorem replays_tour (v : Value) (opened : List (Walk.Place × Value)) :
    Replays opened v.tour opened := by
  induction v using childInd generalizing opened with
  | node v ih =>
    rw [tour_eq]
    have hinside : Replays ((v.place, v) :: (.value, v) :: opened) (v.children.flatMap tour)
        ((v.place, v) :: (.value, v) :: opened) :=
      Replays.flatMap fun w hw => ih w hw _
    exact .enter (.enter (hinside.append (.leave (.leave (.done opened)))))

/-- The moves of a walk alone are properly nested, whatever is open around them. -/
theorem replays_walk (v : Value) (opened : List (Walk.Place × Unit)) :
    Replays opened (v.walk.map (·, ())) opened := by
  have h := (v.replays_tour (opened.map (Prod.map id fun _ => v))).map fun _ => ()
  have hopened : (opened.map (Prod.map id fun _ => v)).map (Prod.map id fun _ => ()) = opened := by
    rw [List.map_map]
    exact List.map_id opened
  have hmoves : v.tour.map (Prod.map id fun _ => ()) = v.walk.map (·, ()) := by
    rw [← map_fst_tour, List.map_map]
    rfl
  rwa [hopened, hmoves] at h

/-- A tour enters every node of the tree once, each before its children and each as a value
and as its contents. -/
theorem entered_tour (v : Value) :
    v.tour.filterMap entered? = v.preorder.flatMap fun w => [(.value, w), (w.place, w)] := by
  induction v using childInd with
  | node v ih =>
    have hinside : (v.children.flatMap tour).filterMap entered? =
        (v.children.flatMap preorder).flatMap fun w => [(.value, w), (w.place, w)] := by
      rw [List.filterMap_flatMap, List.flatMap_assoc]
      exact List.flatMap_congr ih
    rw [tour_eq, preorder_eq, List.flatMap_cons, ← hinside]
    simp [tourAround, entered?]

/-- The values that a tour enters are the nodes of the tree, each before its children. -/
theorem entered_values_tour (v : Value) :
    (v.tour.filterMap entered?).filterMap asValue? = v.preorder := by
  have hnode : ∀ w : Value, [(Walk.Place.value, w), (w.place, w)].filterMap asValue? = [w] := by
    intro w
    cases w <;> rfl
  rw [entered_tour, List.filterMap_flatMap, funext hnode, List.flatMap_singleton']

end Value

end CallCapture
