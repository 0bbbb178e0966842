import CallCapture.Proofs.Walk.Nesting
import CallCapture.Value.Reduced

/-!
# The two traversals of a value

A value can be traversed in two ways.  A walk enters and leaves every place by itself; a visitor
routes a node to the handler of its kind, and the handler decides to go on to the children.  A
visitor that always goes on meets the same nodes as the walk, in the same order
(`Value.handled_eq`, `Value.entered_tour`).

A walk is also a faithful picture of the tree, up to what it does not show: values with the same
walk have the same skeleton (`Value.walk_eq_iff`).  The induction needs more than this, since the
walk of a list of children is a flat list of moves in which the ends of the single walks are not
marked: what is proved is that the walk of a value can be split off the front of any moves in
one way only (`Value.walk_append_inj`).  For the children together this needs that what follows
them does not begin another walk (`Walk.flatMap_append_inj`), and the same argument serves for
the arguments of a call.
-/

namespace CallCapture

/-! ## Handlers -/

namespace Value

/-- Visits that each append to the log append one after the other. -/
theorem run_forM_append {β : Type} {visit : β → StateM (List Value) Unit} {nodes : β → List Value}
    {bs : List β} (h : ∀ b ∈ bs, ∀ log, (visit b).run log = ((), log ++ nodes b))
    (log : List Value) : (bs.forM visit).run log = ((), log ++ bs.flatMap nodes) := by
  induction bs generalizing log with
  | nil =>
    rw [List.flatMap_nil, List.append_nil]
    rfl
  | cons b bs ih =>
    have hfirst := h b List.mem_cons_self log
    have hrest := ih (fun c hc => h c (List.mem_cons_of_mem b hc)) (log ++ nodes b)
    rw [List.flatMap_cons, ← List.append_assoc, ← hrest]
    show (match (visit b).run log with
      | (_, log) => (bs.forM visit).run log) = _
    rw [hfirst]

/-- The handlers are called with the nodes of the tree, each before its children. -/
theorem visit_handlers (v : Value) :
    (v.visit handlers).1 = v ∧
      ∀ log, (v.visit handlers).2.run log = ((), log ++ v.preorder) := by
  induction v with
  | const name v ih =>
    obtain ⟨hnode, hrun⟩ := ih
    constructor
    · show Value.const name (v.visit handlers).1 = _
      rw [hnode]
    · intro log
      show (v.visit handlers).2.run (log ++ [.const name (v.visit handlers).1]) = _
      rw [hrun, hnode, List.append_assoc]
      rfl
  | array vs ih =>
    have hnodes : (vs.map (visit handlers)).map Prod.fst = vs := by
      rw [List.map_map]
      exact (List.map_congr_left fun v hv => (ih v hv).1).trans (List.map_id vs)
    have hrun : ∀ log, ((vs.map (visit handlers)).forM Prod.snd).run log =
        ((), log ++ vs.flatMap preorder) := by
      intro log
      rw [List.forM_eq_forM, List.forM_map]
      exact run_forM_append (fun v hv => (ih v hv).2) log
    rw [visit_array]
    constructor
    · exact congrArg Value.array hnodes
    · intro log
      show ((vs.map (visit handlers)).forM Prod.snd).run
        (log ++ [.array ((vs.map (visit handlers)).map Prod.fst)]) = _
      rw [hrun, hnodes, preorder_eq, List.append_assoc]
      rfl
  | _ => exact ⟨rfl, fun _ => rfl⟩

/-- The handlers are called with every node of the tree, each before its children. -/
theorem handled_eq (v : Value) : v.handled = v.preorder := by
  rw [handled, (visit_handlers v).2, List.nil_append]

end Value

/-- Visits that each count a list of nodes count these lists one after the other. -/
theorem Tally.run_inOrder {β : Type} {visit : β → StateM Nat String} {nodes : β → List Value}
    {bs : List β} (h : ∀ b ∈ bs, ∀ n, ((visit b).run n).2 = n + (nodes b).length) (n : Nat) :
    ((inOrder (bs.map visit)).run n).2 = n + (bs.flatMap nodes).length := by
  induction bs generalizing n with
  | nil => rfl
  | cons b bs ih =>
    show ((inOrder (bs.map visit)).run ((visit b).run n).2).2 = _
    rw [ih fun c hc => h c (List.mem_cons_of_mem b hc), h b List.mem_cons_self,
      List.flatMap_cons, List.length_append, Nat.add_assoc]

namespace Value

/-- The tally counts the nodes of the tree. -/
theorem run_tally (v : Value) (n : Nat) :
    ((v.visit Tally.visitor).run n).2 = n + v.preorder.length := by
  induction v generalizing n with
  | const name v ih =>
    show ((v.visit Tally.visitor).run (n + 1)).2 = n + (v.preorder.length + 1)
    rw [ih]
    omega
  | array vs ih =>
    have hrun : ((Tally.inOrder (vs.map (visit Tally.visitor))).run (n + 1)).2 =
        n + 1 + (vs.flatMap preorder).length :=
      Tally.run_inOrder ih (n + 1)
    rw [visit_array, preorder_eq, List.length_cons]
    show ((Tally.inOrder (vs.map (visit Tally.visitor))).run (n + 1)).2 =
      n + ((vs.flatMap preorder).length + 1)
    omega
  | _ => rfl

theorem tally_eq (v : Value) : v.tally.2 = v.preorder.length := by
  have h := v.run_tally 0
  rwa [Nat.zero_add] at h

end Value

/-! ## Walks determine skeletons -/

/-- Walks can be split off the front of moves one after the other, if each can be and what comes
after them begins no walk.  `key` is what a walk tells of the thing walked. -/
theorem Walk.flatMap_append_inj {α : Type u} {β : Type v} {walk : α → List Walk.Move} {key : α → β}
    {as bs : List α} {s t : List Walk.Move}
    (hwalk : ∀ a ∈ as, ∀ b s t, walk a ++ s = walk b ++ t → key a = key b ∧ s = t)
    (hs : ∀ b u, s ≠ walk b ++ u) (ht : ∀ a u, walk a ++ u ≠ t)
    (h : as.flatMap walk ++ s = bs.flatMap walk ++ t) : as.map key = bs.map key ∧ s = t := by
  induction as generalizing bs with
  | nil =>
    cases bs with
    | nil => exact ⟨rfl, h⟩
    | cons b bs =>
      rw [List.flatMap_cons, List.append_assoc] at h
      exact absurd h (hs b _)
  | cons a as ih =>
    cases bs with
    | nil =>
      rw [List.flatMap_cons, List.append_assoc] at h
      exact absurd h (ht a _)
    | cons b bs =>
      rw [List.flatMap_cons, List.flatMap_cons, List.append_assoc, List.append_assoc] at h
      obtain ⟨hkey, hrest⟩ := hwalk a List.mem_cons_self b _ _ h
      obtain ⟨hkeys, hst⟩ := ih (fun c hc => hwalk c (List.mem_cons_of_mem a hc)) hrest
      exact ⟨by rw [List.map_cons, List.map_cons, hkey, hkeys], hst⟩

/-- The walks of things of which walks tell the same are the same. -/
theorem Walk.flatMap_eq_of_map_eq {α : Type u} {β : Type v} {walk : α → List Walk.Move}
    {key : α → β} {as bs : List α} (hwalk : ∀ a ∈ as, ∀ b, key a = key b → walk a = walk b)
    (h : as.map key = bs.map key) : as.flatMap walk = bs.flatMap walk := by
  induction as generalizing bs with
  | nil => rw [List.map_eq_nil_iff.1 h.symm]
  | cons a as ih =>
    obtain ⟨b, bs, rfl, hb, hbs⟩ := List.map_eq_cons_iff.1 h.symm
    rw [List.flatMap_cons, List.flatMap_cons, hwalk a List.mem_cons_self b hb.symm,
      ih (fun c hc => hwalk c (List.mem_cons_of_mem a hc)) hbs.symm]

namespace Value

open Walk (Move)

/-- A skeleton is a place and the skeletons of the children. -/
theorem skeleton_eq_iff (a b : Value) :
    a.skeleton = b.skeleton ↔
      a.place = b.place ∧ a.children.map skeleton = b.children.map skeleton := by
  cases a <;> cases b <;> simp [skeleton, place, children, skeletons_eq_map]

/-- The first two moves of a walk, and what comes after the children. -/
theorem walk_append (v : Value) (s : List Move) :
    v.walk ++ s = .enter .value :: .enter v.place ::
      (v.children.flatMap walk ++ .leave v.place :: .leave .value :: s) := by
  rw [walk_eq]
  simp [Walk.around]

/-- A walk begins by entering a value. -/
theorem leave_ne_walk_append (p : Walk.Place) (s : List Move) (v : Value) (t : List Move) :
    .leave p :: s ≠ v.walk ++ t := by
  rw [walk_append]
  nofun

/-- **A walk can be split off in one way only.** -/
theorem walk_append_inj {a b : Value} {s t : List Move} (h : a.walk ++ s = b.walk ++ t) :
    a.skeleton = b.skeleton ∧ s = t := by
  induction a using childInd generalizing b s t with
  | node a ih =>
    rw [walk_append, walk_append, List.cons.injEq, List.cons.injEq] at h
    obtain ⟨-, hplace, hinside⟩ := h
    obtain ⟨hchildren, hafter⟩ := Walk.flatMap_append_inj (fun c hc b s t => ih c hc)
      (fun b u => leave_ne_walk_append _ _ b u) (fun a u => (leave_ne_walk_append _ _ a u).symm)
      hinside
    rw [List.cons.injEq, List.cons.injEq] at hafter
    exact ⟨(skeleton_eq_iff a b).2 ⟨Move.enter.inj hplace, hchildren⟩, hafter.2.2⟩

/-- Values with the same skeleton have the same walk. -/
theorem walk_eq_of_skeleton_eq {a b : Value} (h : a.skeleton = b.skeleton) : a.walk = b.walk := by
  induction a using childInd generalizing b with
  | node a ih =>
    obtain ⟨hplace, hchildren⟩ := (skeleton_eq_iff a b).1 h
    have hinside : a.children.flatMap walk = b.children.flatMap walk :=
      Walk.flatMap_eq_of_map_eq (fun c hc _ => ih c hc) hchildren
    rw [walk_eq, walk_eq b, hplace, hinside]

/-- **The walk and the skeleton** tell the same of a value. -/
theorem walk_eq_iff (a b : Value) : a.walk = b.walk ↔ a.skeleton = b.skeleton := by
  constructor
  · intro h
    exact (walk_append_inj (congrArg (· ++ []) h)).1
  · exact walk_eq_of_skeleton_eq

end Value

/-! ## Calls -/

open Walk (Move Replays)

/-- The walk of an argument can be split off in one way only. -/
theorem Arg.walk_append_inj {a b : Arg} {s t : List Move} (h : a.walk ++ s = b.walk ++ t) :
    (a.name, a.value.skeleton) = (b.name, b.value.skeleton) ∧ s = t := by
  have hmoves : ∀ (c : Arg) (u : List Move),
      c.walk ++ u = .enter (.arg c.name) :: (c.value.walk ++ .leave (.arg c.name) :: u) := by
    intro c u
    simp [Arg.walk, Walk.around]
  rw [hmoves, hmoves, List.cons.injEq] at h
  obtain ⟨hname, hvalue⟩ := h
  obtain ⟨hskeleton, hafter⟩ := Value.walk_append_inj hvalue
  rw [Walk.Place.arg.inj (Move.enter.inj hname), hskeleton]
  exact ⟨rfl, (List.cons.inj hafter).2⟩

namespace Call

/-- The moves of a return value, if there is one, and of the end of the call. -/
def walkEnd (c : Call) : List Move :=
  (c.ret?.map Value.walk).getD [] ++ [.leave (.call c.name)]

theorem walk_eq (c : Call) :
    c.walk = .enter (.call c.name) :: (c.args.flatMap Arg.walk ++ c.walkEnd) := by
  rw [walk, Walk.around, walkEnd, List.append_assoc]

/-- After the arguments of a call no further argument begins. -/
theorem walkEnd_ne (c : Call) (a : Arg) (u : List Move) : c.walkEnd ≠ a.walk ++ u := by
  rw [walkEnd]
  cases c.ret? with
  | none => exact nofun
  | some v =>
    show v.walk ++ _ ≠ _
    rw [Value.walk_append]
    exact nofun

/-- The end of a call tells whether there is a return value, and its skeleton. -/
theorem ret_eq_of_walkEnd_eq {c d : Call} (h : c.walkEnd = d.walkEnd) :
    c.ret?.map Value.skeleton = d.ret?.map Value.skeleton := by
  rw [walkEnd, walkEnd] at h
  cases hc : c.ret? with
  | none =>
    cases hd : d.ret? with
    | none => rfl
    | some w =>
      rw [hc, hd] at h
      exact absurd h (Value.leave_ne_walk_append _ _ w _)
  | some v =>
    cases hd : d.ret? with
    | none =>
      rw [hc, hd] at h
      exact absurd h.symm (Value.leave_ne_walk_append _ _ v _)
    | some w =>
      rw [hc, hd] at h
      exact congrArg some (Value.walk_append_inj h).1

/-- **The walk and the skeleton** tell the same of a call. -/
theorem walk_eq_iff (c d : Call) : c.walk = d.walk ↔ c.skeleton = d.skeleton := by
  constructor
  · intro h
    rw [walk_eq, walk_eq, List.cons.injEq] at h
    obtain ⟨hname, hinside⟩ := h
    obtain ⟨hargs, hend⟩ := Walk.flatMap_append_inj (fun a _ b s t => Arg.walk_append_inj)
      (fun a u => c.walkEnd_ne a u) (fun a u => (d.walkEnd_ne a u).symm) hinside
    rw [skeleton, skeleton, Walk.Place.call.inj (Move.enter.inj hname), hargs,
      ret_eq_of_walkEnd_eq hend]
  · intro h
    rw [skeleton, skeleton, CallSkeleton.mk.injEq] at h
    obtain ⟨hname, hargs, hret⟩ := h
    have hwalks : c.args.flatMap Arg.walk = d.args.flatMap Arg.walk := by
      refine Walk.flatMap_eq_of_map_eq ?_ hargs
      intro a _ b hab
      obtain ⟨hn, hv⟩ := Prod.mk.inj hab
      rw [Arg.walk, Arg.walk, hn, Value.walk_eq_of_skeleton_eq hv]
    have hret : c.ret?.map Value.walk = d.ret?.map Value.walk := by
      cases hc : c.ret? with
      | none =>
        rw [hc] at hret
        rw [Option.map_eq_none_iff.1 hret.symm]
      | some v =>
        rw [hc] at hret
        obtain ⟨w, hw, hvw⟩ := Option.map_eq_some_iff.1 hret.symm
        rw [hw]
        exact congrArg some (Value.walk_eq_of_skeleton_eq hvw.symm)
    rw [walk, walk, hname, hwalks, hret]

/-- The walk of a call is properly nested. -/
theorem nested_walk (c : Call) : Walk.Nested c.walk := by
  have harg : ∀ (a : Arg) (opened : List (Walk.Place × Unit)),
      Replays opened (a.walk.map (·, ())) opened := by
    intro a opened
    rw [Arg.walk, Walk.around, List.map_cons, List.map_append]
    exact (a.value.replays_walk _).around
  have hret : ∀ opened : List (Walk.Place × Unit),
      Replays opened (((c.ret?.map Value.walk).getD []).map (·, ())) opened := by
    intro opened
    cases c.ret? with
    | none => exact .done opened
    | some v => exact v.replays_walk opened
  have hcall : Replays [] (c.walk.map (·, ())) [] := by
    rw [walk, Walk.around, List.map_cons, List.map_append, List.map_append, List.map_flatMap]
    exact ((Replays.flatMap fun a _ => harg a _).append (hret _)).around
  have h := hcall.replay_eq
  rw [List.map_map] at h
  exact (congrArg (Walk.replay []) (List.map_id c.walk).symm).trans h

end Call

/-! ## Both traversals -/

/-- The walk of a value and the handler calls for it are traversals of one tree. -/
structure Value.Traversed (v : Value) : Prop where
  /-- Every move of the walk is about a node. -/
  moves_eq : v.tour.map Prod.fst = v.walk
  nested : Walk.Nested v.walk
  /-- Every move that leaves closes the node that was entered last and is still open. -/
  closes : Replays [] v.tour []
  /-- Every node is entered once, as a value and as its contents, before its children. -/
  entered_eq : v.tour.filterMap Walk.entered? =
    v.preorder.flatMap fun w => [(.value, w), (w.place, w)]
  /-- What is entered is left, each as often. -/
  left_perm : (v.tour.filterMap Walk.left?).Perm (v.tour.filterMap Walk.entered?)
  /-- The values that are entered are the nodes with which handlers are called, in this order. -/
  entered_values : (v.tour.filterMap Walk.entered?).filterMap Walk.asValue? = v.handled
  /-- There are as many of them as handler calls. -/
  count_enter : v.walk.count (.enter .value) = v.tally.2
  count_leave : v.walk.count (.leave .value) = v.tally.2
  /-- And as many handler calls as nodes. -/
  tally_eq : v.tally.2 = v.preorder.length

theorem Value.traversed (v : Value) : v.Traversed where
  moves_eq := v.map_fst_tour
  nested := by
    have h := (v.replays_tour []).replay_eq
    rwa [v.map_fst_tour] at h
  closes := v.replays_tour []
  entered_eq := v.entered_tour
  left_perm := (v.replays_tour []).perm_of_nested
  entered_values := by rw [entered_values_tour, handled_eq]
  count_enter := by
    rw [← v.map_fst_tour, Walk.count_enter_value, entered_values_tour, Value.tally_eq]
  count_leave := by
    have hperm := (v.replays_tour []).perm_of_nested.filterMap Walk.asValue?
    rw [← v.map_fst_tour, Walk.count_leave_value, hperm.length_eq, entered_values_tour,
      Value.tally_eq]
  tally_eq := v.tally_eq

/-- **The two traversals agree.**  The walk of every value is properly nested, meets every node
once and in the order of the handler calls, and tells the skeleton of the value and no more.  The
walk of a call is that of its arguments in order and of its return value, if there is one, and
tells the skeleton of the call and no more. -/
theorem walks_agree :
    (∀ v : Value, v.Traversed) ∧
    (∀ a b : Value, a.walk = b.walk ↔ a.skeleton = b.skeleton) ∧
    (∀ c : Call, Walk.Nested c.walk ∧
      c.walk = Walk.around (.call c.name)
        (c.args.flatMap (fun a => Walk.around (.arg a.name) a.value.walk) ++
          match c.ret? with
          | none => []
          | some v => v.walk)) ∧
    (∀ c d : Call, c.walk = d.walk ↔ c.skeleton = d.skeleton) := by
  refine ⟨Value.traversed, Value.walk_eq_iff, ?_, Call.walk_eq_iff⟩
  intro c
  refine ⟨c.nested_walk, ?_⟩
  rw [Call.walk]
  cases c.ret? <;> rfl

end CallCapture
