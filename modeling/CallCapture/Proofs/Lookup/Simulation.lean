import CallCapture.Coercion.Basic
import CallCapture.Value.Payload
import CallCapture.Value.Reduced
import Mathlib.Data.List.Forall2

/-!
# Two readers in step

Two trees that differ may be the same to a reader who moves through both by lookups and ends
with a reading.  Such statements are all proved in one way: a relation between trees is found
that one step keeps, and then a whole path keeps it.  This module does it once, for every
relation that satisfies a few conditions on the top nodes of related trees.

Those conditions are the fields of `Value.Simulation`: related trees have the same kind at the
top, their children are related, and so are their payloads.  Integers have to be equal.  When
doubles and when the bytes of blobs count as the same is left open.

* `Value.Simulation.elementAt`, `Value.Simulation.coerce` --- one lookup and one reading.
* `Value.Simulation.step`, `Value.Simulation.alike` --- one step and every path.
* `Call.Related.arg`, `Call.Related.argAt`, `Call.Related.ret` --- the lookups of arguments and
  the return values, in calls that are related part by part.
-/

namespace CallCapture

/-! ## Relations that readers keep -/

/-- The results of two readings in a shape are the same, up to what counts as the same double
and as the same bytes. -/
def Shape.Agree (double : Double → Double → Prop) (bytes : ByteArray → ByteArray → Prop) :
    (s : Shape) → s.Result → s.Result → Prop
  | .signedInteger, m, n => m = n
  | .unsignedInteger, m, n => m = n
  | .double, x, y => double x y
  | .buffer, p, q => Option.Rel bytes p q

/-- Two readings end alike: with results that agree, or with the same error. -/
inductive Outcome {ε α : Type} (agree : α → α → Prop) : Except ε α → Except ε α → Prop where
  | ok {a b : α} : agree a b → Outcome agree (.ok a) (.ok b)
  | error (e : ε) : Outcome agree (.error e) (.error e)

/-- A relation between trees that a reader's steps keep, and with which readings agree. -/
structure Value.Simulation (R : Value → Value → Prop) (double : Double → Double → Prop)
    (bytes : ByteArray → ByteArray → Prop) : Prop where
  kind_eq : ∀ {a b : Value}, R a b → a.kind = b.kind
  const : ∀ {m n : String} {a b : Value}, R (.const m a) (.const n b) → R a b
  array : ∀ {as bs : List Value}, R (.array as) (.array bs) → List.Forall₂ R as bs
  /-- What is absent reads as null. -/
  null : R .null .null
  sint : ∀ {m n : Int64}, R (.sint m) (.sint n) → m = n
  uint : ∀ {m n : UInt64}, R (.uint m) (.uint n) → m = n
  float : ∀ {x y : Double}, R (.float x) (.float y) → double x y
  blob : ∀ {p q : ByteArray}, R (.blob p) (.blob q) → bytes p q

namespace Found

/-- Nothing was found twice, or two trees that are related. -/
inductive Related (R : Value → Value → Prop) : Found → Found → Prop where
  | absent : Related R .absent .absent
  | stored {a b : Value} : R a b → Related R (.stored a) (.stored b)

/-- Two answers in step: the same entries, and results that are related. -/
structure InStep (R : Value → Value → Prop) (x y : Logged Found) : Prop where
  entries_eq : x.entries = y.entries
  related : Related R x.result y.result

/-- Readers who follow a path from two places cannot tell them apart, up to what counts as
related, as the same double and as the same bytes. -/
structure Alike (R : Value → Value → Prop) (double : Double → Double → Prop)
    (bytes : ByteArray → ByteArray → Prop) (f g : Found) (path : List Step) : Prop where
  /-- Both find nothing, or both find something, and what they find is related. -/
  related : Related R (f.follow path).result (g.follow path).result
  /-- Step by step, the same entries go to the log. -/
  entries : (f.trail path).map Logged.entries = (g.trail path).map Logged.entries
  /-- A reading in any shape gives results that agree, or the same error. -/
  coerced : ∀ s : Shape, Outcome (s.Agree double bytes) ((f.follow path).result.value.coerce s)
    ((g.follow path).result.value.coerce s)

end Found

/-- Two arguments have the same name and related values. -/
structure Arg.Related (R : Value → Value → Prop) (a b : Arg) : Prop where
  name_eq : a.name = b.name
  value : R a.value b.value

/-- Two calls have the same name, arguments that are related one by one, and related return
values or none. -/
structure Call.Related (R : Value → Value → Prop) (c d : Call) : Prop where
  name_eq : c.name = d.name
  args : List.Forall₂ (Arg.Related R) c.args d.args
  ret? : Option.Rel R c.ret? d.ret?

/-! ## Lists and answers -/

/-- Lookups that find related values, or miss for the same reason, are in step. -/
theorem Found.InStep.answer {R : Value → Value → Prop} {x y : Option Value}
    (hxy : Option.Rel R x y) (e : Event) : InStep R (answer e x) (answer e y) := by
  cases hxy with
  | some hab => exact ⟨rfl, .stored hab⟩
  | none => exact ⟨rfl, .absent⟩

/-- Lists that are related item by item are related at every index. -/
theorem rel_getElem? {α : Type} {R : α → α → Prop} {as bs : List α}
    (h : List.Forall₂ R as bs) (index : Nat) : Option.Rel R as[index]? bs[index]? := by
  induction h generalizing index with
  | nil => exact .none
  | cons hab _ ih =>
    cases index with
    | zero => exact .some hab
    | succ index => simpa using ih index

/-- If being related means that the first item is clear and both have the same image, then lists
are related item by item if all first items are clear and both lists have the same image. -/
theorem forall₂_iff_map_eq {α β : Type} {R : α → α → Prop} {unclear : α → Bool} {image : α → β}
    {as : List α} (h : ∀ a ∈ as, ∀ b, R a b ↔ unclear a = false ∧ image a = image b)
    (bs : List α) :
    List.Forall₂ R as bs ↔ as.any unclear = false ∧ as.map image = bs.map image := by
  induction as generalizing bs with
  | nil => cases bs <;> simp
  | cons a as ih =>
    obtain ⟨ha, has⟩ := List.forall_mem_cons.1 h
    cases bs with
    | nil => simp
    | cons b bs =>
      rw [List.forall₂_cons, ha, ih has, List.any_cons, Bool.or_eq_false_iff, List.map_cons,
        List.map_cons, List.cons.injEq]
      exact and_and_and_comm

namespace Value.Simulation

variable {R : Value → Value → Prop} {double : Double → Double → Prop}
  {bytes : ByteArray → ByteArray → Prop}

/-! ## One lookup and one reading -/

/-- Constants at the top are stripped from both trees alike. -/
theorem unwrapConst (h : Simulation R double bytes) {a b : Value} (hab : R a b) :
    R a.unwrapConst b.unwrapConst := by
  induction a generalizing b with
  | const m a ih =>
    cases b with
    | const n b =>
      rw [unwrapConst_const, unwrapConst_const]
      exact ih (h.const hab)
    | _ => exact nomatch h.kind_eq hab
  | _ =>
    have hb : b.kind ≠ .const := by
      rw [← h.kind_eq hab]
      exact nofun
    rw [unwrapConst_of_kind_ne hb]
    exact hab

/-- Under the constants stand payloads of one kind, and it is not that of constants. -/
theorem exists_ofPayload (h : Simulation R double bytes) {a b : Value} (hab : R a b) :
    ∃ (k : Kind) (p q : k.Payload), k ≠ .const ∧ R (ofPayload k p) (ofPayload k q) ∧
      a.unwrapConst = ofPayload k p ∧ b.unwrapConst = ofPayload k q := by
  have hu := h.unwrapConst hab
  obtain ⟨k, p, q, hp, hq⟩ := exists_ofPayload_of_kind_eq (h.kind_eq hu)
  have hk : k ≠ .const := by
    rw [← kind_ofPayload k p, ← hp]
    exact a.kind_unwrapConst_ne
  rw [hp, hq] at hu
  exact ⟨k, p, q, hk, hu, hp, hq⟩

/-- The elements are related, and where there is none, the same is recorded. -/
theorem elements (h : Simulation R double bytes) {a b : Value} (hab : R a b) :
    List.Forall₂ R a.elements b.elements ∧ ∀ index, a.missed index = b.missed index := by
  have hu := h.unwrapConst hab
  have hkind := h.kind_eq hu
  rcases a.array_or_kind_ne with ⟨as, has⟩ | hk
  · rcases b.array_or_kind_ne with ⟨bs, hbs⟩ | hk
    · rw [has, hbs] at hu
      have hs := h.array hu
      rw [elements_of_array has, elements_of_array hbs]
      refine ⟨hs, fun index => ?_⟩
      rw [missed_of_array has, missed_of_array hbs, hs.length_eq]
    · rw [← hkind, has] at hk
      exact absurd rfl hk
  · have hk' := hkind ▸ hk
    rw [elements_of_kind_ne hk, elements_of_kind_ne hk']
    refine ⟨.nil, fun index => ?_⟩
    rw [missed_of_kind_ne hk, missed_of_kind_ne hk', hkind]

/-- **One lookup** finds related elements, or misses in both trees for the same reason. -/
theorem elementAt (h : Simulation R double bytes) {a b : Value} (hab : R a b) (index : Nat) :
    Found.InStep R (a.elementAt index) (b.elementAt index) := by
  obtain ⟨helements, hmissed⟩ := h.elements hab
  rw [elementAt_eq, elementAt_eq, hmissed]
  exact .answer (rel_getElem? helements index) _

/-- **One reading** gives results that agree, or the same error. -/
theorem coerce (h : Simulation R double bytes) {a b : Value} (hab : R a b) (s : Shape) :
    Outcome (s.Agree double bytes) (a.coerce s) (b.coerce s) := by
  obtain ⟨k, p, q, hk, hpq, hp, hq⟩ := h.exists_ofPayload hab
  rw [← coerce_unwrapConst s a, ← coerce_unwrapConst s b, hp, hq]
  cases s with
  | signedInteger =>
    cases k with
    | sint => exact .ok (h.sint hpq)
    | uint => exact .ok (congrArg UInt64.toInt64 (h.uint hpq))
    | const => exact absurd rfl hk
    | _ => exact .error _
  | unsignedInteger =>
    cases k with
    | uint => exact .ok (h.uint hpq)
    | const => exact absurd rfl hk
    | _ => exact .error _
  | double =>
    cases k with
    | float => exact .ok (h.float hpq)
    | const => exact absurd rfl hk
    | _ => exact .error _
  | buffer =>
    cases k with
    | blob => exact .ok (.some (h.blob hpq))
    | null => exact .ok .none
    | const => exact absurd rfl hk
    | _ => exact .error _

/-! ## Paths -/

/-- Nothing reads as null, which is related to itself. -/
theorem value (h : Simulation R double bytes) {f g : Found} (hfg : f.Related R g) :
    R f.value g.value := by
  cases hfg with
  | absent => exact h.null
  | stored hab => exact hab

/-- **One step** from related places is taken in step. -/
theorem step (h : Simulation R double bytes) {f g : Found} (hfg : f.Related R g) (s : Step) :
    Found.InStep R (f.step s) (g.step s) := by
  cases s with
  | element index => exact h.elementAt (h.value hfg) index
  | unwrap =>
    cases hfg with
    | absent => exact ⟨rfl, .absent⟩
    | stored hab => exact ⟨rfl, .stored (h.unwrapConst hab)⟩

/-- **A path** from related places is followed in step. -/
theorem follow (h : Simulation R double bytes) {f g : Found} (hfg : f.Related R g)
    (path : List Step) :
    Found.Related R (f.follow path).result (g.follow path).result ∧
      (f.trail path).map Logged.entries = (g.trail path).map Logged.entries := by
  induction path generalizing f g with
  | nil => exact ⟨hfg, rfl⟩
  | cons s path ih =>
    obtain ⟨hentries, hresult⟩ := h.step hfg s
    obtain ⟨hend, htrail⟩ := ih hresult
    refine ⟨hend, ?_⟩
    rw [Found.trail, Found.trail, List.map_cons, List.map_cons, hentries, htrail]

/-- **Related places are alike to readers**, along every path. -/
theorem alike (h : Simulation R double bytes) {f g : Found} (hfg : f.Related R g)
    (path : List Step) : Found.Alike R double bytes f g path where
  related := (h.follow hfg path).1
  entries := (h.follow hfg path).2
  coerced := h.coerce (h.value (h.follow hfg path).1)

end Value.Simulation

/-! ## Arguments -/

namespace Call

variable {R : Value → Value → Prop}

/-- Related arguments have the same names, so the first one of a name is found at the same
place. -/
theorem rel_find? {as bs : List Arg} (h : List.Forall₂ (Arg.Related R) as bs) (name : String) :
    Option.Rel R ((as.find? (·.name == name)).map Arg.value)
      ((bs.find? (·.name == name)).map Arg.value) := by
  induction h with
  | nil => exact .none
  | @cons a b as bs hab _ ih =>
    rw [List.find?_cons, List.find?_cons, hab.name_eq]
    cases b.name == name with
    | true => exact .some hab.value
    | false => exact ih

/-- **Lookup by name** in related calls. -/
theorem Related.arg {c d : Call} (h : c.Related R d) (name : String) :
    Found.InStep R (c.arg name) (d.arg name) := by
  rw [arg_eq, arg_eq, h.name_eq]
  exact .answer (rel_find? h.args name) _

/-- **Lookup by position** in related calls. -/
theorem Related.argAt {c d : Call} (h : c.Related R d) (index : Nat) :
    Found.Related R (c.argAt index) (d.argAt index) := by
  rw [Call.argAt, Call.argAt]
  have hindex := rel_getElem? h.args index
  generalize c.args[index]? = x at hindex
  generalize d.args[index]? = y at hindex
  cases hindex with
  | some hab => exact .stored hab.value
  | none => exact .absent

/-- **The return values** of related calls have what related values have. -/
theorem Related.ret {S : Value → Value → Prop} {c d : Call} (h : c.Related R d)
    (hvalue : ∀ {v w : Value}, R v w → S v w) : Option.Rel S c.ret? d.ret? := by
  obtain ⟨-, -, hret⟩ := h
  generalize c.ret? = x at hret
  generalize d.ret? = y at hret
  cases hret with
  | some hvw => exact .some (hvalue hvw)
  | none => exact .none

/-- Whether an argument or the return value has a property. -/
def anyValue (p : Value → Bool) (c : Call) : Bool :=
  c.args.any (fun a => p a.value) || c.ret?.any p

/-- Calls are related part by part if the values of the first are clear and a mask makes one call
of both. -/
theorem related_iff {unclear : Value → Bool} {f : Value → Value}
    (h : ∀ a b : Value, R a b ↔ unclear a = false ∧ f a = f b) (c d : Call) :
    c.Related R d ↔ c.anyValue unclear = false ∧ c.mask f = d.mask f := by
  have harg : ∀ a ∈ c.args, ∀ b : Arg, a.Related R b ↔
      unclear a.value = false ∧ (⟨a.name, f a.value⟩ : Arg) = ⟨b.name, f b.value⟩ := by
    intro a _ b
    rw [Arg.mk.injEq, and_left_comm, ← h]
    exact ⟨fun hab => ⟨hab.name_eq, hab.value⟩, fun hab => ⟨hab.1, hab.2⟩⟩
  have hargs := forall₂_iff_map_eq harg d.args
  have hret : Option.Rel R c.ret? d.ret? ↔
      c.ret?.any unclear = false ∧ c.ret?.map f = d.ret?.map f := by
    cases c.ret? <;> cases d.ret? <;> simp [h]
  rw [anyValue, Bool.or_eq_false_iff, mask, mask, Call.mk.injEq]
  constructor
  · rintro ⟨hname, ha, hr⟩
    exact ⟨⟨(hargs.1 ha).1, (hret.1 hr).1⟩, hname, (hargs.1 ha).2, (hret.1 hr).2⟩
  · rintro ⟨⟨hca, hcr⟩, hname, hma, hmr⟩
    exact ⟨hname, hargs.2 ⟨hca, hma⟩, hret.2 ⟨hcr, hmr⟩⟩

end Call

end CallCapture
