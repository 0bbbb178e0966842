import CallCapture.Proofs.Lookup.Simulation
import CallCapture.Value.Reduced
import CallCapture.Walk

/-!
# What equality means

Trees are compared node by node, and doubles as numbers.  So `==` is no equivalence: a tree that
holds a NaN anywhere, be it under constants and in arrays, differs from every tree, itself
included, and trees that differ in the signs of zeros are equal.

Both exceptions come from single doubles (`Double.numEq_iff`) and are carried up the tree by
`Value.beq_iff`: trees are equal if the first holds no NaN and both are one tree once the signs
of zeros are dropped.  The laws of `==` follow from this alone, for values and for calls
(`ComparesNumbers.of_beq_iff`).

Readers cannot tell equal trees apart, except for the signs of the zeros that they read: equality
is a relation that readers keep (`Value.simulation_beq`).
-/

namespace CallCapture

/-! ## Doubles -/

namespace Double

theorem isNaN_of_isZero {x : Double} (h : x.isZero = true) : x.isNaN = false := by
  have hmagnitude : x.magnitude = 0 := of_decide_eq_true h
  rw [isNaN, hmagnitude]
  rfl

/-- Only the bits of a double count. -/
theorem eq_of_bits_eq {x y : Double} (h : x.bits = y.bits) : x = y := by
  cases x
  cases y
  exact congrArg mk h

/-- **Doubles are equal as numbers** if the first is no NaN and both are the same bits once the
sign of zero is dropped. -/
theorem numEq_iff (x y : Double) :
    x.numEq y = true ↔
      x.isNaN = false ∧ (if x.isZero then zero else x) = (if y.isZero then zero else y) := by
  constructor
  · intro h
    simp only [numEq, Bool.and_eq_true, Bool.or_eq_true, Bool.not_eq_true', beq_iff_eq] at h
    obtain ⟨⟨hx, -⟩, hbits | ⟨hzx, hzy⟩⟩ := h
    · exact ⟨hx, by rw [eq_of_bits_eq hbits]⟩
    · exact ⟨hx, by rw [if_pos hzx, if_pos hzy]⟩
  · rintro ⟨hx, h⟩
    by_cases hzx : x.isZero = true <;> by_cases hzy : y.isZero = true
    · simp [numEq, hx, isNaN_of_isZero hzy, hzx, hzy]
    · rw [if_pos hzx, if_neg hzy] at h
      exact absurd (h ▸ rfl) hzy
    · rw [if_neg hzx, if_pos hzy] at h
      exact absurd (h ▸ rfl) hzx
    · rw [if_neg hzx, if_neg hzy] at h
      simp [numEq, hx, ← h]

/-- A NaN stays one when the sign of zero is dropped, and nothing else becomes one. -/
theorem isNaN_ite_isZero (x : Double) : (if x.isZero then zero else x).isNaN = x.isNaN := by
  by_cases hx : x.isZero = true
  · rw [if_pos hx, isNaN_of_isZero hx]
    rfl
  · rw [if_neg hx]

end Double

/-! ## Lists -/

/-- Lists are equal if they are equal item by item. -/
theorem beq_list_iff {α : Type} [BEq α] (as bs : List α) :
    (as == bs) = true ↔ List.Forall₂ (fun a b => (a == b) = true) as bs := by
  induction as generalizing bs with
  | nil => cases bs <;> simp
  | cons a as ih =>
    cases bs with
    | nil => simp
    | cons b bs => rw [List.cons_beq_cons, Bool.and_eq_true, ih, List.forall₂_cons]

/-! ## Values -/

namespace Value

theorem beqAll_eq_beq (as bs : List Value) : beqAll as bs = (as == bs) := by
  induction as generalizing bs with
  | nil => cases bs <;> rfl
  | cons a as ih =>
    cases bs with
    | nil => rfl
    | cons b bs => rw [beqAll, ih, List.cons_beq_cons, beq_def]

theorem beq_bytes_iff (p q : ByteArray) : (p == q) = true ↔ p = q := by
  show (p.data == q.data) = true ↔ p = q
  rw [beq_iff_eq]
  exact ⟨ByteArray.ext, congrArg ByteArray.data⟩

/-- **Trees are equal** if the first holds no NaN and both are the same tree once the signs of
zeros are dropped. -/
theorem beq_iff (a b : Value) :
    (a == b) = true ↔ a.hasNaN = false ∧ a.dropZeroSigns = b.dropZeroSigns := by
  induction a generalizing b with
  | float x =>
    cases b with
    | float y =>
      rw [beq_def, beq, Double.numEq_iff, hasNaN, dropZeroSigns, dropZeroSigns, float.injEq]
    | _ => simp [beq_def, beq, dropZeroSigns]
  | const m a ih =>
    cases b with
    | const n b =>
      rw [beq_def, beq, Bool.and_eq_true, ← beq_def, ih, beq_iff_eq, hasNaN, dropZeroSigns,
        dropZeroSigns, const.injEq]
      exact and_left_comm
    | _ => simp [beq_def, beq, dropZeroSigns]
  | array as ih =>
    cases b with
    | array bs =>
      rw [beq_def, beq, beqAll_eq_beq, beq_list_iff, forall₂_iff_map_eq ih, hasNaN, anyNaN_eq_any,
        dropZeroSigns, dropZeroSigns, dropZeroSignsAll_eq_map, dropZeroSignsAll_eq_map,
        array.injEq]
    | _ => simp [beq_def, beq, dropZeroSigns]
  | blob p =>
    cases b with
    | blob q =>
      rw [beq_def, beq, beq_bytes_iff, hasNaN, dropZeroSigns, dropZeroSigns, blob.injEq]
      simp
    | _ => simp [beq_def, beq, dropZeroSigns]
  | _ => cases b <;> simp [beq_def, beq, hasNaN, dropZeroSigns]

/-- Dropping the signs of zeros neither makes nor removes a NaN. -/
theorem hasNaN_dropZeroSigns (v : Value) : v.dropZeroSigns.hasNaN = v.hasNaN := by
  induction v with
  | float x => exact x.isNaN_ite_isZero
  | const name v ih => rw [dropZeroSigns, hasNaN, ih, hasNaN]
  | array vs ih =>
    rw [dropZeroSigns, hasNaN, anyNaN_eq_any, dropZeroSignsAll_eq_map, List.any_map, hasNaN,
      anyNaN_eq_any, Bool.eq_iff_iff, List.any_eq_true, List.any_eq_true]
    exact exists_congr fun w => and_congr_right fun hw => by rw [Function.comp, ih w hw]
  | _ => rfl

/-- A tree holds a NaN if one of its nodes, at whatever depth, is one. -/
theorem hasNaN_iff (v : Value) :
    v.hasNaN = true ↔ ∃ x : Double, .float x ∈ v.preorder ∧ x.isNaN = true := by
  induction v with
  | float x => simp [hasNaN, preorder]
  | const name v ih => simp [hasNaN, preorder, ih]
  | array vs ih =>
    rw [hasNaN, anyNaN_eq_any, List.any_eq_true, preorder, preorderAll_eq_flatMap]
    constructor
    · rintro ⟨w, hw, hnan⟩
      obtain ⟨x, hx, hxnan⟩ := (ih w hw).1 hnan
      exact ⟨x, List.mem_cons_of_mem _ (List.mem_flatMap.2 ⟨w, hw, hx⟩), hxnan⟩
    · rintro ⟨x, hx, hxnan⟩
      rcases List.mem_cons.1 hx with htop | hbelow
      · cases htop
      · obtain ⟨w, hw, hxw⟩ := List.mem_flatMap.1 hbelow
        exact ⟨w, hw, (ih w hw).2 ⟨x, hxw, hxnan⟩⟩
  | _ => simp [hasNaN, preorder]

/-- **Readers keep equality**: equal trees have equal children and equal payloads, with doubles
compared as numbers. -/
theorem simulation_beq :
    Simulation (fun a b => (a == b) = true) (fun x y => x.numEq y = true) Eq where
  kind_eq := kind_eq_of_beq
  const h := by
    rw [beq_def, beq, Bool.and_eq_true] at h
    exact h.2
  array h := by
    rw [beq_def, beq, beqAll_eq_beq] at h
    exact (beq_list_iff _ _).1 h
  null := rfl
  sint h := eq_of_beq h
  uint h := eq_of_beq h
  float h := h
  blob h := (beq_bytes_iff _ _).1 h

end Value

/-! ## Calls -/

/-- Whether the call holds a NaN anywhere in its arguments or its return value. -/
def Call.hasNaN (c : Call) : Bool :=
  c.anyValue Value.hasNaN

theorem Arg.beq_iff_related (a b : Arg) :
    (a == b) = true ↔ a.Related (fun v w => (v == w) = true) b := by
  show (a.name == b.name && a.value == b.value) = true ↔ _
  rw [Bool.and_eq_true, beq_iff_eq]
  exact ⟨fun h => ⟨h.1, h.2⟩, fun h => ⟨h.1, h.2⟩⟩

/-- Calls are equal if they are related by equality, part by part. -/
theorem Call.beq_iff_related (c d : Call) :
    (c == d) = true ↔ c.Related (fun v w => (v == w) = true) d := by
  have hargs : (c.args == d.args) = true ↔
      List.Forall₂ (Arg.Related fun v w => (v == w) = true) c.args d.args := by
    rw [beq_list_iff]
    exact ⟨fun h => h.imp fun a b => (a.beq_iff_related b).1,
      fun h => h.imp fun a b => (a.beq_iff_related b).2⟩
  have hret : (c.ret? == d.ret?) = true ↔
      Option.Rel (fun v w => (v == w) = true) c.ret? d.ret? := by
    cases c.ret? <;> cases d.ret? <;> simp
  show (c.name == d.name && c.args == d.args && c.ret? == d.ret?) = true ↔ _
  rw [Bool.and_eq_true, Bool.and_eq_true, beq_iff_eq, hargs, hret]
  exact ⟨fun h => ⟨h.1.1, h.1.2, h.2⟩, fun h => ⟨⟨h.1, h.2⟩, h.3⟩⟩

theorem Call.hasNaN_mask (c : Call) : (c.mask Value.dropZeroSigns).hasNaN = c.hasNaN := by
  simp only [hasNaN, anyValue, mask, List.any_map, Option.any_map, Function.comp_def,
    Value.hasNaN_dropZeroSigns]

/-! ## The laws of equality -/

/-- Equality compares numbers: things are equal if the first holds no NaN and both are the same
once the signs of zeros are dropped. -/
structure ComparesNumbers {α : Type} [BEq α] (hasNaN : α → Bool) (dropZeroSigns : α → α) :
    Prop where
  beq_iff : ∀ a b : α, (a == b) = true ↔ hasNaN a = false ∧ dropZeroSigns a = dropZeroSigns b
  symm : ∀ a b : α, (a == b) = true → (b == a) = true
  trans : ∀ a b c : α, (a == b) = true → (b == c) = true → (a == c) = true
  /-- What holds a NaN differs from itself, and nothing else does. -/
  refl_iff : ∀ a : α, (a == a) = true ↔ hasNaN a = false

/-- The laws follow from the first, since the signs of zeros have nothing to do with NaNs. -/
theorem ComparesNumbers.of_beq_iff {α : Type} [BEq α] {hasNaN : α → Bool} {dropZeroSigns : α → α}
    (hbeq : ∀ a b : α, (a == b) = true ↔ hasNaN a = false ∧ dropZeroSigns a = dropZeroSigns b)
    (hdrop : ∀ a, hasNaN (dropZeroSigns a) = hasNaN a) : ComparesNumbers hasNaN dropZeroSigns where
  beq_iff := hbeq
  symm a b h := by
    obtain ⟨hnan, hsame⟩ := (hbeq a b).1 h
    exact (hbeq b a).2 ⟨by rw [← hdrop, ← hsame, hdrop, hnan], hsame.symm⟩
  trans a b c hab hbc := by
    obtain ⟨hnan, hsame⟩ := (hbeq a b).1 hab
    exact (hbeq a c).2 ⟨hnan, hsame.trans ((hbeq b c).1 hbc).2⟩
  refl_iff a := (hbeq a a).trans (and_iff_left rfl)

/-- Readers who follow a path from two places cannot tell them apart, but for the signs of zeros:
both find nothing or both find trees that are equal, with the same entries, and readings have the
same outcome, with doubles compared as numbers. -/
abbrev Found.AlikeAsNumbers (f g : Found) (path : List Step) : Prop :=
  Found.Alike (fun v w => (v == w) = true) (fun x y => x.numEq y = true) Eq f g path

/-- **What equality means, and what it guarantees.**  Values and calls are equal if the first
holds no NaN at any depth and both are the same, bit for bit, once the signs of zeros are dropped.
So equality is symmetric and transitive, and what equals itself is what holds no NaN.  Equal
values, and the arguments and the return values of equal calls, are alike to readers along every
path. -/
theorem equality_of_numbers :
    (∀ v : Value, v.hasNaN = true ↔ ∃ x : Double, .float x ∈ v.preorder ∧ x.isNaN = true) ∧
    ComparesNumbers Value.hasNaN Value.dropZeroSigns ∧
    ComparesNumbers Call.hasNaN (Call.mask Value.dropZeroSigns) ∧
    (∀ a b : Value, (a == b) = true → ∀ path, Found.AlikeAsNumbers (.stored a) (.stored b) path) ∧
    (∀ c d : Call, (c == d) = true →
      (∀ name, (c.arg name).entries = (d.arg name).entries ∧
        ∀ path, Found.AlikeAsNumbers (c.arg name).result (d.arg name).result path) ∧
      (∀ index path, Found.AlikeAsNumbers (c.argAt index) (d.argAt index) path) ∧
      Option.Rel (fun v w => ∀ path, Found.AlikeAsNumbers (.stored v) (.stored w) path)
        c.ret? d.ret?) := by
  refine ⟨Value.hasNaN_iff, .of_beq_iff Value.beq_iff Value.hasNaN_dropZeroSigns,
    .of_beq_iff ?_ Call.hasNaN_mask, ?_, ?_⟩
  · intro c d
    rw [Call.beq_iff_related, Call.related_iff Value.beq_iff, Call.hasNaN]
  · intro a b hab path
    exact Value.simulation_beq.alike (.stored hab) path
  · intro c d hcd
    have hrelated := (c.beq_iff_related d).1 hcd
    refine ⟨fun name => ?_, fun index path => ?_, ?_⟩
    · obtain ⟨hentries, hresult⟩ := hrelated.arg name
      exact ⟨hentries, Value.simulation_beq.alike hresult⟩
    · exact Value.simulation_beq.alike (hrelated.argAt index) path
    · exact hrelated.ret fun hvw => Value.simulation_beq.alike (.stored hvw)

/-- Zeros of different signs, one of them under a constant: the trees are equal and alike to
readers, who still read different bits. -/
theorem equality_of_numbers_zeros :
    (Value.array [.const "Z" (.float ⟨0⟩), .null] ==
      .array [.const "Z" (.float ⟨0x8000000000000000⟩), .null]) = true ∧
    Found.AlikeAsNumbers (.stored (.array [.const "Z" (.float ⟨0⟩), .null]))
      (.stored (.array [.const "Z" (.float ⟨0x8000000000000000⟩), .null])) [.element 0, .unwrap] ∧
    (Value.float ⟨0⟩).coerce .double = .ok ⟨0⟩ ∧
    (Value.float ⟨0x8000000000000000⟩).coerce .double = .ok ⟨0x8000000000000000⟩ ∧
    (Call.mk "f" [⟨"x", .float ⟨0⟩⟩] none == ⟨"f", [⟨"x", .float ⟨0x8000000000000000⟩⟩], none⟩) =
      true ∧
    Found.AlikeAsNumbers ((Call.mk "f" [⟨"x", .float ⟨0⟩⟩] none).argAt 0)
      ((Call.mk "f" [⟨"x", .float ⟨0x8000000000000000⟩⟩] none).argAt 0) [] :=
  ⟨rfl, equality_of_numbers.2.2.2.1 _ _ rfl _, rfl, rfl, rfl,
    (equality_of_numbers.2.2.2.2 _ _ rfl).2.1 0 []⟩

end CallCapture
