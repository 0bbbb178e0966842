import CallCapture.Json.Capture
import CallCapture.Outline
import CallCapture.Proofs.Dump.Rendering
import CallCapture.Proofs.Lookup.Simulation
import CallCapture.Walk

/-!
# What no observer sees

The bytes of a blob are nobody's business but those of a reader who asks for the buffer, and in a
dump neither is the value that a constant stands for.  Both are statements about two runs: trees
that differ in nothing else look the same, wherever in them the difference lies.

Trees that differ in nothing else have the same *mask*.  So it is enough that no observer sees the
mask (`Invisible`): it shows for the masked tree what it shows for the tree, and hence the same
for trees with one mask (`Invisible.eq`).  Each observer has its own recursion and so its own
induction: `Value.script_maskHidden` for dumps, `Value.outline_maskBlobs`,
`Value.json_maskBlobs` and `Value.walk_maskBlobs` for the others.  Readers are different, since
what they find in masked trees is masked; having the same mask is a relation that they keep
(`Value.simulation_maskBlobs`).
-/

namespace CallCapture

/-- An observer does not see a mask. -/
def Invisible {α : Type} {β : Type} (mask : α → α) (observe : α → β) : Prop :=
  ∀ a, observe (mask a) = observe a

/-- **Two runs.**  An observer that does not see a mask cannot tell things with one mask apart. -/
theorem Invisible.eq {α : Type} {β : Type} {mask : α → α} {observe : α → β}
    (h : Invisible mask observe) {a b : α} (hab : mask a = mask b) : observe a = observe b := by
  rw [← h a, hab, h b]

/-- What is made of items one by one does not show a mask that no item shows. -/
theorem map_map_mask {α : Type} {β : Type} {mask : α → α} {observe : α → β} {as : List α}
    (h : ∀ a ∈ as, observe (mask a) = observe a) :
    (as.map mask).map observe = as.map observe := by
  rw [List.map_map]
  exact List.map_congr_left h

/-! ## Blobs -/

@[simp] theorem size_blank (bytes : ByteArray) : (blank bytes).size = bytes.size :=
  Array.size_replicate

@[simp] theorem blank_blank (bytes : ByteArray) : blank (blank bytes) = blank bytes := by
  rw [blank, size_blank, blank]

theorem size_eq_of_blank_eq {p q : ByteArray} (h : blank p = blank q) : p.size = q.size := by
  rw [← size_blank p, h, size_blank]

namespace Value

/-! ## Values -/

theorem kind_maskBlobs (v : Value) : v.maskBlobs.kind = v.kind := by
  cases v <;> rfl

/-- The mask that hides more hides what the other one hides. -/
theorem maskHidden_maskBlobs : Invisible maskBlobs maskHidden := by
  intro v
  induction v with
  | array vs ih =>
    rw [maskBlobs, maskHidden, maskHidden, maskBlobsAll_eq_map, maskHiddenAll_eq_map,
      maskHiddenAll_eq_map, map_map_mask ih]
  | blob bytes => simp only [maskBlobs, maskHidden, blank_blank]
  | _ => rfl

/-- The pieces of a dump have nothing in them of what is hidden. -/
theorem script_maskHidden (o : Dump.Options) : Invisible maskHidden (Dump.script o) := by
  intro v
  induction v with
  | array vs ih =>
    rw [maskHidden, maskHiddenAll_eq_map, Dump.script_array, Dump.script_array,
      map_map_mask ih]
  | blob bytes =>
    show ["... ", natText (blank bytes).size] = ["... ", natText bytes.size]
    rw [size_blank]
  | _ => rfl

/-- **Dumps**, into whatever sink. -/
theorem dumpInto_maskHidden {σ : Type} (k : Sink σ) (o : Dump.Options) (s : σ) :
    Invisible maskHidden (fun v => v.dumpInto k o s) := by
  intro v
  simp only [dumpInto, Dump.value_eq_writeAll, script_maskHidden o v]

theorem contents_maskBlobs : Invisible maskBlobs contents := by
  intro v
  induction v with
  | const name v ih => simp only [maskBlobs, contents, kind_maskBlobs, ih]
  | array vs ih =>
    have houtline : ∀ w ∈ vs, w.maskBlobs.outline = w.outline := by
      intro w hw
      rw [outline, outline, kind_maskBlobs, ih w hw]
    rw [maskBlobs, contents, contents, maskBlobsAll_eq_map, outlines_eq_map, outlines_eq_map,
      map_map_mask houtline]
  | blob bytes => simp only [maskBlobs, contents, size_blank]
  | _ => rfl

/-- **Outlines.** -/
theorem outline_maskBlobs : Invisible maskBlobs outline := by
  intro v
  rw [outline, outline, kind_maskBlobs, contents_maskBlobs v]

/-- **Documents.** -/
theorem json_maskBlobs : Invisible maskBlobs json := by
  intro v
  induction v with
  | const name v ih => simp only [maskBlobs, json, ih]
  | array vs ih =>
    rw [maskBlobs, json, json, maskBlobsAll_eq_map, jsonAll_eq_map, jsonAll_eq_map,
      map_map_mask ih]
  | blob bytes => simp only [maskBlobs, json, size_blank]
  | _ => rfl

/-- **Walks.** -/
theorem walk_maskBlobs : Invisible maskBlobs walk := by
  intro v
  induction v with
  | const name v ih => simp only [maskBlobs, walk, ih]
  | array vs ih =>
    rw [maskBlobs, walk, walk, maskBlobsAll_eq_map, walkAll_eq_flatMap, walkAll_eq_flatMap,
      List.flatMap_map, List.flatMap_congr ih]
  | blob bytes => simp only [maskBlobs, walk, size_blank]
  | _ => rfl

/-- **Readers** keep the sameness of masks, and find buffers of the same size. -/
theorem simulation_maskBlobs :
    Simulation (fun a b => a.maskBlobs = b.maskBlobs) Eq (fun p q => p.size = q.size) where
  kind_eq {a b} h := by rw [← a.kind_maskBlobs, h, b.kind_maskBlobs]
  const h := by
    rw [maskBlobs, maskBlobs, Value.const.injEq] at h
    exact h.2
  array h := by
    rw [maskBlobs, maskBlobs, maskBlobsAll_eq_map, maskBlobsAll_eq_map, Value.array.injEq] at h
    rw [← List.forall₂_eq_eq_eq, List.forall₂_map_left_iff, List.forall₂_map_right_iff] at h
    exact h
  null := rfl
  sint h := sint.inj h
  uint h := uint.inj h
  float h := float.inj h
  blob h := size_eq_of_blank_eq (blob.inj h)

end Value

/-! ## Calls -/

/-- The arguments of a masked call, for an observer who takes them one by one. -/
theorem map_maskArgs {β : Type} (mask : Value → Value) (observe : Arg → β)
    (h : ∀ a : Arg, observe ⟨a.name, mask a.value⟩ = observe a) (args : List Arg) :
    (args.map fun a => (⟨a.name, mask a.value⟩ : Arg)).map observe = args.map observe :=
  map_map_mask fun a _ => h a

namespace Call

theorem maskHidden_maskBlobs : Invisible (mask Value.maskBlobs) (mask Value.maskHidden) := by
  rintro ⟨name, args, ret?⟩
  have hargs := map_maskArgs Value.maskBlobs (fun a => (⟨a.name, a.value.maskHidden⟩ : Arg))
    (fun a => by rw [Value.maskHidden_maskBlobs a.value]) args
  cases ret? with
  | none => simp only [mask, hargs, Option.map_none]
  | some v => simp only [mask, hargs, Option.map_some, Value.maskHidden_maskBlobs v]

/-- **Dumps**, into whatever sink. -/
theorem dumpInto_maskHidden {σ : Type} (k : Sink σ) (o : Dump.Options) (s : σ) :
    Invisible (mask Value.maskHidden) (fun c => c.dumpInto k o s) := by
  rintro ⟨name, args, ret?⟩
  have hargs := map_maskArgs Value.maskHidden (Dump.argScript o) (fun a => by
    rw [Dump.argScript, Dump.argScript, Value.script_maskHidden o a.value]) args
  cases ret? with
  | none =>
    simp only [dumpInto, Dump.call_eq_writeAll, mask, Dump.callScript, hargs, Option.map_none]
  | some v =>
    simp only [dumpInto, Dump.call_eq_writeAll, mask, Dump.callScript, hargs, Option.map_some,
      Dump.retScript, Value.script_maskHidden o v]

/-- **Outlines.** -/
theorem outline_maskBlobs : Invisible (mask Value.maskBlobs) outline := by
  rintro ⟨name, args, ret?⟩
  have hargs := map_maskArgs Value.maskBlobs Arg.outline (fun a => by
    rw [Arg.outline, Arg.outline, Value.outline_maskBlobs a.value]) args
  cases ret? with
  | none => simp only [mask, outline, hargs, Option.map_none]
  | some v => simp only [mask, outline, hargs, Option.map_some, Value.outline_maskBlobs v]

/-- **Documents.** -/
theorem json_maskBlobs : Invisible (mask Value.maskBlobs) json := by
  rintro ⟨name, args, ret?⟩
  have hargs := map_maskArgs Value.maskBlobs Arg.json (fun a => by
    rw [Arg.json, Arg.json, Value.json_maskBlobs a.value]) args
  cases ret? with
  | none => simp only [mask, json, hargs, Option.map_none]
  | some v => simp only [mask, json, hargs, Option.map_some, Value.json_maskBlobs v]

/-- **Walks.** -/
theorem walk_maskBlobs : Invisible (mask Value.maskBlobs) walk := by
  rintro ⟨name, args, ret?⟩
  have hargs := map_maskArgs Value.maskBlobs Arg.walk (fun a => by
    rw [Arg.walk, Arg.walk, Value.walk_maskBlobs a.value]) args
  cases ret? with
  | none => simp only [mask, walk, List.flatMap_def, hargs, Option.map_none]
  | some v =>
    simp only [mask, walk, List.flatMap_def, hargs, Option.map_some, Value.walk_maskBlobs v]

end Call

/-! ## All observers -/

/-- Readers who follow a path from two places cannot tell them apart, but for the bytes of
buffers: both find nothing or both find trees with the same mask, with the same entries, and
readings have the same outcome, with buffers compared by their size. -/
abbrev Found.AlikeButBytes (f g : Found) (path : List Step) : Prop :=
  Found.Alike (fun v w => v.maskBlobs = w.maskBlobs) Eq (fun p q => p.size = q.size) f g path

/-- No observer can tell two values apart, except by asking for the bytes of a buffer. -/
structure Value.Indistinguishable (a b : Value) : Prop where
  /-- Under every limit on elements and into every sink, whatever its rule for refusing. -/
  dump : ∀ (σ : Type) (k : Sink σ) (o : Dump.Options) (s : σ), a.dumpInto k o s = b.dumpInto k o s
  flat : a.outline.flat = b.outline.flat
  pretty : a.outline.pretty = b.outline.pretty
  json : a.json.text = b.json.text
  walk : a.walk = b.walk
  readings : ∀ path, Found.AlikeButBytes (.stored a) (.stored b) path

/-- No observer can tell two calls apart, except by asking for the bytes of a buffer. -/
structure Call.Indistinguishable (c d : Call) : Prop where
  dump : ∀ (σ : Type) (k : Sink σ) (o : Dump.Options) (s : σ), c.dumpInto k o s = d.dumpInto k o s
  flat : c.outline.flat = d.outline.flat
  pretty : c.outline.pretty = d.outline.pretty
  json : c.json.text = d.json.text
  walk : c.walk = d.walk
  entries_arg : ∀ name, (c.arg name).entries = (d.arg name).entries
  arg_readings : ∀ name path, Found.AlikeButBytes (c.arg name).result (d.arg name).result path
  argAt_readings : ∀ index path, Found.AlikeButBytes (c.argAt index) (d.argAt index) path
  ret : Option.Rel Value.Indistinguishable c.ret? d.ret?

theorem Value.indistinguishable {a b : Value} (h : a.maskBlobs = b.maskBlobs) :
    a.Indistinguishable b where
  dump _ k o s := (dumpInto_maskHidden k o s).eq (maskHidden_maskBlobs.eq h)
  flat := congrArg Outline.flat (outline_maskBlobs.eq h)
  pretty := congrArg Outline.pretty (outline_maskBlobs.eq h)
  json := congrArg Json.text (json_maskBlobs.eq h)
  walk := walk_maskBlobs.eq h
  readings := simulation_maskBlobs.alike (.stored h)

/-- Calls with the same mask are related part by part. -/
theorem Call.related_of_mask_eq {f : Value → Value} {c d : Call} (h : c.mask f = d.mask f) :
    c.Related (fun v w => f v = f w) d := by
  have hclear : ∀ v w : Value, f v = f w ↔ (fun _ => false) v = false ∧ f v = f w := by simp
  exact (related_iff hclear c d).2 ⟨by simp [anyValue], h⟩

theorem Call.indistinguishable {c d : Call}
    (h : c.mask Value.maskBlobs = d.mask Value.maskBlobs) : c.Indistinguishable d where
  dump _ k o s := (dumpInto_maskHidden k o s).eq (maskHidden_maskBlobs.eq h)
  flat := congrArg Outline.flat (outline_maskBlobs.eq h)
  pretty := congrArg Outline.pretty (outline_maskBlobs.eq h)
  json := congrArg Json.text (json_maskBlobs.eq h)
  walk := walk_maskBlobs.eq h
  entries_arg name := ((related_of_mask_eq h).arg name).entries_eq
  arg_readings name := Value.simulation_maskBlobs.alike ((related_of_mask_eq h).arg name).related
  argAt_readings index := Value.simulation_maskBlobs.alike ((related_of_mask_eq h).argAt index)
  ret := (related_of_mask_eq h).ret Value.indistinguishable

/-- **Nothing hidden leaks.**  Values or calls that differ only in the bytes of blobs, sizes kept,
are indistinguishable.  If they may also differ in what constants stand for, names kept, their
dumps are still the same, under every limit on elements and into every sink. -/
theorem hidden_contents :
    (∀ a b : Value, a.maskBlobs = b.maskBlobs → a.Indistinguishable b) ∧
    (∀ c d : Call, c.mask Value.maskBlobs = d.mask Value.maskBlobs → c.Indistinguishable d) ∧
    (∀ a b : Value, a.maskHidden = b.maskHidden →
      ∀ (σ : Type) (k : Sink σ) (o : Dump.Options) (s : σ),
        a.dumpInto k o s = b.dumpInto k o s) ∧
    (∀ c d : Call, c.mask Value.maskHidden = d.mask Value.maskHidden →
      ∀ (σ : Type) (k : Sink σ) (o : Dump.Options) (s : σ),
        c.dumpInto k o s = d.dumpInto k o s) :=
  ⟨fun _ _ => Value.indistinguishable, fun _ _ => Call.indistinguishable,
    fun _ _ h _ k o s => (Value.dumpInto_maskHidden k o s).eq h,
    fun _ _ h _ k o s => (Call.dumpInto_maskHidden k o s).eq h⟩

/-- Bytes under a constant in an array: other bytes are not told apart, and in a dump that is cut
short not even another value in their place. -/
theorem hidden_contents_under_constant :
    (Value.array [.const "BUF" (.blob ⟨#[1, 2]⟩)]).maskBlobs =
      (Value.array [.const "BUF" (.blob ⟨#[3, 4]⟩)]).maskBlobs ∧
    (Value.array [.const "BUF" (.blob ⟨#[1, 2]⟩)]).Indistinguishable
      (.array [.const "BUF" (.blob ⟨#[3, 4]⟩)]) ∧
    (Call.mk "f" [⟨"p", .blob ⟨#[1, 2]⟩⟩] none).Indistinguishable
      ⟨"f", [⟨"p", .blob ⟨#[3, 4]⟩⟩], none⟩ ∧
    (Value.array [.const "BUF" (.blob ⟨#[1, 2]⟩)]).maskHidden =
      (Value.array [.const "BUF" (.bool true)]).maskHidden ∧
    (Value.array [.const "BUF" (.blob ⟨#[1, 2]⟩)]).dumpInto .limited .canonical ⟨"", 2⟩ =
      (Value.array [.const "BUF" (.bool true)]).dumpInto .limited .canonical ⟨"", 2⟩ ∧
    (Call.mk "f" [] (some (.const "BUF" .null))).dumpInto .text .canonical "" =
      (Call.mk "f" [] (some (.const "BUF" (.bool true)))).dumpInto .text .canonical "" :=
  ⟨rfl, hidden_contents.1 _ _ rfl, hidden_contents.2.1 _ _ rfl, rfl,
    hidden_contents.2.2.1 _ _ rfl _ .limited .canonical ⟨"", 2⟩,
    hidden_contents.2.2.2 _ _ rfl _ .text .canonical ""⟩

end CallCapture
