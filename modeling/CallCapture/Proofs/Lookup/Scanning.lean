import CallCapture.Lookup

/-!
# What a scan finds

A scan asks for the elements at the indices from zero on and stops at the first answer that
reads as null.  Nothing in that answer says whether a null stands in the array there or whether
the array has ended, so what the scan finds and what it leaves in the log depend on where the
first null is.

One probe is described by `Value.probe_cases`: there is an element that is not null, or there is
a null, or there is nothing.  By induction along the probes, a scan from any index finds the
elements up to the first null, quietly, and then makes one probe more
(`Value.probesFrom_eq`).
-/

namespace CallCapture

namespace Value

/-- The values before the first null.  A constant that stands for null is not null itself. -/
def beforeNull (ws : List Value) : List Value :=
  ws.takeWhile fun w => !w.isNull

theorem beforeNull_cons {w : Value} (h : w ≠ .null) (ws : List Value) :
    beforeNull (w :: ws) = w :: beforeNull ws := by
  have hw : (!w.isNull) = true := by
    rw [Bool.not_eq_true', Bool.eq_false_iff]
    exact mt isNull_iff.1 h
  exact List.takeWhile_cons_of_pos hw

/-- The values before the first null are none of them null, and what follows them, if anything
does, begins with a null. -/
theorem beforeNull_cut (ws : List Value) :
    (∀ w ∈ beforeNull ws, w ≠ .null) ∧
      (beforeNull ws = ws ∧ .null ∉ ws ∨ ∃ rest, ws = beforeNull ws ++ .null :: rest) := by
  induction ws with
  | nil => exact ⟨nofun, Or.inl ⟨rfl, List.not_mem_nil⟩⟩
  | cons w ws ih =>
    by_cases hw : w = .null
    · subst hw
      exact ⟨nofun, Or.inr ⟨ws, rfl⟩⟩
    · obtain ⟨hnot, hcut⟩ := ih
      rw [beforeNull_cons hw]
      refine ⟨List.forall_mem_cons.2 ⟨hw, hnot⟩, ?_⟩
      rcases hcut with ⟨hall, hmem⟩ | ⟨rest, hrest⟩
      · refine Or.inl ⟨by rw [hall], ?_⟩
        rw [List.mem_cons, not_or]
        exact ⟨Ne.symm hw, hmem⟩
      · exact Or.inr ⟨rest, by rw [List.cons_append, ← hrest]⟩

/-! ## One probe -/

/-- **One probe.**  It finds an element that is not null, or a null, or it runs off the end. -/
theorem probe_cases (v : Value) (index : Nat) :
    (∃ w, w ≠ .null ∧ v.elements.drop index = w :: v.elements.drop (index + 1) ∧
        v.elementAt index = .quiet (.stored w)) ∨
      (v.elements.drop index = .null :: v.elements.drop (index + 1) ∧
        v.elementAt index = .quiet (.stored .null)) ∨
      (v.elements.drop index = [] ∧ v.elementAt index = .note (v.missed index) .absent) := by
  rw [elementAt_eq]
  cases hw : v.elements[index]? with
  | none =>
    exact Or.inr (Or.inr ⟨List.drop_eq_nil_of_le (List.getElem?_eq_none_iff.1 hw), rfl⟩)
  | some w =>
    obtain ⟨hlt, hget⟩ := List.getElem?_eq_some_iff.1 hw
    have hdrop : v.elements.drop index = w :: v.elements.drop (index + 1) := by
      rw [List.drop_eq_getElem_cons hlt, hget]
    by_cases hnull : w = .null
    · subst hnull
      exact Or.inr (Or.inl ⟨hdrop, rfl⟩)
    · exact Or.inl ⟨w, hnull, hdrop, rfl⟩

/-! ## A run of probes -/

theorem probesFrom_of_null {v : Value} {index : Nat}
    (h : (v.elementAt index).result.value = .null) :
    v.probesFrom index = [v.elementAt index] := by
  rw [probesFrom, dif_pos (isNull_iff.2 h)]

theorem probesFrom_of_ne {v : Value} {index : Nat}
    (h : (v.elementAt index).result.value ≠ .null) :
    v.probesFrom index = v.elementAt index :: v.probesFrom (index + 1) := by
  rw [probesFrom, dif_neg (mt isNull_iff.1 h)]

/-- **The probes from an index on**: one quiet answer for each element before the next null, and
one probe more. -/
theorem probesFrom_eq (v : Value) (index : Nat) :
    v.probesFrom index =
      (beforeNull (v.elements.drop index)).map (fun w => .quiet (.stored w)) ++
        [v.elementAt (index + (beforeNull (v.elements.drop index)).length)] := by
  -- induction on the number of elements that are left
  induction hleft : v.elements.drop index generalizing index with
  | nil =>
    rcases v.probe_cases index with ⟨w, -, hdrop, -⟩ | ⟨hdrop, -⟩ | ⟨-, hnote⟩
    · exact nomatch hleft.symm.trans hdrop
    · exact nomatch hleft.symm.trans hdrop
    · rw [probesFrom_of_null (by rw [hnote]; rfl)]
      rfl
  | cons u rest ih =>
    rcases v.probe_cases index with ⟨w, hw, hdrop, hquiet⟩ | ⟨hdrop, hquiet⟩ | ⟨hdrop, -⟩
    · obtain ⟨rfl, hrest⟩ := List.cons.inj (hleft.symm.trans hdrop)
      have hne : (v.elementAt index).result.value ≠ .null := by
        rw [hquiet]
        exact hw
      have hindex (n : Nat) : index + 1 + n = index + (n + 1) := by omega
      rw [probesFrom_of_ne hne, ih (index + 1) hrest.symm, beforeNull_cons hw, List.map_cons,
        List.length_cons, hindex, hquiet]
      rfl
    · obtain ⟨rfl, -⟩ := List.cons.inj (hleft.symm.trans hdrop)
      rw [probesFrom_of_null (by rw [hquiet]; rfl)]
      rfl
    · exact nomatch hleft.symm.trans hdrop

/-- Whatever they find, the probes ask for one index after the other. -/
theorem probesFrom_in_order (v : Value) (index : Nat) :
    v.probesFrom index = (List.range' index (v.probesFrom index).length).map v.elementAt := by
  fun_induction probesFrom v index with
  | case1 index h => rfl
  | case2 index h ih => rw [List.length_cons, List.range'_succ, List.map_cons, ← ih]

theorem probes_eq (v : Value) :
    v.probes = (beforeNull v.elements).map (fun w => .quiet (.stored w)) ++
      [v.elementAt (beforeNull v.elements).length] := by
  have h := v.probesFrom_eq 0
  rwa [List.drop_zero, Nat.zero_add] at h

/-- The scan finds the elements before the first null. -/
theorem scan_eq (v : Value) : v.scan = beforeNull v.elements := by
  rw [scan, probes_eq, List.dropLast_concat, List.map_map]
  exact List.map_id' _

theorem length_probes (v : Value) : v.probes.length = v.scan.length + 1 := by
  rw [probes_eq, List.length_append, List.length_map, scan_eq, List.length_singleton]

/-- The probes of a scan ask for the elements from the first on. -/
theorem probes_eq_map_range (v : Value) :
    v.probes = (List.range (v.scan.length + 1)).map v.elementAt := by
  have h := v.probesFrom_in_order 0
  rwa [← probes, length_probes, ← List.range_eq_range'] at h

theorem ne_null_of_mem_scan (v : Value) {w : Value} (h : w ∈ v.scan) : w ≠ .null := by
  rw [scan_eq] at h
  exact (beforeNull_cut v.elements).1 w h

/-- The scan finds all elements, or stops at a null. -/
theorem scan_cut (v : Value) :
    v.scan = v.elements ∧ .null ∉ v.elements ∨ ∃ rest, v.elements = v.scan ++ .null :: rest := by
  rw [scan_eq]
  exact (beforeNull_cut v.elements).2

/-- Only the last probe can leave an entry. -/
theorem scanEntries_eq (v : Value) : v.scanEntries = (v.elementAt v.scan.length).entries := by
  have hquiet : ((beforeNull v.elements).map fun w => Logged.quiet (Found.stored w)).flatMap
      Logged.entries = [] := by
    rw [List.flatMap_map]
    exact List.flatMap_eq_nil_iff.2 fun _ _ => rfl
  rw [scanEntries, probes_eq, List.flatMap_append, hquiet, List.flatMap_singleton, scan_eq]
  rfl

/-- The last probe finds the first null, or there is none and it runs off the end. -/
theorem elementAt_length_scan (v : Value) :
    (.null ∈ v.elements ∧ v.elementAt v.scan.length = .quiet (.stored .null)) ∨
      (.null ∉ v.elements ∧ v.scan.length = v.elements.length ∧
        v.elementAt v.scan.length = .note (v.missed v.elements.length) .absent) := by
  rcases v.scan_cut with ⟨hall, hmem⟩ | ⟨rest, hrest⟩
  · refine Or.inr ⟨hmem, by rw [hall], ?_⟩
    rw [hall]
    rcases v.probe_cases v.elements.length with ⟨w, -, hdrop, -⟩ | ⟨hdrop, -⟩ | ⟨-, hnote⟩
    · exact nomatch List.drop_length.symm.trans hdrop
    · exact nomatch List.drop_length.symm.trans hdrop
    · exact hnote
  · have hdrop : v.elements.drop v.scan.length = .null :: rest :=
      (congrArg (List.drop v.scan.length) hrest).trans List.drop_left
    refine Or.inl ⟨?_, ?_⟩
    · rw [hrest]
      exact List.mem_append_right _ List.mem_cons_self
    · rcases v.probe_cases v.scan.length with ⟨w, hw, hdrop', -⟩ | ⟨-, hquiet⟩ | ⟨hdrop', -⟩
      · exact absurd (List.cons.inj (hdrop'.symm.trans hdrop)).1 hw
      · exact hquiet
      · exact nomatch hdrop'.symm.trans hdrop

/-- A scan of a value is accounted for: its probes, what it finds and what is in the log are
what the elements of the value say. -/
structure ScanAccounted (v : Value) : Prop where
  /-- The probes ask for the elements at the indices from zero on. -/
  probes_in_order : v.probes = (List.range (v.scan.length + 1)).map v.elementAt
  /-- The scan goes on as long as the answer does not read as null. -/
  goes_on : ∀ index < v.scan.length, (v.elementAt index).result.value.isNull = false
  /-- It stops at the first answer that does. -/
  stops : (v.elementAt v.scan.length).result.value.isNull = true
  /-- It makes at most one probe more than there are elements. -/
  length_probes_le : v.probes.length ≤ v.elements.length + 1
  /-- It finds exactly the elements before the first that is null itself. -/
  finds : ∃ rest, v.elements = v.scan ++ rest ∧ (∀ w ∈ v.scan, w ≠ .null) ∧
    ∀ w, rest.head? = some w → w = .null
  /-- All but the last probe are quiet. -/
  quiet_before_last : ∀ r ∈ v.probes.dropLast, r.entries = []
  /-- A null in the array stops the scan without an entry. -/
  quiet_of_null : .null ∈ v.elements → v.scanEntries = []
  /-- Running off the end of an array leaves one event. -/
  off_array : ∀ vs, v.unwrapConst = .array vs → .null ∉ vs →
    v.scanEntries = [.event (.indexOutOfRange vs.length vs.length)]
  /-- And so does asking for the elements of anything else. -/
  off_other : v.unwrapConst.kind ≠ .array →
    v.scanEntries = [.event (.notAnArray 0 v.unwrapConst.kind)]

/-- **Every scan is accounted for**, whatever the value and wherever its nulls are. -/
theorem scan_accounted (v : Value) : v.ScanAccounted where
  probes_in_order := v.probes_eq_map_range
  goes_on := by
    intro index hindex
    have hscan : (v.elementAt index).result.value ∈ v.scan := by
      rw [scan, probes_eq_map_range, List.range_succ, List.map_append, List.map_singleton,
        List.dropLast_concat]
      exact List.mem_map_of_mem (List.mem_map_of_mem (List.mem_range.2 hindex))
    exact Bool.eq_false_iff.2 (mt isNull_iff.1 (v.ne_null_of_mem_scan hscan))
  stops := by
    rcases v.elementAt_length_scan with ⟨-, hquiet⟩ | ⟨-, -, hnote⟩
    · rw [hquiet]
      rfl
    · rw [hnote]
      rfl
  length_probes_le := by
    rw [length_probes, scan_eq]
    exact Nat.succ_le_succ (List.takeWhile_sublist _).length_le
  finds := by
    rcases v.scan_cut with ⟨hall, -⟩ | ⟨rest, hrest⟩
    · exact ⟨[], by rw [hall, List.append_nil], fun _ => v.ne_null_of_mem_scan, nofun⟩
    · refine ⟨.null :: rest, hrest, fun _ => v.ne_null_of_mem_scan, ?_⟩
      rintro w ⟨⟩
      rfl
  quiet_before_last := by
    rw [probes_eq, List.dropLast_concat]
    intro r hr
    obtain ⟨w, -, rfl⟩ := List.mem_map.1 hr
    rfl
  quiet_of_null := by
    intro hnull
    rcases v.elementAt_length_scan with ⟨-, hquiet⟩ | ⟨hmem, -, -⟩
    · rw [scanEntries_eq, hquiet]
      rfl
    · exact absurd hnull hmem
  off_array := by
    intro vs hv hnull
    rcases v.elementAt_length_scan with ⟨hmem, -⟩ | ⟨-, -, hnote⟩
    · rw [elements_of_array hv] at hmem
      exact absurd hmem hnull
    · rw [scanEntries_eq, hnote, elements_of_array hv, missed_of_array hv]
      rfl
  off_other := by
    intro hk
    rcases v.elementAt_length_scan with ⟨hmem, -⟩ | ⟨-, -, hnote⟩
    · rw [elements_of_kind_ne hk] at hmem
      exact absurd hmem List.not_mem_nil
    · rw [scanEntries_eq, hnote, elements_of_kind_ne hk, missed_of_kind_ne hk]
      rfl

/-- Two constants around an array: a constant for null does not stop the scan, and the null
after it does, without an entry. -/
example :
    let v := Value.const "A" (.const "B" (.array [.bool true, .const "C" .null, .null, .null]))
    v.scan = [.bool true, .const "C" .null] ∧ v.probes.length = 3 ∧ v.scanEntries = [] := by
  cbv

end Value

end CallCapture
