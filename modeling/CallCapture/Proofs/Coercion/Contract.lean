import CallCapture.Coercion.Basic

/-!
# The coercion contract

There are three ways of reading a value as a primitive: a reading that may fail, a conversion to a
type, and a demand that stops the reader.  All three look through constants, and all three are the
same reading: a conversion is the reading in the shape of its type, and a demand gives what the
reading gives, or records the error of the reading and stops with it.

* `Value.ReadsByKind` --- whether a reading succeeds is decided by the kind under the constants,
  and so is the error if it fails; the payload is handed out as it is, except that an unsigned
  integer that is read as a signed one is reinterpreted in two's complement
  (`toInt_toInt64_iff`).
* `Value.FamiliesAgree` --- the three ways of reading agree.
-/

namespace CallCapture

/-- **Two's complement.**  An unsigned integer that is reinterpreted as a signed one becomes the
only integer of the signed range that is congruent to it. -/
theorem toInt_toInt64_iff (u : UInt64) (i : Int) :
    (-0x8000000000000000 ≤ i ∧ i < 0x8000000000000000 ∧
        (0x10000000000000000 : Int) ∣ i - u.toNat) ↔
      i = u.toInt64.toInt := by
  have hbound := u.toNat_lt
  have hnat : u.toInt64.toBitVec.toNat = u.toNat := rfl
  rw [Int64.toInt, BitVec.toInt_eq_toNat_cond, hnat]
  split <;> omega

/-! ## Kinds that are accepted -/

namespace Shape

theorem accepts_signedInteger_iff (k : Kind) :
    accepts .signedInteger k = true ↔ k = .sint ∨ k = .uint := by
  cases k <;> simp [accepts]

theorem accepts_unsignedInteger_iff (k : Kind) :
    accepts .unsignedInteger k = true ↔ k = .uint := by
  cases k <;> simp [accepts]

theorem accepts_double_iff (k : Kind) : accepts .double k = true ↔ k = .float := by
  cases k <;> simp [accepts]

theorem accepts_buffer_iff (k : Kind) :
    accepts .buffer k = true ↔ k = .blob ∨ k = .null := by
  cases k <;> simp [accepts]

end Shape

namespace Value

/-- A reading succeeds exactly if the kind under the constants is accepted. -/
theorem exists_coerce_eq_ok_iff (s : Shape) (v : Value) :
    (∃ a, v.coerce s = .ok a) ↔ s.accepts v.unwrapConst.kind = true := by
  rcases coerce_cases s v with ⟨hs, hok⟩ | ⟨hs, herror⟩
  · exact ⟨fun _ => hs, fun _ => hok⟩
  · rw [herror, hs]
    simp

/-- A reading fails with the shape that was asked for and the kind that was found. -/
theorem eq_of_coerce_eq_error {s : Shape} {v : Value} {e : CoerceError}
    (h : v.coerce s = .error e) : e = ⟨s, v.unwrapConst.kind⟩ := by
  rcases coerce_cases s v with ⟨-, a, hok⟩ | ⟨-, herror⟩
  · rw [hok] at h
    exact nomatch h
  · rw [herror] at h
    exact (Except.error.inj h).symm

/-- However many constants are put around a value, what lies under them stays. -/
theorem unwrapConst_foldr_const (names : List String) (v : Value) :
    (names.foldr .const v).unwrapConst = v.unwrapConst := by
  induction names with
  | nil => rfl
  | cons name names ih => rw [List.foldr_cons, unwrapConst_const, ih]

/-- A value is read as what lies under its constants. -/
theorem coerce_of_unwrapConst_eq {v w : Value} (h : v.unwrapConst = w) (s : Shape) :
    v.coerce s = w.coerce s := by
  rw [← coerce_unwrapConst s v, h]

/-! ## Readings -/

/-- What readings of a value give is decided by what lies under its constants. -/
structure ReadsByKind (v : Value) : Prop where
  kind_ne : v.unwrapConst.kind ≠ .const
  unwrapConst_eq : v.unwrapConst.unwrapConst = v.unwrapConst
  /-- Any number of constants around the value makes no difference. -/
  wrapped : ∀ names : List String, (names.foldr .const v).unwrapConst = v.unwrapConst ∧
    ∀ s, (names.foldr .const v).coerce s = v.coerce s
  signed_iff : (∃ n, v.coerce .signedInteger = .ok n) ↔
    v.unwrapConst.kind = .sint ∨ v.unwrapConst.kind = .uint
  unsigned_iff : (∃ n, v.coerce .unsignedInteger = .ok n) ↔ v.unwrapConst.kind = .uint
  double_iff : (∃ x, v.coerce .double = .ok x) ↔ v.unwrapConst.kind = .float
  buffer_iff : (∃ bytes?, v.coerce .buffer = .ok bytes?) ↔
    v.unwrapConst.kind = .blob ∨ v.unwrapConst.kind = .null
  /-- A failure names the shape that was asked for and the kind under the constants. -/
  error_eq : ∀ s e, v.coerce s = .error e →
    e.shape = s ∧ e.actual = v.unwrapConst.kind ∧ e.actual ≠ .const
  sint : ∀ n, v.unwrapConst = .sint n → v.coerce .signedInteger = .ok n
  /-- As a signed integer, an unsigned one is the only integer of the signed range that is
  congruent to it. -/
  uint : ∀ u, v.unwrapConst = .uint u → v.coerce .unsignedInteger = .ok u ∧
    ∃ n, v.coerce .signedInteger = .ok n ∧
      ∀ i : Int, (-0x8000000000000000 ≤ i ∧ i < 0x8000000000000000 ∧
        (0x10000000000000000 : Int) ∣ i - u.toNat) ↔ i = n.toInt
  float : ∀ x, v.unwrapConst = .float x → v.coerce .double = .ok x
  /-- An empty blob is a buffer like any other. -/
  blob : ∀ bytes, v.unwrapConst = .blob bytes → v.coerce .buffer = .ok (some bytes)
  null : v.unwrapConst = .null → v.coerce .buffer = .ok none

theorem readsByKind (v : Value) : v.ReadsByKind where
  kind_ne := v.kind_unwrapConst_ne
  unwrapConst_eq := v.unwrapConst_unwrapConst
  wrapped names := by
    have hsame := unwrapConst_foldr_const names v
    exact ⟨hsame, fun s => (coerce_of_unwrapConst_eq hsame s).trans (coerce_unwrapConst s v)⟩
  signed_iff := (exists_coerce_eq_ok_iff _ v).trans (Shape.accepts_signedInteger_iff _)
  unsigned_iff := (exists_coerce_eq_ok_iff _ v).trans (Shape.accepts_unsignedInteger_iff _)
  double_iff := (exists_coerce_eq_ok_iff _ v).trans (Shape.accepts_double_iff _)
  buffer_iff := (exists_coerce_eq_ok_iff _ v).trans (Shape.accepts_buffer_iff _)
  error_eq s e h := by
    obtain rfl := eq_of_coerce_eq_error h
    exact ⟨rfl, rfl, v.kind_unwrapConst_ne⟩
  sint _ h := coerce_of_unwrapConst_eq h _
  uint u h :=
    ⟨coerce_of_unwrapConst_eq h _, u.toInt64, coerce_of_unwrapConst_eq h _, toInt_toInt64_iff u⟩
  float _ h := coerce_of_unwrapConst_eq h _
  blob _ h := coerce_of_unwrapConst_eq h _
  null h := coerce_of_unwrapConst_eq h _

/-! ## The three ways of reading -/

/-- Conversions and demands are readings. -/
structure FamiliesAgree (v : Value) : Prop where
  toInt64 : (fromValue v : Except CoerceError Int64) = v.coerce .signedInteger
  toUInt64 : (fromValue v : Except CoerceError UInt64) = v.coerce .unsignedInteger
  toDouble : (fromValue v : Except CoerceError Double) = v.coerce .double
  /-- A demand that is met gives what the reading gives, and leaves no entry. -/
  demand_ok : ∀ s a, v.coerce s = .ok a →
    (v.demand s).result = .ok a ∧ (v.demand s).entries = []
  /-- A demand that is not met stops with the detailed text of the error, and leaves one entry,
  an error with the message, the code and the kind under the constants. -/
  demand_error : ∀ s e, v.coerce s = .error e →
    (v.demand s).result = .error e.detail ∧
      ∃ event, (v.demand s).entries = [.event event] ∧
        event.record =
          { level := .error
            target := "trace_model::coerce"
            text := e.message
            fields := [("code", s.code), ("actual", v.unwrapConst.kind.description)] }

theorem familiesAgree (v : Value) : v.FamiliesAgree where
  toInt64 := rfl
  toUInt64 := rfl
  toDouble := rfl
  demand_ok s a h := by
    rw [demand, h]
    exact ⟨rfl, rfl⟩
  demand_error s e h := by
    obtain rfl := eq_of_coerce_eq_error h
    rw [demand, h]
    exact ⟨rfl, _, rfl, rfl⟩

/-- **The coercion contract.**  For every value, what lies under its constants decides every
reading, and the three ways of reading agree. -/
theorem coercion_contract (v : Value) : v.ReadsByKind ∧ v.FamiliesAgree :=
  ⟨v.readsByKind, v.familiesAgree⟩

/-- The least unsigned integer that is negative as a signed one, under two constants. -/
example :
    (Value.const "A" (.const "B" (.uint 0x8000000000000000))).coerce .signedInteger =
      .ok (-0x8000000000000000) := by
  rfl

end Value

end CallCapture
