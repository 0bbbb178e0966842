import CallCapture.Dump
import CallCapture.Proofs.Sink.Delivery
import CallCapture.Proofs.Utf8.Validation

/-!
# Strings round by round

Between its quotes a string is written in rounds.  A round validates what is left; it writes
the characters before the first fault, escapes the bytes at fault, and leaves the bytes after
them to the next round.  Without a fault it writes the characters and is the last.

`Utf8.escaped` has the pieces of all rounds at once, and its cuts are total: a position past
the end cuts off nothing.  Here nothing is taken for granted.  To cut outside the bytes is an
error, the bytes before a fault are validated again and may turn out malformed, and there is a
next round for as long as there are faults.

* `Dump.round` --- one round, which writes into a sink and may meet an `Obstacle`.
* `Dump.Stage`, `Dump.Stage.run` --- where the rounds stand, and where they stand later.

No check of a round ever fails, because every fault can be relied on (`Utf8.Fault.reliable`), so a
round does nothing but write its pieces (`Dump.round_of_validate_ok`,
`Dump.round_of_validate_error`).  And no round leaves the bytes as they are, because some byte is
at fault.

What a single round keeps (`Dump.Stage.shorter_of_next`, `Dump.Stage.obstacle_of_next`) carries
over to any number of them: what is left is a suffix of the bytes, shorter by at least one byte
for each round (`Dump.Stage.shorter_of_run`), and only the sink can stop the rounds
(`Dump.Stage.obstacle_of_run`).  They are over after one round for each byte and one more, and
have then done what writing `Utf8.escaped` does (`Dump.Stage.run_of_length_lt`).
-/

namespace CallCapture

/-- The bytes before a position and those from it on, if it does not lie outside. -/
def Utf8.splitAt? (bytes : List UInt8) (position : Nat) : Option (List UInt8 × List UInt8) :=
  if position ≤ bytes.length then some (bytes.splitAt position) else none

theorem Utf8.splitAt?_of_le {bytes : List UInt8} {position : Nat} (h : position ≤ bytes.length) :
    splitAt? bytes position = some (bytes.take position, bytes.drop position) := by
  rw [splitAt?, if_pos h, List.splitAt_eq]

namespace Dump

/-- What can stop a round. -/
inductive Obstacle where
  /-- The sink refused a piece. -/
  | refused
  /-- The bytes before a fault are not well formed. -/
  | malformed
  /-- A cut lies outside the bytes. -/
  | outOfRange
  deriving DecidableEq

/-- Actions that write into a sink with states `σ` and end at the first obstacle. -/
abbrev Checked (σ : Type) (α : Type) : Type :=
  ExceptT Obstacle (StateM σ) α

/-- Runs an action from a state of the sink: how it ended, and the state it left. -/
def Checked.startFrom {σ α : Type} (w : Checked σ α) (s : σ) : Except Obstacle α × σ :=
  (ExceptT.run w).run s

/-- An action whose only obstacle is that the sink refuses. -/
def unobstructed {σ α : Type} (w : Writing σ α) : Checked σ α :=
  ExceptT.adapt (fun _ => .refused) w

/-- What is there, or else an obstacle. -/
def need {σ α : Type} (obstacle : Obstacle) : Option α → Checked σ α
  | some a => pure a
  | none => throw obstacle

theorem need_some {σ α : Type} (obstacle : Obstacle) (a : α) :
    (need obstacle (some a) : Checked σ α) = pure a := rfl

variable {σ : Type}

/-- Writes the characters before the first fault, escapes the bytes at fault, and gives the
bytes that are left; `none` if there is no fault. -/
def round (k : Sink σ) (bytes : List UInt8) : Checked σ (Option (List UInt8)) :=
  match Utf8.validate bytes with
  | .ok text => do
    unobstructed (k.write (.ofList text))
    pure none
  | .error fault => do
    let (valid, after) ← need .outOfRange (Utf8.splitAt? bytes fault.validUpTo)
    let text ← need .malformed (Utf8.validate valid).toOption
    unobstructed (k.write (.ofList text))
    let (bad, rest) ← need .outOfRange (Utf8.splitAt? after (fault.length?.getD after.length))
    unobstructed (k.writeAll (bad.map Utf8.escape))
    pure (some rest)

/-- Where the rounds stand, and the state of the sink. -/
inductive Stage (σ : Type) where
  /-- A round begins, with these bytes left. -/
  | before (rest : List UInt8) (s : σ)
  /-- The rounds are over. -/
  | ended (outcome : Except Obstacle Unit) (s : σ)

namespace Stage

/-- One round on. -/
def next (k : Sink σ) : Stage σ → Stage σ
  | .before bytes s =>
    match (round k bytes).startFrom s with
    | (.ok (some rest), t) => .before rest t
    | (.ok none, t) => .ended (.ok ()) t
    | (.error obstacle, t) => .ended (.error obstacle) t
  | .ended outcome s => .ended outcome s

/-- A number of rounds on. -/
def run (k : Sink σ) : Nat → Stage σ → Stage σ
  | 0, stage => stage
  | n + 1, stage => (run k n stage).next k

/-- The end of rounds that did what the action did. -/
def ofWriting : Except Refused Unit × σ → Stage σ
  | (.ok _, s) => .ended (.ok ()) s
  | (.error _, s) => .ended (.error .refused) s

end Stage

variable {α β : Type}

/-! ## Actions that only the sink can stop -/

theorem startFrom_unobstructed (w : Writing σ α) (s : σ) :
    (unobstructed w).startFrom s =
      match w.startFrom s with
      | (.ok a, t) => (.ok a, t)
      | (.error _, t) => (.error .refused, t) := by
  show (match ExceptT.run w s with
    | (outcome, t) => (outcome.mapError fun _ => Obstacle.refused, t)) = _
  simp only [Writing.startFrom, StateT.run]
  rcases ExceptT.run w s with ⟨_ | _, _⟩ <;> rfl

theorem unobstructed_pure (a : α) : unobstructed (pure a : Writing σ α) = pure a := rfl

/-- Two actions that only the sink can stop are one. -/
theorem unobstructed_bind (w : Writing σ α) (g : α → Writing σ β) :
    unobstructed (w >>= g) = (unobstructed w >>= fun a => unobstructed (g a)) := by
  refine ExceptT.ext ?_
  simp only [unobstructed, ExceptT.run_adapt, ExceptT.run_bind, map_bind, bind_map_left]
  refine bind_congr fun outcome => ?_
  cases outcome with
  | ok a => rfl
  | error e => exact map_pure _ _

/-! ## One round -/

/-- The pieces that a round writes at a fault. -/
def roundPieces (bytes : List UInt8) (f : Utf8.Fault) : List String :=
  .ofList f.text :: ((bytes.drop f.validUpTo).take (f.size bytes)).map Utf8.escape

/-- The bytes that a round leaves at a fault. -/
def roundRest (bytes : List UInt8) (f : Utf8.Fault) : List UInt8 :=
  (bytes.drop f.validUpTo).drop (f.size bytes)

theorem roundRest_suffix (bytes : List UInt8) (f : Utf8.Fault) : roundRest bytes f <:+ bytes :=
  (List.drop_suffix _ _).trans (List.drop_suffix _ _)

/-- Without a fault a round writes the text and is the last. -/
theorem round_of_validate_ok (k : Sink σ) {bytes : List UInt8} {text : List Char}
    (h : Utf8.validate bytes = .ok text) :
    round k bytes = unobstructed (do k.writeAll [.ofList text]; pure none) := by
  rw [round, h, unobstructed_bind, unobstructed_pure, Sink.writeAll_singleton]

/-- **At a fault nothing but the sink stops a round**: both cuts lie inside the bytes, and what
is before the fault validates. -/
theorem round_of_validate_error (k : Sink σ) {bytes : List UInt8} {f : Utf8.Fault}
    (h : Utf8.validate bytes = .error f) :
    round k bytes =
      unobstructed (do k.writeAll (roundPieces bytes f); pure (some (roundRest bytes f))) := by
  have hf := Utf8.Fault.reliable h
  have hsize : f.length?.getD (bytes.drop f.validUpTo).length = f.size bytes := by
    rw [List.length_drop, Utf8.Fault.size]
  -- the checks pass in the order in which they are made
  rw [round, h]
  dsimp only
  rw [Utf8.splitAt?_of_le hf.validUpTo_le, need_some, pure_bind]
  dsimp only
  rw [hf.validate_take, hsize, Utf8.splitAt?_of_le hf.size_le, roundPieces, Sink.writeAll_cons]
  simp only [Except.toOption, need_some, pure_bind, bind_assoc, unobstructed_bind,
    unobstructed_pure]
  rfl

namespace Stage

variable {k : Sink σ} {bytes rest : List UInt8} {s t : σ}

/-- What follows a last round. -/
theorem next_of_validate_ok (k : Sink σ) {text : List Char} (h : Utf8.validate bytes = .ok text)
    (s : σ) :
    (Stage.before bytes s).next k = .ofWriting ((k.writeAll [.ofList text]).startFrom s) := by
  rw [next, round_of_validate_ok k h, startFrom_unobstructed, Writing.startFrom_bind]
  rcases (k.writeAll [.ofList text]).startFrom s with ⟨_ | _, t⟩ <;> rfl

/-- What follows a round with a fault. -/
theorem next_of_validate_error (k : Sink σ) {f : Utf8.Fault} (h : Utf8.validate bytes = .error f)
    (s : σ) :
    (Stage.before bytes s).next k =
      match (k.writeAll (roundPieces bytes f)).startFrom s with
      | (.ok _, t) => .before (roundRest bytes f) t
      | (.error _, t) => .ended (.error .refused) t := by
  rw [next, round_of_validate_error k h, startFrom_unobstructed, Writing.startFrom_bind]
  rcases (k.writeAll (roundPieces bytes f)).startFrom s with ⟨_ | _, t⟩ <;> rfl

/-- **What a round can come to**: an end without a fault, the bytes after a fault, or a refusal
by the sink. -/
theorem next_cases (k : Sink σ) (bytes : List UInt8) (s : σ) :
    (∃ text t, Utf8.validate bytes = .ok text ∧
      (Stage.before bytes s).next k = .ended (.ok ()) t) ∨
    (∃ f t, Utf8.validate bytes = .error f ∧
      (Stage.before bytes s).next k = .before (roundRest bytes f) t) ∨
    (∃ t, (Stage.before bytes s).next k = .ended (.error .refused) t) := by
  cases h : Utf8.validate bytes with
  | ok text =>
    rw [next_of_validate_ok k h]
    rcases (k.writeAll [.ofList text]).startFrom s with ⟨_ | _, t⟩
    · exact Or.inr (Or.inr ⟨t, rfl⟩)
    · exact Or.inl ⟨text, t, rfl, rfl⟩
  | error f =>
    rw [next_of_validate_error k h]
    rcases (k.writeAll (roundPieces bytes f)).startFrom s with ⟨_ | _, t⟩
    · exact Or.inr (Or.inr ⟨t, rfl⟩)
    · exact Or.inr (Or.inl ⟨f, t, rfl, rfl⟩)

/-- **A round that is not the last leaves fewer bytes**, the last ones of those there were. -/
theorem shorter_of_next (h : (Stage.before bytes s).next k = .before rest t) :
    rest <:+ bytes ∧ rest.length < bytes.length := by
  rcases next_cases k bytes s with ⟨text, t', -, hnext⟩ | ⟨f, t', hf, hnext⟩ | ⟨t', hnext⟩
  · cases hnext.symm.trans h
  · cases hnext.symm.trans h
    exact ⟨roundRest_suffix bytes f, Utf8.Fault.length_drop_lt hf⟩
  · cases hnext.symm.trans h

/-- **Only the sink stops a round.** -/
theorem obstacle_of_next {obstacle : Obstacle}
    (h : (Stage.before bytes s).next k = .ended (.error obstacle) t) : obstacle = .refused := by
  rcases next_cases k bytes s with ⟨text, t', -, hnext⟩ | ⟨f, t', -, hnext⟩ | ⟨t', hnext⟩
  · cases hnext.symm.trans h
  · cases hnext.symm.trans h
  · cases hnext.symm.trans h
    rfl

/-! ## Any number of rounds -/

/-- Rounds that are over stay as they ended. -/
theorem run_ended (k : Sink σ) (n : Nat) (outcome : Except Obstacle Unit) (s : σ) :
    run k n (.ended outcome s) = .ended outcome s := by
  induction n with
  | zero => rfl
  | succ n ih => rw [run, ih, next]

theorem run_ofWriting (k : Sink σ) (n : Nat) (r : Except Refused Unit × σ) :
    run k n (.ofWriting r) = .ofWriting r := by
  rcases r with ⟨_ | _, s⟩
  · exact run_ended k n _ s
  · exact run_ended k n _ s

theorem run_succ_next (k : Sink σ) (n : Nat) (stage : Stage σ) :
    run k (n + 1) stage = run k n (stage.next k) := by
  induction n with
  | zero => rfl
  | succ n ih => rw [run, ih, run]

/-- **What is left is a suffix of the bytes**, and shorter by at least one byte for each
round. -/
theorem shorter_of_run {n : Nat} (h : run k n (.before bytes s) = .before rest t) :
    rest <:+ bytes ∧ rest.length + n ≤ bytes.length := by
  induction n generalizing rest t with
  | zero =>
    cases h
    exact ⟨List.suffix_refl _, Nat.le_refl _⟩
  | succ n ih =>
    rw [run] at h
    cases hn : run k n (.before bytes s) with
    | before rest' t' =>
      rw [hn] at h
      obtain ⟨hsuffix, hlength⟩ := ih hn
      obtain ⟨hsuffix', hlength'⟩ := shorter_of_next h
      exact ⟨hsuffix'.trans hsuffix, by omega⟩
    | ended outcome t' =>
      rw [hn, next] at h
      cases h

/-- **Only the sink stops the rounds.** -/
theorem obstacle_of_run {n : Nat} {obstacle : Obstacle}
    (h : run k n (.before bytes s) = .ended (.error obstacle) t) : obstacle = .refused := by
  induction n generalizing t with
  | zero => cases h
  | succ n ih =>
    rw [run] at h
    cases hn : run k n (.before bytes s) with
    | before rest' t' =>
      rw [hn] at h
      exact obstacle_of_next h
    | ended outcome t' =>
      rw [hn, next] at h
      cases h
      exact ih hn

/-- **More rounds than bytes are enough**, and they do what writing all pieces does. -/
theorem run_of_length_lt (k : Sink σ) (bytes : List UInt8) (s : σ) {n : Nat}
    (hn : bytes.length < n) :
    run k n (.before bytes s) = .ofWriting ((k.writeAll (Utf8.escaped bytes)).startFrom s) := by
  obtain ⟨n, rfl⟩ := Nat.exists_eq_add_one_of_ne_zero (Nat.ne_zero_of_lt hn)
  fun_induction Utf8.escaped bytes generalizing n s with
  | case1 bytes text h => rw [run_succ_next, next_of_validate_ok k h, run_ofWriting]
  | case2 bytes f h bad rest ih =>
    have hshorter : rest.length < bytes.length := Utf8.Fault.length_drop_lt h
    have hpieces : .ofList f.text :: bad.map Utf8.escape = roundPieces bytes f := rfl
    rw [run_succ_next, next_of_validate_error k h, hpieces, Sink.writeAll_append,
      Writing.startFrom_bind]
    rcases (k.writeAll (roundPieces bytes f)).startFrom s with ⟨_ | _, t⟩
    · exact run_ended k n _ t
    · -- the rounds that are left are more than the bytes that are left
      obtain ⟨n, rfl⟩ := Nat.exists_eq_add_one_of_ne_zero (n := n) (by omega)
      exact ih t n (by omega)

end Stage

/-! ## The rounds of a string -/

/-- The rounds that write a string into a sink, from a state of the sink on, are safe and come
to an end. -/
structure SafeRounds (bytes : List UInt8) (k : Sink σ) (s : σ) : Prop where
  /-- What is left when a round begins is a suffix of the string. -/
  suffix : ∀ n rest t, Stage.run k n (.before bytes s) = .before rest t → rest <:+ bytes
  /-- The fault that a round meets can be relied on. -/
  reliable : ∀ n rest t f, Stage.run k n (.before bytes s) = .before rest t →
    Utf8.validate rest = .error f → f.Reliable rest
  /-- A round leaves a shorter suffix to the next one. -/
  shorter : ∀ n rest t rest' t', Stage.run k n (.before bytes s) = .before rest t →
    Stage.run k (n + 1) (.before bytes s) = .before rest' t' →
    rest' <:+ rest ∧ rest'.length < rest.length
  /-- Only the sink stops the rounds: no cut is out of range, and nothing that is written is
  malformed. -/
  only_refused : ∀ n obstacle t, Stage.run k n (.before bytes s) = .ended (.error obstacle) t →
    obstacle = .refused
  /-- No round begins after one for each byte and one more. -/
  bounded : ∀ n rest t, Stage.run k n (.before bytes s) = .before rest t → n < bytes.length + 1
  /-- By then the rounds are over, and have done what writing the escaped pieces does. -/
  ended : Stage.run k (bytes.length + 1) (.before bytes s) =
    .ofWriting ((k.writeAll (Utf8.escaped bytes)).startFrom s)
  /-- These pieces, between quotes, are the dump of the string. -/
  between_quotes : ∀ o : Options, value k o (.str bytes) =
    (do k.write "\""; k.writeAll (Utf8.escaped bytes); k.write "\"")

/-- **The rounds of every string are safe and come to an end**, whatever the sink. -/
theorem str_rounds_safe (bytes : List UInt8) (k : Sink σ) (s : σ) : SafeRounds bytes k s where
  suffix := by
    intro n rest t h
    exact (Stage.shorter_of_run h).1
  reliable := by
    intro n rest t f _ hf
    exact Utf8.Fault.reliable hf
  shorter := by
    intro n rest t rest' t' h h'
    rw [Stage.run, h] at h'
    exact Stage.shorter_of_next h'
  only_refused := by
    intro n obstacle t h
    exact Stage.obstacle_of_run h
  bounded := by
    intro n rest t h
    have hlength := (Stage.shorter_of_run h).2
    omega
  ended := Stage.run_of_length_lt k bytes s (Nat.lt_succ_self _)
  between_quotes := fun _ => rfl

/-- After a byte that no encoding has, the round for an encoding that breaks off at the end of the
input: the fault has no length of its own, and both bytes are at fault. -/
theorem str_rounds_safe_broken_off :
    Stage.run .text 1 (.before [0xFF, 0xE2, 0x82] "") = .before [0xE2, 0x82] "\\xff" ∧
      Utf8.validate [0xE2, 0x82] = .error ⟨[], 0, none⟩ ∧
      Utf8.Fault.Reliable ⟨[], 0, none⟩ [0xE2, 0x82] ∧
      ([0xE2, 0x82] : List UInt8) <:+ [0xFF, 0xE2, 0x82] := by
  have hinvalid : Utf8.validate [0xFF, 0xE2, 0x82] = .error ⟨[], 0, some 1⟩ := by
    rw [Utf8.validate]
    rfl
  have hbroken : Utf8.validate [0xE2, 0x82] = .error ⟨[], 0, none⟩ := by
    rw [Utf8.validate]
    rfl
  have hrun : Stage.run .text 1 (.before [0xFF, 0xE2, 0x82] "") =
      .before [0xE2, 0x82] "\\xff" := by
    rw [Stage.run, Stage.run, Stage.next_of_validate_error _ hinvalid]
    rfl
  have hsafe := str_rounds_safe [0xFF, 0xE2, 0x82] Sink.text ""
  exact ⟨hrun, hbroken, hsafe.reliable _ _ _ _ hrun hbroken, hsafe.suffix _ _ _ hrun⟩

end Dump

end CallCapture
