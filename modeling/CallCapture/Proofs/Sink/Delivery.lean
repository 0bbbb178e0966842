import CallCapture.Sink

/-!
# Delivering pieces to a sink

What reaches a sink when pieces are written in order and the writing ends at the first
refusal.  The sink is arbitrary, so what it was offered cannot be read off its state; a
sink that keeps a record beside the state of another one makes the offers visible.

* `Sink.recording` --- the same sink with a record of every offer and its answer, and
  `Delivery` --- what the record shows: the pieces in order, all but the last accepted.
* `Chunking`, `Sink.chunked` --- a piece may be handed over in chunks of any size, as when
  a number is written sign first.  Writing pieces through a chunking is writing the chunks
  (`Sink.startFrom_writeAll_chunked`), so what holds of all sinks holds of every chunking.
  `CutUp` says that some chunks are pieces that were cut, and `CutUp.exists_chunking` that there
  is a chunking that cuts them so.
* `Sink.startFrom_writeAll_text` --- the sink that keeps everything;
  `Sink.startFrom_writeAll_limited_of_le`, `Sink.startFrom_writeAll_limited_of_lt` --- the
  one with limited room, for texts that fit and texts that do not.
-/

namespace CallCapture

/-- A single piece spells itself. -/
theorem join_single (piece : String) : String.join [piece] = piece :=
  String.join_cons.trans String.append_empty

namespace Sink

variable {σ : Type}

/-! ## Pieces in order -/

@[simp] theorem writeAll_nil (k : Sink σ) : k.writeAll [] = pure () := rfl

theorem writeAll_cons (k : Sink σ) (piece : String) (pieces : List String) :
    k.writeAll (piece :: pieces) = (do k.write piece; k.writeAll pieces) := rfl

theorem writeAll_singleton (k : Sink σ) (piece : String) : k.writeAll [piece] = k.write piece := by
  rw [writeAll_cons, writeAll_nil]
  exact bind_pure (k.write piece)

theorem writeAll_append (k : Sink σ) (pieces more : List String) :
    k.writeAll (pieces ++ more) = (do k.writeAll pieces; k.writeAll more) := by
  induction pieces with
  | nil => rw [List.nil_append, writeAll_nil, pure_bind]
  | cons piece pieces ih => rw [List.cons_append, writeAll_cons, writeAll_cons, ih, bind_assoc]

/-- The pieces after an accepted one are written from the state it left. -/
theorem startFrom_writeAll_of_accepted {k : Sink σ} {s t : σ} {piece : String}
    (h : k.offer s piece = (true, t)) (pieces : List String) :
    (k.writeAll (piece :: pieces)).startFrom s = (k.writeAll pieces).startFrom t := by
  rw [writeAll_cons, Writing.startFrom_bind, startFrom_write, h]

/-- The pieces after a refused one are not written. -/
theorem startFrom_writeAll_of_refused {k : Sink σ} {s t : σ} {piece : String}
    (h : k.offer s piece = (false, t)) (pieces : List String) :
    (k.writeAll (piece :: pieces)).startFrom s = (.error .refused, t) := by
  rw [writeAll_cons, Writing.startFrom_bind, startFrom_write, h]

/-! ## The record of offers -/

/-- The same sink, with a record of every piece it was offered and of its answer. -/
def recording (k : Sink σ) : Sink (σ × List (String × Bool)) where
  offer s piece :=
    let answer := k.offer s.1 piece
    (answer.1, answer.2, s.2 ++ [(piece, answer.1)])

theorem offer_recording {k : Sink σ} {s t : σ} {piece : String} {accepted : Bool}
    (h : k.offer s piece = (accepted, t)) (seen : List (String × Bool)) :
    k.recording.offer (s, seen) piece = (accepted, t, seen ++ [(piece, accepted)]) := by
  show ((k.offer s piece).1, (k.offer s piece).2, seen ++ [(piece, (k.offer s piece).1)]) = _
  rw [h]

end Sink

/-- What the record of the offers shows when the chunks were written in order up to the
first refusal, with a given outcome. -/
structure Delivery (chunks : List String) (offers : List (String × Bool))
    (outcome : Except Refused Unit) : Prop where
  /-- The chunks were offered in order, from the first on. -/
  in_order : offers.map Prod.fst <+: chunks
  /-- Nothing was offered after a refusal. -/
  accepted_before : ∀ offer ∈ offers.dropLast, offer.2 = true
  /-- The outcome is an error exactly when an offer was refused. -/
  refused_iff : outcome = .error .refused ↔ ∃ offer ∈ offers, offer.2 = false
  /-- Without an error, all chunks were offered. -/
  complete : outcome = .ok () → offers.map Prod.fst = chunks

namespace Delivery

theorem nil : Delivery [] [] (.ok ()) where
  in_order := List.nil_prefix
  accepted_before := by simp
  refused_iff := by simp
  complete _ := rfl

/-- A refused chunk is the last one offered. -/
theorem refused (chunk : String) (chunks : List String) :
    Delivery (chunk :: chunks) [(chunk, false)] (.error .refused) where
  in_order := by simp
  accepted_before := by simp
  refused_iff := by simp
  complete h := by cases h

/-- After an accepted chunk the delivery goes on with the others. -/
theorem accepted (chunk : String) {chunks : List String} {offers : List (String × Bool)}
    {outcome : Except Refused Unit} (h : Delivery chunks offers outcome) :
    Delivery (chunk :: chunks) ((chunk, true) :: offers) outcome where
  in_order := by
    rw [List.map_cons]
    exact List.cons_prefix_cons.2 ⟨rfl, h.in_order⟩
  accepted_before := by
    intro offer hoffer
    cases offers with
    | nil => simp at hoffer
    | cons first rest =>
      rw [List.dropLast_cons_cons, List.mem_cons] at hoffer
      rcases hoffer with rfl | hoffer
      · rfl
      · exact h.accepted_before offer hoffer
  refused_iff := by
    rw [h.refused_iff]
    simp
  complete hok := by rw [List.map_cons, h.complete hok]

end Delivery

namespace Sink

variable {σ : Type}

/-- **Writing stops at the first refusal.**  Recording changes neither the outcome nor the
state of the sink, and the record is that of a delivery. -/
theorem startFrom_writeAll_recording (k : Sink σ) (chunks : List String) (s : σ)
    (seen : List (String × Bool)) :
    ∃ offers, (k.recording.writeAll chunks).startFrom (s, seen) =
        (((k.writeAll chunks).startFrom s).1, ((k.writeAll chunks).startFrom s).2,
          seen ++ offers) ∧
      Delivery chunks offers ((k.writeAll chunks).startFrom s).1 := by
  induction chunks generalizing s seen with
  | nil => exact ⟨[], by rw [List.append_nil]; rfl, .nil⟩
  | cons chunk chunks ih =>
    rcases hoffer : k.offer s chunk with ⟨accepted, t⟩
    cases accepted with
    | true =>
      obtain ⟨offers, hrun, hd⟩ := ih t (seen ++ [(chunk, true)])
      rw [startFrom_writeAll_of_accepted (offer_recording hoffer seen),
        startFrom_writeAll_of_accepted hoffer, hrun, List.append_assoc]
      exact ⟨_, rfl, hd.accepted chunk⟩
    | false =>
      rw [startFrom_writeAll_of_refused (offer_recording hoffer seen),
        startFrom_writeAll_of_refused hoffer]
      exact ⟨_, rfl, .refused chunk chunks⟩

end Sink

/-! ## Chunks -/

/-- A way of handing the pieces of a text over in chunks.  How a piece is cut may depend on
how many pieces came before it, so that a number and a name may be cut differently even if
they are spelled alike. -/
structure Chunking where
  chunks : Nat → String → List String
  join_chunks : ∀ before piece, String.join (chunks before piece) = piece

namespace Chunking

/-- The chunks of pieces that come after `before` others. -/
def allChunks (h : Chunking) : Nat → List String → List String
  | _, [] => []
  | before, piece :: pieces => h.chunks before piece ++ allChunks h (before + 1) pieces

/-- Chunks of the pieces of a text spell the text. -/
theorem join_allChunks (h : Chunking) (before : Nat) (pieces : List String) :
    String.join (h.allChunks before pieces) = String.join pieces := by
  induction pieces generalizing before with
  | nil => rfl
  | cons piece pieces ih =>
    rw [allChunks, String.join_append, h.join_chunks, ih, String.join_cons]

/-- The chunking that is given by the cuts of the pieces, in order.  A piece that is not the one
that the cut in its place spells is handed over whole. -/
def ofCuts (cuts : List (List String)) : Chunking where
  chunks before piece :=
    match cuts[before]? with
    | some cut => if String.join cut = piece then cut else [piece]
    | none => [piece]
  join_chunks := by
    intro before piece
    split
    · split
      · assumption
      · exact join_single _
    · exact join_single _

/-- The pieces behind some others are cut as given, wherever the cuts begin. -/
theorem allChunks_ofCuts_append (past cuts : List (List String)) :
    (ofCuts (past ++ cuts)).allChunks past.length (cuts.map String.join) = cuts.flatten := by
  induction cuts generalizing past with
  | nil => rfl
  | cons cut cuts ih =>
    have hcut : (ofCuts (past ++ cut :: cuts)).chunks past.length (String.join cut) = cut := by
      simp [ofCuts]
    have hrest := ih (past ++ [cut])
    rw [List.append_assoc, List.singleton_append, List.length_append,
      List.length_singleton] at hrest
    rw [List.map_cons, allChunks, hcut, hrest, List.flatten_cons]

end Chunking

/-- The chunks are those of the pieces when each piece is cut into chunks that spell it. -/
def CutUp (chunks pieces : List String) : Prop :=
  ∃ cuts : List (List String), pieces = cuts.map String.join ∧ chunks = cuts.flatten

namespace CutUp

theorem append {chunks chunks' pieces pieces' : List String} (h : CutUp chunks pieces)
    (h' : CutUp chunks' pieces') : CutUp (chunks ++ chunks') (pieces ++ pieces') := by
  obtain ⟨cuts, rfl, rfl⟩ := h
  obtain ⟨cuts', rfl, rfl⟩ := h'
  exact ⟨cuts ++ cuts', List.map_append.symm, List.flatten_append.symm⟩

theorem piece {cut : List String} {piece : String} (h : String.join cut = piece) :
    CutUp cut [piece] :=
  ⟨[cut], by rw [List.map_singleton, h], by rw [List.flatten_singleton]⟩

/-- Pieces that are handed over whole. -/
theorem refl (pieces : List String) : CutUp pieces pieces := by
  induction pieces with
  | nil => exact ⟨[], rfl, rfl⟩
  | cons first pieces ih => exact (piece (join_single first)).append ih

theorem cons (first : String) {chunks pieces : List String} (h : CutUp chunks pieces) :
    CutUp (first :: chunks) (first :: pieces) :=
  (refl [first]).append h

/-- **Cut pieces come from a chunking**, whatever the cuts. -/
theorem exists_chunking {chunks pieces : List String} (h : CutUp chunks pieces) :
    ∃ c : Chunking, c.allChunks 0 pieces = chunks := by
  obtain ⟨cuts, rfl, rfl⟩ := h
  exact ⟨.ofCuts cuts, Chunking.allChunks_ofCuts_append [] cuts⟩

end CutUp

namespace Sink

variable {σ : Type}

/-- The sink as it is seen by a writer whose pieces are handed over in chunks: a piece is
refused at its first chunk that is refused.  The pieces are counted beside the state. -/
def chunked (k : Sink σ) (h : Chunking) : Sink (σ × Nat) where
  offer s piece :=
    match (k.writeAll (h.chunks s.2 piece)).startFrom s.1 with
    | (.ok _, t) => (true, t, s.2 + 1)
    | (.error _, t) => (false, t, s.2 + 1)

/-- Pieces written through a chunking are their chunks, written one by one, but for the
count. -/
theorem startFrom_writeAll_chunked (k : Sink σ) (h : Chunking) (pieces : List String) (s : σ)
    (before : Nat) :
    Prod.map id Prod.fst (((k.chunked h).writeAll pieces).startFrom (s, before)) =
      (k.writeAll (h.allChunks before pieces)).startFrom s := by
  induction pieces generalizing s before with
  | nil => rfl
  | cons piece pieces ih =>
    rw [Chunking.allChunks, writeAll_append, Writing.startFrom_bind]
    rcases hrun : (k.writeAll (h.chunks before piece)).startFrom s with ⟨⟨⟩ | ⟨⟩, t⟩
    · have hoffer : (k.chunked h).offer (s, before) piece = (false, t, before + 1) := by
        rw [chunked]
        dsimp only
        rw [hrun]
      rw [startFrom_writeAll_of_refused hoffer]
      rfl
    · have hoffer : (k.chunked h).offer (s, before) piece = (true, t, before + 1) := by
        rw [chunked]
        dsimp only
        rw [hrun]
      rw [startFrom_writeAll_of_accepted hoffer, ih]

/-! ## Two sinks -/

/-- The sink that keeps everything refuses nothing. -/
theorem startFrom_writeAll_text (pieces : List String) (s : String) :
    (text.writeAll pieces).startFrom s = (.ok (), s ++ String.join pieces) := by
  induction pieces generalizing s with
  | nil => rw [String.join_nil, String.append_empty]; rfl
  | cons piece pieces ih =>
    have hoffer : text.offer s piece = (true, s ++ piece) := rfl
    rw [startFrom_writeAll_of_accepted hoffer, ih, String.join_cons, String.append_assoc]

/-- A piece that fits is taken, and leaves less room. -/
theorem offer_limited_of_le {s : LimitedText} {piece : String} (h : piece.length ≤ s.room) :
    limited.offer s piece = (true, ⟨s.written ++ piece, s.room - piece.length⟩) :=
  if_pos h

/-- A piece that does not fit fills the room and is refused. -/
theorem offer_limited_of_lt {s : LimitedText} {piece : String} (h : s.room < piece.length) :
    limited.offer s piece = (false, ⟨s.written ++ .ofList (piece.toList.take s.room), 0⟩) :=
  if_neg (Nat.not_le.2 h)

/-- A text for which there is room is taken. -/
theorem startFrom_writeAll_limited_of_le (pieces : List String) (s : LimitedText)
    (h : (String.join pieces).length ≤ s.room) :
    (limited.writeAll pieces).startFrom s =
      (.ok (), ⟨s.written ++ String.join pieces, s.room - (String.join pieces).length⟩) := by
  induction pieces generalizing s with
  | nil => rw [String.join_nil, String.append_empty]; rfl
  | cons piece pieces ih =>
    rw [String.join_cons, String.length_append] at h
    have hfits : piece.length ≤ s.room := by omega
    have hrest : (String.join pieces).length ≤ s.room - piece.length := by omega
    rw [startFrom_writeAll_of_accepted (offer_limited_of_le hfits), ih _ hrest, String.join_cons,
      String.length_append, String.append_assoc, Nat.sub_sub]

/-- Of a text that does not fit, as much is taken as there is room for. -/
theorem startFrom_writeAll_limited_of_lt (pieces : List String) (s : LimitedText)
    (h : s.room < (String.join pieces).length) :
    (limited.writeAll pieces).startFrom s =
      (.error .refused, ⟨s.written ++ .ofList ((String.join pieces).toList.take s.room), 0⟩) := by
  induction pieces generalizing s with
  | nil => exact absurd h (Nat.not_lt_zero _)
  | cons piece pieces ih =>
    rw [String.join_cons, String.length_append] at h
    rw [String.join_cons, String.toList_append, List.take_append, String.length_toList]
    by_cases hfits : piece.length ≤ s.room
    · have hrest : s.room - piece.length < (String.join pieces).length := by omega
      have htake : piece.toList.take s.room = piece.toList :=
        List.take_of_length_le (by rwa [String.length_toList])
      rw [startFrom_writeAll_of_accepted (offer_limited_of_le hfits), ih _ hrest, htake,
        String.ofList_append, String.ofList_toList, String.append_assoc]
    · have hover : s.room < piece.length := Nat.not_le.1 hfits
      rw [startFrom_writeAll_of_refused (offer_limited_of_lt hover),
        Nat.sub_eq_zero_of_le (Nat.le_of_lt hover), List.take_zero, List.append_nil]

end Sink

end CallCapture
