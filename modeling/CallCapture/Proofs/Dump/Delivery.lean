import CallCapture.Proofs.Dump.Rendering

/-!
# Dumping into a sink that may refuse

A dump ends at the first refusal of its sink, wherever in the tree that happens: what the
sink was offered is a start of the chunks of the dump, and nothing follows a refusal, even
if the sink would accept again.  Since a dump writes its script (`Dump.value_eq_writeAll`),
this is what `Sink.startFrom_writeAll_recording` says of any list of chunks.

The texts of numbers and escapes may reach the sink in smaller chunks than the pieces of
the script.  How a text is cut is left open: what is said of the pieces is said again of
their chunks, for every `Chunking`.  That signs are written before digits and the marks of
escapes before theirs is one of them (`Dump.exists_chunking_pieces`).
-/

namespace CallCapture

namespace Dump

/-- A dump hands chunks to any sink up to the first refusal, and the chunks spell a text.
The dump is given as what it does to a sink from a state. -/
structure Delivered (dump : (σ : Type) → Sink σ → σ → Except Refused Unit × σ)
    (chunks : List String) (text : String) : Prop where
  /-- The chunks spell the text. -/
  spelled : String.join chunks = text
  /-- Recording the offers changes neither the outcome nor the state of the sink, and the
  record is that of a delivery of the chunks. -/
  stops : ∀ (σ : Type) (k : Sink σ) (s : σ), ∃ offers,
    dump (σ × List (String × Bool)) k.recording (s, []) =
        ((dump σ k s).1, (dump σ k s).2, offers) ∧
      Delivery chunks offers (dump σ k s).1
  /-- A sink with room for `limit` characters ends with the first `limit` characters. -/
  limited_written : ∀ limit : Nat,
    (dump LimitedText .limited ⟨"", limit⟩).2.written = .ofList (text.toList.take limit)
  /-- A sink with room for `limit` characters refuses exactly the longer texts. -/
  limited_ok_iff : ∀ limit : Nat,
    (dump LimitedText .limited ⟨"", limit⟩).1 = .ok () ↔ text.length ≤ limit
  /-- A string takes all of the text. -/
  unlimited : ∀ s : String, dump String .text s = (.ok (), s ++ text)

/-- Writing chunks in order delivers them. -/
theorem delivered_writeAll {dump : (σ : Type) → Sink σ → σ → Except Refused Unit × σ}
    {chunks : List String} {text : String}
    (hdump : ∀ (σ : Type) (k : Sink σ) (s : σ), dump σ k s = (k.writeAll chunks).startFrom s)
    (htext : String.join chunks = text) : Delivered dump chunks text where
  spelled := htext
  stops := by
    intro σ k s
    rw [hdump, hdump]
    exact k.startFrom_writeAll_recording chunks s []
  limited_written := by
    intro limit
    rw [hdump, ← htext]
    rcases Nat.lt_or_ge limit (String.join chunks).length with h | h
    · rw [Sink.startFrom_writeAll_limited_of_lt chunks ⟨"", limit⟩ h]
      exact String.empty_append
    · rw [Sink.startFrom_writeAll_limited_of_le chunks ⟨"", limit⟩ h]
      have hall : (String.join chunks).toList.take limit = (String.join chunks).toList :=
        List.take_of_length_le (by rwa [String.length_toList])
      rw [hall, String.ofList_toList]
      exact String.empty_append
  limited_ok_iff := by
    intro limit
    rw [hdump, ← htext]
    rcases Nat.lt_or_ge limit (String.join chunks).length with h | h
    · rw [Sink.startFrom_writeAll_limited_of_lt chunks ⟨"", limit⟩ h]
      exact ⟨fun hok => (nomatch hok), fun hle => absurd hle (Nat.not_le.2 h)⟩
    · rw [Sink.startFrom_writeAll_limited_of_le chunks ⟨"", limit⟩ h]
      exact ⟨fun _ => h, fun _ => rfl⟩
  unlimited := by
    intro s
    rw [hdump, Sink.startFrom_writeAll_text, htext]

/-- Writing pieces in order delivers them, and delivers their chunks if they are handed
over in chunks. -/
theorem delivered_chunked {dump : (σ : Type) → Sink σ → σ → Except Refused Unit × σ}
    {pieces : List String} {text : String}
    (hdump : ∀ (σ : Type) (k : Sink σ) (s : σ), dump σ k s = (k.writeAll pieces).startFrom s)
    (htext : String.join pieces = text) :
    Delivered dump pieces text ∧
      ∀ h : Chunking,
        Delivered (fun σ k s => Prod.map id Prod.fst (dump (σ × Nat) (k.chunked h) (s, 0)))
          (h.allChunks 0 pieces) text := by
  refine ⟨delivered_writeAll hdump htext, fun h => delivered_writeAll ?_ ?_⟩
  · intro σ k s
    rw [hdump, Sink.startFrom_writeAll_chunked]
  · rw [Chunking.join_allChunks, htext]

/-- **Dumps stop at the first refusal.**  A value and a call hand their pieces, which depend
on them and on the options only and spell the dump, to any sink in order, and stop at the
first one that is refused; they end with an error exactly if one was.  In particular a sink
with limited room ends with as much of the dump as there is room for, and the dump into a
string is never cut short.  The same holds of the chunks of the pieces, if each piece is
handed over in chunks, however it is cut. -/
theorem dump_delivered (o : Options) :
    (∀ v : Value,
      Delivered (fun _ k s => v.dumpInto k o s) (pieces o v) (v.dumpWith o) ∧
      ∀ h : Chunking,
        Delivered (fun _ k s => Prod.map id Prod.fst (v.dumpInto (k.chunked h) o (s, 0)))
          (h.allChunks 0 (pieces o v)) (v.dumpWith o)) ∧
    (∀ c : Call,
      Delivered (fun _ k s => (c.dumpInto k o s).result) (callPieces o c) (c.dumpWith o).result ∧
      ∀ h : Chunking,
        Delivered (fun _ k s => Prod.map id Prod.fst (c.dumpInto (k.chunked h) o (s, 0)).result)
          (h.allChunks 0 (callPieces o c)) (c.dumpWith o).result) := by
  constructor
  · intro v
    refine delivered_chunked ?_ ?_
    · intro σ k s
      rw [Value.dumpInto, value_eq_writeAll, pieces_eq_script]
    · rw [pieces_eq_script, dumpWith_eq_join_script]
  · intro c
    refine delivered_chunked ?_ ?_
    · intro σ k s
      show (call k o c).startFrom s = _
      rw [call_eq_writeAll, callPieces_eq_callScript]
    · rw [callPieces_eq_callScript, result_dumpWith_call]

/-! ## The chunks of numbers and escapes

Two sorts of pieces are written in parts: a number is its sign and then its digits, and an escape
is its mark and then the digits of the byte. -/

/-- The sign of a number, if it has one, and its digits. -/
def signFirst (number : String) : List String :=
  match number.toList with
  | '-' :: digits => ["-", .ofList digits]
  | _ => [number]

theorem join_signFirst (number : String) : String.join (signFirst number) = number := by
  unfold signFirst
  split
  · next digits h =>
    rw [String.join_cons, join_single, ← String.ofList_toList (s := number), h]
    exact String.ofList_append.symm
  · exact join_single number

/-- The mark of an escape and the digits of the byte. -/
def escapeChunks (b : UInt8) : List String :=
  ["\\x", .ofList (Utf8.hex b)]

/-- The text of a byte string in chunks. -/
def escapedChunks (bytes : List UInt8) : List String :=
  match _h : Utf8.validate bytes with
  | .ok text => [.ofList text]
  | .error fault =>
    let bad := (bytes.drop fault.validUpTo).take (fault.size bytes)
    let rest := (bytes.drop fault.validUpTo).drop (fault.size bytes)
    .ofList fault.text :: bad.flatMap escapeChunks ++ escapedChunks rest
termination_by bytes.length
decreasing_by exact Utf8.Fault.length_drop_lt _h

/-- The handlers that list the chunks of a value. -/
def chunkVisitor (o : Options) : Visitor (List String) :=
  { scriptVisitor o with
    sint := fun n => signFirst (intText n.toInt)
    float := fun x => signFirst (number.text x)
    str := fun bytes => "\"" :: (escapedChunks bytes ++ ["\""]) }

/-- The chunks of a value. -/
def chunks (o : Options) (v : Value) : List String :=
  v.visit (chunkVisitor o)

/-- The chunks of a call. -/
def callChunks (o : Options) (c : Call) : List String :=
  c.name :: "(" ::
    (itemsScript "" (c.args.map fun a => a.name :: " = " :: chunks o a.value) ++
      ")" :: ((c.ret?.map fun v => " = " :: chunks o v).getD [] ++ ["\n"]))

theorem cutUp_escapes (bad : List UInt8) :
    CutUp (bad.flatMap escapeChunks) (bad.map Utf8.escape) := by
  induction bad with
  | nil => exact .refl []
  | cons b bad ih =>
    have hescape : String.join (escapeChunks b) = Utf8.escape b := by
      rw [escapeChunks, String.join_cons, join_single]
      exact String.ofList_append.symm
    exact (CutUp.piece hescape).append ih

theorem cutUp_escaped (bytes : List UInt8) : CutUp (escapedChunks bytes) (Utf8.escaped bytes) := by
  fun_induction escapedChunks bytes with
  | case1 bytes text h =>
    rw [Utf8.escaped_of_ok h]
    exact .refl _
  | case2 bytes fault h bad rest ih =>
    rw [Utf8.escaped_of_error h]
    exact ((cutUp_escapes bad).cons (.ofList fault.text)).append ih

theorem cutUp_itemsScript {α : Type} {f g : α → List String} (as : List α)
    (h : ∀ a ∈ as, CutUp (f a) (g a)) (separator : String) :
    CutUp (itemsScript separator (as.map f)) (itemsScript separator (as.map g)) := by
  induction as generalizing separator with
  | nil => exact .refl []
  | cons a as ih =>
    obtain ⟨ha, has⟩ := List.forall_mem_cons.1 h
    exact (ha.append (ih has ", ")).cons separator

theorem cutUp_arrayScript {α : Type} {f g : α → List String} (o : Options) (as : List α)
    (h : ∀ a ∈ as, CutUp (f a) (g a)) :
    CutUp (arrayScript o (as.map f)) (arrayScript o (as.map g)) := by
  by_cases hone : as.length = 1
  · obtain ⟨a, rfl⟩ := List.length_eq_one_iff.1 hone
    exact (h a List.mem_cons_self).cons "&"
  · have hmap (f : α → List String) : (as.map f).length ≠ 1 := by rwa [List.length_map]
    have hmark : markScript o (as.map f) = markScript o (as.map g) := by
      have hsep (bs : List α) : separatorAfter "" (bs.map f) = separatorAfter "" (bs.map g) := by
        cases bs <;> rfl
      rw [markScript, markScript, List.length_map, List.length_map, ← List.map_take,
        ← List.map_take, hsep]
    rw [arrayScript_of_length_ne_one o (hmap f), arrayScript_of_length_ne_one o (hmap g), hmark,
      List.length_map, List.length_map, ← List.map_take, ← List.map_take]
    have hitems := cutUp_itemsScript (as.take (o.shown as.length))
      (fun a ha => h a (List.mem_of_mem_take ha)) ""
    exact ((hitems.append (.refl _)).append (.refl ["\x7d"])).cons "\x7b"

/-- The chunks of a value are its pieces, cut up. -/
theorem cutUp_script (o : Options) (v : Value) : CutUp (chunks o v) (script o v) := by
  induction v with
  | sint n => exact .piece (join_signFirst _)
  | float x => exact .piece (join_signFirst _)
  | str bytes => exact ((cutUp_escaped bytes).append (.refl ["\""])).cons "\""
  | array vs ih =>
    have hchunks : chunks o (.array vs) = arrayScript o (vs.map (chunks o)) :=
      Value.visit_array (chunkVisitor o) vs
    rw [hchunks, script_array]
    exact cutUp_arrayScript o vs ih
  | _ => exact .refl _

/-- **Sign and digits, mark and digits.**  There is a chunking that hands the pieces of a value or
of a call over in these chunks.  It cuts no name, even if the name is spelled like a number. -/
theorem exists_chunking_pieces (o : Options) :
    (∀ v : Value, ∃ h : Chunking, h.allChunks 0 (pieces o v) = chunks o v) ∧
    (∀ c : Call, ∃ h : Chunking, h.allChunks 0 (callPieces o c) = callChunks o c) := by
  constructor
  · intro v
    rw [pieces_eq_script]
    exact (cutUp_script o v).exists_chunking
  · intro c
    have hargs := cutUp_itemsScript c.args
      (fun a _ => ((cutUp_script o a.value).cons " = ").cons a.name) ""
    have hret : CutUp ((c.ret?.map fun v => " = " :: chunks o v).getD []) (retScript o c.ret?) := by
      cases c.ret? with
      | none => exact .refl []
      | some v => exact (cutUp_script o v).cons " = "
    rw [callPieces_eq_callScript]
    exact (((hargs.append ((hret.append (.refl ["\n"])).cons ")")).cons "(").cons
      c.name).exists_chunking

/-- A number, a name that is spelled like it, and a byte that is no UTF-8. -/
example :
    chunks .canonical (.array [.sint (-5), .const "-5" .null, .str [0xFF]]) =
      ["\x7b", "", "-", "5", ", ", "-5", ", ", "\"", "", "\\x", "ff", "", "\"", "\x7d"] := by
  decide +kernel

end Dump

end CallCapture
