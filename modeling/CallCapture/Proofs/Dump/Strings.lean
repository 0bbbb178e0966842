import CallCapture.Json.Capture
import CallCapture.Proofs.Dump.Rendering
import CallCapture.Proofs.Utf8.Validation

/-!
# The two texts of a string

A captured string is shown in two ways.  The dump keeps every byte, and escapes those that
are not part of UTF-8; the document of a capture has one replacement character for each
part that is ill-formed.  They are computed differently, the first by a loop that validates
what is left after each fault and the second from the segments, and yet one cut of the bytes
explains both: the only cut there is.

The cut looks ahead: whether some bytes are an encoding, and where an ill-formed part ends,
depends on what follows.  It does not look past a byte that begins a character, though, since only
continuation bytes follow the first byte of an encoding
(`Utf8.contains_of_utf8EncodeChar_append`).  So where the second part of a string starts with
such a byte, both parts are cut as if they stood alone (`Utf8.Cut.append`), and so they are where
the first part is well formed and nothing of it is left open.

An encoding that breaks off is the case to watch.  At the end of the input the fault has no
length and all that is left is at fault; in the middle its length is known.  As segments the two
are the same.
-/

namespace CallCapture

namespace Dump

/-- The text of a string is that of its segments, between quotes. -/
theorem dumpWith_str (bytes : List UInt8) (o : Options) :
    (Value.str bytes).dumpWith o =
      "\"" ++ String.join ((Utf8.segments bytes).map Utf8.Segment.rendered) ++ "\"" := by
  rw [dumpWith_eq_text, text, body, Utf8.join_escaped]

/-- **One cut explains both texts of a string.**  Every byte string has exactly one cut into
encodings of characters and maximal ill-formed subparts, which loses no byte, and whose
subparts have at most three bytes, none of them ASCII.  The dump shows the characters as
they are and escapes each byte of a subpart; the lossy text, which is also that of the
document, has one replacement character for each subpart.  There is no subpart, and so no
escape, exactly if the bytes are those of a text. -/
theorem str_segmentation (bytes : List UInt8) :
    ∃ ss : List Utf8.Segment,
      Utf8.Cut bytes ss ∧
      (∀ ts, Utf8.Cut bytes ts → ts = ss) ∧
      ss.flatMap Utf8.Segment.bytes = bytes ∧
      (∀ b more, .illFormed b more ∈ ss →
        (b :: more).length ≤ 3 ∧ ∀ x ∈ b :: more, 0x80 ≤ x) ∧
      (∀ o : Options, (Value.str bytes).dumpWith o =
        "\"" ++ String.join (ss.map Utf8.Segment.rendered) ++ "\"") ∧
      Utf8.lossy bytes = .ofList (ss.map Utf8.Segment.shown) ∧
      (Value.str bytes).json =
        .tagged .str [("value", .string (.ofList (ss.map Utf8.Segment.shown)))] ∧
      ((∀ b more, .illFormed b more ∉ ss) ↔ ∃ text : String, Utf8.encode text = bytes) := by
  have hcut := Utf8.cut_segments bytes
  refine ⟨Utf8.segments bytes, hcut, fun ts => hcut.unique, hcut.flatMap_bytes, ?_,
    dumpWith_str bytes, rfl, ?_, hcut.forall_notMem_iff⟩
  · intro b more hmem
    obtain ⟨rest, hsub⟩ := hcut.exists_maximalSubpart hmem
    exact ⟨hsub.length_le_three, fun x hx => hsub.le_of_mem hx⟩
  · rw [Value.json, Utf8.lossy]

end Dump

/-! ## Strings in two parts -/

namespace Utf8

open ByteRange (continuation)

/-! ### Continuation bytes -/

theorem contains_of_contains_secondRange {b x : UInt8}
    (h : (secondRange b).contains x = true) : continuation.contains x = true := by
  rw [contains_secondRange] at h
  rw [contains_continuation]
  exact ⟨h.1, h.2.1⟩

/-- Every byte of an encoding but the first is a continuation byte. -/
theorem Completes.contains_of_mem {b x : UInt8} {more : List UInt8} (h : Completes b more)
    (hmem : x ∈ more) : continuation.contains x = true := by
  cases h with
  | one _ => exact nomatch hmem
  | two _ _ hx =>
    rw [List.mem_singleton] at hmem
    rwa [hmem]
  | three _ _ hx hy =>
    rw [List.mem_cons, List.mem_singleton] at hmem
    rcases hmem with rfl | rfl
    · exact contains_of_contains_secondRange hx
    · exact hy
  | four _ _ hx hy hz =>
    rw [List.mem_cons, List.mem_cons, List.mem_singleton] at hmem
    rcases hmem with rfl | rfl | rfl
    · exact contains_of_contains_secondRange hx
    · exact hy
    · exact hz

/-- A byte inside an encoding is a continuation byte. -/
theorem contains_of_utf8EncodeChar_append {c : Char} {start tail : List UInt8} {x : UInt8}
    (h : String.utf8EncodeChar c = start ++ x :: tail) (hstart : start ≠ []) :
    continuation.contains x = true := by
  obtain ⟨b, more, hc, hcompletes, -⟩ := exists_completes c
  obtain ⟨b', start, rfl⟩ := List.exists_cons_of_ne_nil hstart
  obtain ⟨-, rfl⟩ := List.cons.inj (hc.symm.trans h)
  exact hcompletes.contains_of_mem (List.mem_append_right _ List.mem_cons_self)

/-! ### Seams -/

/-- The bytes do not begin in the middle of a character: if there are any, the first is no
continuation byte. -/
def Boundary (bytes : List UInt8) : Prop :=
  ∀ x, bytes.head? = some x → continuation.contains x = false

/-- **What begins an encoding does not reach over a boundary.** -/
theorem Boundary.exists_of_utf8EncodeChar {x y start rest tail : List UInt8} {c : Char}
    (hy : Boundary y) (hx : x ≠ []) (h : x ++ y = start ++ rest)
    (hc : String.utf8EncodeChar c = start ++ tail) : ∃ mid, x = start ++ mid ∧ rest = mid ++ y := by
  rcases List.append_eq_append_iff.1 h with ⟨excess, rfl, hexcess⟩ | ⟨mid, hmid, hrest⟩
  · cases excess with
    | nil =>
      refine ⟨[], ?_, ?_⟩
      · rw [List.append_nil, List.append_nil]
      · rw [hexcess]
        rfl
    | cons b excess =>
      -- the byte behind the seam would be inside an encoding
      rw [List.append_assoc, List.cons_append] at hc
      have hinside := contains_of_utf8EncodeChar_append hc hx
      rw [hy b (by rw [hexcess]; rfl)] at hinside
      exact nomatch hinside
  · exact ⟨mid, hmid, hrest⟩

/-- A maximal subpart stays one when more bytes follow, from a boundary on. -/
theorem MaximalSubpart.append {b : UInt8} {more rest y : List UInt8}
    (h : MaximalSubpart b more rest) (hy : Boundary y) : MaximalSubpart b more (rest ++ y) where
  not_encoding := by
    intro c tail hbytes
    rw [← List.append_assoc] at hbytes
    obtain ⟨mid, hmid, -⟩ := hy.exists_of_utf8EncodeChar (List.cons_ne_nil _ _) hbytes
      (List.append_nil (String.utf8EncodeChar c)).symm
    exact h.not_encoding c mid hmid
  incomplete_or_single := h.incomplete_or_single
  longest := by
    intro bytes tail hbytes hinc
    obtain ⟨-, c, left, -, hc⟩ := id hinc
    rw [← List.append_assoc] at hbytes
    obtain ⟨mid, hmid, -⟩ := hy.exists_of_utf8EncodeChar (List.cons_ne_nil _ _) hbytes hc
    exact h.longest bytes mid hmid hinc

/-- **Two cuts make one** at a boundary, or if the first has no ill-formed segment. -/
theorem Cut.append {x y : List UInt8} {ss ts : List Segment} (hx : Cut x ss) (hy : Cut y ts)
    (h : (∀ b more, .illFormed b more ∉ ss) ∨ Boundary y) : Cut (x ++ y) (ss ++ ts) := by
  induction hx with
  | nil => exact hy
  | scalar _ ih =>
    rw [List.append_assoc]
    refine .scalar (ih (h.imp_left fun hno b more hmem => ?_))
    exact hno b more (List.mem_cons_of_mem _ hmem)
  | @illFormed b more rest ss hsub _ ih =>
    rcases h with hno | hboundary
    · exact absurd List.mem_cons_self (hno b more)
    · rw [List.append_assoc]
      exact .illFormed (hsub.append hboundary) (ih (Or.inr hboundary))

/-- **The segments of two parts** are those of the first and those of the second, if the first
is well formed or the second starts at a boundary. -/
theorem segments_append {x y : List UInt8}
    (h : (∃ text : String, encode text = x) ∨ Boundary y) :
    segments (x ++ y) = segments x ++ segments y := by
  have hx := cut_segments x
  have happend := hx.append (cut_segments y) (h.imp_left hx.forall_notMem_iff.2)
  exact happend.unique (cut_segments (x ++ y))

end Utf8

namespace Dump

/-- **Strings are shown part by part.**  If the first part is well formed, or there is no second
part, or the second part does not begin with a continuation byte, then the text between the
quotes is that of the first part and that of the second, and so is the lossy text. -/
theorem str_append (x y : List UInt8)
    (h : (∃ text : String, Utf8.encode text = x) ∨ y = [] ∨
      ∃ b rest, y = b :: rest ∧ ¬(0x80 ≤ b ∧ b ≤ 0xBF)) :
    body (x ++ y) = body x ++ body y ∧
      Utf8.lossy (x ++ y) = Utf8.lossy x ++ Utf8.lossy y ∧
      ∀ (bytes : List UInt8) (o : Options),
        (Value.str bytes).dumpWith o = "\"" ++ body bytes ++ "\"" := by
  have hseam : (∃ text : String, Utf8.encode text = x) ∨ Utf8.Boundary y := by
    refine h.imp_right ?_
    rintro (rfl | ⟨b, rest, rfl, hb⟩) c hc
    · exact nomatch hc
    · obtain rfl := Option.some.inj hc
      rw [Bool.eq_false_iff]
      intro hcontains
      rw [Utf8.ByteRange.contains, Bool.and_eq_true, decide_eq_true_iff, decide_eq_true_iff]
        at hcontains
      exact hb hcontains
  have hsegments := Utf8.segments_append hseam
  refine ⟨?_, ?_, ?_⟩
  · simp only [body, Utf8.join_escaped]
    rw [hsegments, List.map_append, String.join_append]
  · rw [Utf8.lossy, hsegments, List.map_append, String.ofList_append]
    rfl
  · intro bytes o
    rw [dumpWith_eq_text, text]

/-- The first two bytes of an encoding of three with a letter behind them are shown as they are
at the end of the input. -/
theorem str_append_broken_off :
    body ([0xE2, 0x82] ++ [0x61]) = "\\xe2\\x82" ++ "a" ∧
      Utf8.lossy ([0xE2, 0x82] ++ [0x61]) = "\uFFFD" ++ "a" := by
  have h := str_append [0xE2, 0x82] [0x61] (Or.inr (Or.inr ⟨0x61, [], rfl, by decide⟩))
  have hbody : body [0xE2, 0x82] = "\\xe2\\x82" ∧ body [0x61] = "a" := by decide +kernel
  have hlossy : Utf8.lossy [0xE2, 0x82] = "\uFFFD" ∧ Utf8.lossy [0x61] = "a" := by decide +kernel
  rw [hbody.1, hbody.2, hlossy.1, hlossy.2] at h
  exact ⟨h.1, h.2.1⟩

end Dump

end CallCapture
