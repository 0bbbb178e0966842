import CallCapture.Proofs.Json.Numbers

/-!
# Reading undoes writing

The reader gives back every document from its compact text (`Json.read_text`), provided that the
numbers in it are number literals (`Json.WellFormed`); nothing else can go wrong in a document.

The reader takes a document off the front of a text and passes on the rest, so this is proved for
a document in front of any rest that could not be taken for more of it.  Only a number can run on
into what follows, which is why the rest must not begin with a number character; inside of arrays
and objects a comma or a closing bracket follows.  The bound of the reader is measured against the
length of the text: each step into a document or past an item leaves a shorter text.

Such a text shows no control characters (`Json.WellFormed.printable_onto`): in strings they are
escaped, and nowhere else do they occur.
-/

namespace CallCapture.Json

/-- All numbers of a document are number literals. -/
inductive WellFormed : Json → Prop where
  | null : WellFormed .null
  | bool (b : Bool) : WellFormed (.bool b)
  | number {literal : String} : Reader.isNumber literal.toList = true →
      WellFormed (.number literal)
  | string (text : String) : WellFormed (.string text)
  | array {items : List Json} : (∀ item ∈ items, WellFormed item) → WellFormed (.array items)
  | object {fields : List (String × Json)} : (∀ field ∈ fields, WellFormed field.2) →
      WellFormed (.object fields)

/-! ## Strings -/

namespace Reader

theorem hexValue_digitChar {n : Nat} (h : n < 16) : hexValue (Nat.digitChar n) = some n := by
  have hall : ∀ k : Fin 16, hexValue (Nat.digitChar k) = some k.val := by decide
  exact hall ⟨n, h⟩

theorem le_toNat_digitChar {n : Nat} (h : n < 16) : 0x20 ≤ (Nat.digitChar n).toNat := by
  have hall : ∀ k : Fin 16, 0x20 ≤ (Nat.digitChar k).toNat := by decide
  exact hall ⟨n, h⟩

theorem le_toNat_of_mem_unicodeEscape {c d : Char} (h : d ∈ unicodeEscape c) :
    0x20 ≤ d.toNat := by
  have hdigit : ∀ k, 0x20 ≤ (Nat.digitChar (k % 16)).toNat := fun k =>
    le_toNat_digitChar (Nat.mod_lt k (by decide))
  simp only [unicodeEscape, List.mem_cons, List.not_mem_nil, or_false] at h
  rcases h with rfl | rfl | rfl | rfl | rfl | rfl
  · decide
  · decide
  all_goals exact hdigit _

/-- Four hexadecimal digits are read back. -/
theorem unitEscape_unicodeEscape {c : Char} (h : c.toNat < 0x20) (rest : List Char) :
    unitEscape ((unicodeEscape c).drop 2 ++ rest) = some (c, rest) := by
  have hunit : unit ((unicodeEscape c).drop 2 ++ rest) = some (c.toNat, rest) := by
    show unit (Nat.digitChar (c.toNat / 4096 % 16) :: Nat.digitChar (c.toNat / 256 % 16) ::
      Nat.digitChar (c.toNat / 16 % 16) :: Nat.digitChar (c.toNat % 16) :: rest) = _
    have hvalue : c.toNat / 4096 % 16 * 4096 + c.toNat / 256 % 16 * 256 +
        c.toNat / 16 % 16 * 16 + c.toNat % 16 = c.toNat := by omega
    simp [unit, hexValue_digitChar (Nat.mod_lt _ (by decide : 16 > 0)), hvalue]
  have hsmall : c.toNat < 0xD800 ∨ 0xDFFF < c.toNat := Or.inl (by omega)
  simp [unitEscape, hunit, hsmall, Char.ofNat_toNat]

/-- A character stands in a string behind a backslash, in a way that is read back and shows no
control character, or as itself. -/
theorem escapeChar_cases (c : Char) :
    (∃ more, escapeChar c = '\\' :: more ∧ (∀ rest, escape (more ++ rest) = some (c, rest)) ∧
        ∀ d ∈ more, 0x20 ≤ d.toNat) ∨
      escapeChar c = [c] ∧ c ≠ '"' ∧ c ≠ '\\' ∧ 0x20 ≤ c.toNat := by
  unfold escapeChar
  -- the seven characters that have an escape of their own
  iterate 7
    split
    · next h =>
      refine Or.inl ⟨_, rfl, ?_, List.forall_mem_singleton.2 (by decide)⟩
      rw [h]
      exact fun _ => rfl
  split
  · next h =>
    refine Or.inl ⟨(unicodeEscape c).drop 1, rfl, ?_, ?_⟩
    · intro rest
      exact unitEscape_unicodeEscape h rest
    · intro d hd
      exact le_toNat_of_mem_unicodeEscape (List.mem_of_mem_drop hd)
  · next hquote hback _ _ _ _ _ hspace => exact Or.inr ⟨rfl, hquote, hback, Nat.not_lt.1 hspace⟩

/-- **One character** is read back from the way it stands in a string. -/
theorem character_escapeChar (c : Char) (rest : List Char) :
    character (escapeChar c ++ rest) = some (c, rest) := by
  rcases escapeChar_cases c with ⟨more, hc, hread, -⟩ | ⟨hc, -, hback, hspace⟩
  · rw [hc]
    exact hread rest
  · rw [hc]
    show character (c :: rest) = _
    unfold character
    split
    · next heq => exact absurd (List.cons.inj heq).1 hback
    · next heq =>
      obtain ⟨rfl, rfl⟩ := List.cons.inj heq
      rw [if_neg (Nat.not_lt.2 hspace)]
    · next heq => exact nomatch heq

/-- A character does not begin like the end of a string. -/
theorem escapeChar_append_ne (c : Char) (rest more : List Char) :
    escapeChar c ++ rest ≠ '"' :: more := by
  rcases escapeChar_cases c with ⟨behind, hc, -, -⟩ | ⟨hc, hquote, -, -⟩
  · rw [hc]
    intro h
    exact absurd (List.cons.inj h).1 (by decide)
  · rw [hc]
    intro h
    exact hquote (List.cons.inj h).1

theorem string_quote (rest : List Char) : string ('"' :: rest) = some ([], rest) := by
  rw [string]

/-- A string goes on after a character. -/
theorem string_of_character {cs rest : List Char} {c : Char} (hne : ∀ more, cs ≠ '"' :: more)
    (h : character cs = some (c, rest)) :
    string cs = (string rest).map fun r => (c :: r.1, r.2) := by
  rw [string]
  · split
    · next hnone =>
      rw [hnone] at h
      cases h
    · next c' rest' hsome =>
      rw [hsome] at h
      cases h
      rfl
  · exact hne

/-- **The characters of a string** are read back up to its closing quote. -/
theorem string_flatMap (cs rest : List Char) :
    string (cs.flatMap escapeChar ++ '"' :: rest) = some (cs, rest) := by
  induction cs with
  | nil => exact string_quote rest
  | cons c cs ih =>
    rw [List.flatMap_cons, List.append_assoc,
      string_of_character (escapeChar_append_ne c _) (character_escapeChar c _), ih]
    rfl

theorem quoted_stringOnto (text : String) (rest : List Char) :
    quoted (stringOnto text rest) = some (text, rest) := by
  show (string (text.toList.flatMap escapeChar ++ '"' :: rest)).map _ = _
  rw [string_flatMap, Option.map_some, String.ofList_toList]

/-! ## One step of the reader -/

theorem skip_cons {c : Char} (h : isBlank c = false) (cs : List Char) : skip (c :: cs) = c :: cs :=
  List.dropWhile_cons_of_neg (Bool.eq_false_iff.1 h)

theorem ne_of_isDigit {c d : Char} (hc : c.isDigit = true) (hd : d.isDigit = false) : c ≠ d := by
  rintro rfl
  rw [hc] at hd
  exact Bool.noConfusion hd

theorem isBlank_of_isDigit {c : Char} (h : c.isDigit = true) : isBlank c = false := by
  simp [isBlank, ne_of_isDigit h]

/-- A document that begins like a number is one. -/
theorem value_of_number_first {c : Char} (h : c = '-' ∨ c.isDigit = true) (bound : Nat)
    (cs : List Char) : value (bound + 1) (c :: cs) = number (c :: cs) := by
  rcases h with rfl | h
  · rfl
  · rw [value, skip_cons (isBlank_of_isDigit h)]
    split
    case h_7 => rfl
    all_goals
      next heq => exact absurd (List.cons.inj heq).1 (ne_of_isDigit h (by decide))

/-- An array whose first item does not look like its end. -/
theorem value_bracket {cs : List Char} (hskip : skip cs = cs) (hne : ∀ more, cs ≠ ']' :: more)
    (bound : Nat) :
    value (bound + 1) ('[' :: cs) =
      (value bound cs).bind fun r =>
        (items bound r.2).bind fun s => some (Json.array (r.1 :: s.1), s.2) := by
  rw [value, skip_cons (by decide)]
  split
  case h_5 rest hrest =>
    obtain rfl := (List.cons.inj hrest).2
    rw [hskip]
    split
    · next more => exact absurd rfl (hne more)
    · rfl
  case h_7 hbracket _ => exact absurd rfl (hbracket cs)
  all_goals
    next heq => exact absurd (List.cons.inj heq).1 (by decide)

/-- An object that is not empty begins with a key. -/
theorem value_brace (bound : Nat) (cs : List Char) :
    value (bound + 1) ('\x7b' :: '"' :: cs) =
      (field bound ('"' :: cs)).bind fun r =>
        (fields bound r.2).bind fun s => some (.object (r.1 :: s.1), s.2) := rfl

theorem items_comma (bound : Nat) (cs : List Char) :
    items (bound + 1) (',' :: cs) =
      (value bound cs).bind fun r => (items bound r.2).bind fun s => some (r.1 :: s.1, s.2) := rfl

theorem fields_comma (bound : Nat) (cs : List Char) :
    fields (bound + 1) (',' :: cs) =
      (field bound cs).bind fun r => (fields bound r.2).bind fun s => some (r.1 :: s.1, s.2) := rfl

theorem field_of_quoted {cs rest : List Char} {key : String}
    (h : quoted cs = some (key, ':' :: rest)) (bound : Nat) :
    field (bound + 1) cs = (value bound rest).bind fun r => some ((key, r.1), r.2) := by
  rw [field, h]
  rfl

end Reader

/-! ## What follows a document -/

theorem suffix_stringOnto (text : String) (rest : List Char) : rest <:+ stringOnto text rest :=
  ((List.suffix_cons _ rest).trans (List.suffix_append _ _)).trans (List.suffix_cons _ _)

mutual

/-- What follows a document stands at the end of the text. -/
theorem suffix_onto : ∀ (j : Json) (rest : List Char), rest <:+ j.onto rest
  | .null, _ => List.suffix_append _ _
  | .bool _, _ => List.suffix_append _ _
  | .number _, _ => List.suffix_append _ _
  | .string text, rest => suffix_stringOnto text rest
  | .array [], rest => (List.suffix_cons _ rest).trans (List.suffix_cons _ _)
  | .array (item :: items), rest =>
    ((suffix_itemsOnto items rest).trans (suffix_onto item _)).trans (List.suffix_cons _ _)
  | .object [], rest => (List.suffix_cons _ rest).trans (List.suffix_cons _ _)
  | .object ((_, item) :: fields), rest =>
    (((suffix_fieldsOnto fields rest).trans (suffix_onto item _)).trans (List.suffix_cons _ _)).trans
      ((suffix_stringOnto _ _).trans (List.suffix_cons _ _))

theorem suffix_itemsOnto : ∀ (items : List Json) (rest : List Char), rest <:+ itemsOnto items rest
  | [], rest => List.suffix_cons _ rest
  | item :: items, rest =>
    ((suffix_itemsOnto items rest).trans (suffix_onto item _)).trans (List.suffix_cons _ _)

theorem suffix_fieldsOnto : ∀ (fields : List (String × Json)) (rest : List Char),
    rest <:+ fieldsOnto fields rest
  | [], rest => List.suffix_cons _ rest
  | (_, item) :: fields, rest =>
    (((suffix_fieldsOnto fields rest).trans (suffix_onto item _)).trans (List.suffix_cons _ _)).trans
      ((suffix_stringOnto _ _).trans (List.suffix_cons _ _))

end

open Reader (NoneFirst isNumberChar noneFirst_cons)

/-- No number goes on after an item of an array. -/
theorem noneFirst_itemsOnto (items : List Json) (rest : List Char) :
    NoneFirst isNumberChar (itemsOnto items rest) := by
  cases items with
  | nil => exact noneFirst_cons (by decide) _
  | cons item items => exact noneFirst_cons (by decide) _

/-- No number goes on after a field of an object. -/
theorem noneFirst_fieldsOnto (fields : List (String × Json)) (rest : List Char) :
    NoneFirst isNumberChar (fieldsOnto fields rest) := by
  cases fields with
  | nil => exact noneFirst_cons (by decide) _
  | cons field fields => exact noneFirst_cons (by decide) _

/-- A document begins with a character that is no blank and no closing bracket. -/
theorem WellFormed.exists_onto_eq_cons {j : Json} (h : j.WellFormed) (rest : List Char) :
    ∃ c cs, j.onto rest = c :: cs ∧ Reader.isBlank c = false ∧ c ≠ ']' := by
  cases h with
  | null => exact ⟨'n', _, rfl, by decide, by decide⟩
  | bool b =>
    cases b with
    | true => exact ⟨'t', _, rfl, by decide, by decide⟩
    | false => exact ⟨'f', _, rfl, by decide, by decide⟩
  | @number literal hnumber =>
    obtain ⟨c, cs, hcs, hc⟩ := Reader.exists_cons_of_isNumber hnumber
    refine ⟨c, cs ++ rest, by rw [onto, hcs]; rfl, ?_⟩
    rcases hc with rfl | hc
    · exact ⟨by decide, by decide⟩
    · exact ⟨Reader.isBlank_of_isDigit hc, Reader.ne_of_isDigit hc (by decide)⟩
  | string text => exact ⟨'"', _, rfl, by decide, by decide⟩
  | @array items _ => cases items <;> exact ⟨'[', _, rfl, by decide, by decide⟩
  | @object fields _ => cases fields <;> exact ⟨'\x7b', _, rfl, by decide, by decide⟩

/-! ## Reading -/

/-- A document is read back from the front of a text, if what follows is no more of it and the
bound is not below the length of the text. -/
def Reads (j : Json) : Prop :=
  ∀ rest bound, NoneFirst isNumberChar rest → (j.onto rest).length ≤ bound →
    Reader.value bound (j.onto rest) = some (j, rest)

/-- The items of an array after the first are read back. -/
theorem items_itemsOnto {items : List Json} (hitems : ∀ item ∈ items, Reads item)
    (rest : List Char) (bound : Nat) (h : (itemsOnto items rest).length ≤ bound) :
    Reader.items bound (itemsOnto items rest) = some (items, rest) := by
  induction items generalizing bound with
  | nil =>
    rw [itemsOnto, List.length_cons] at h
    obtain ⟨bound, rfl⟩ : ∃ n, bound = n + 1 := ⟨bound - 1, by omega⟩
    rfl
  | cons item items ih =>
    have hlength := (suffix_onto item (itemsOnto items rest)).length_le
    rw [itemsOnto, List.length_cons] at h
    obtain ⟨bound, rfl⟩ : ∃ n, bound = n + 1 := ⟨bound - 1, by omega⟩
    have hfirst := hitems item List.mem_cons_self _ bound (noneFirst_itemsOnto items rest) (by omega)
    have hmore := ih (fun i hi => hitems i (List.mem_cons_of_mem item hi)) bound (by omega)
    rw [itemsOnto, Reader.items_comma, hfirst, Option.bind_some, hmore]
    rfl

/-- A field of an object is read back. -/
theorem field_onto {item : Json} (hitem : Reads item) (key : String) {rest : List Char}
    (hrest : NoneFirst isNumberChar rest) (bound : Nat)
    (h : (stringOnto key (':' :: item.onto rest)).length ≤ bound) :
    Reader.field bound (stringOnto key (':' :: item.onto rest)) = some ((key, item), rest) := by
  have hlength := (suffix_stringOnto key (':' :: item.onto rest)).length_le
  rw [List.length_cons] at hlength
  obtain ⟨bound, rfl⟩ : ∃ n, bound = n + 1 := ⟨bound - 1, by omega⟩
  rw [Reader.field_of_quoted (Reader.quoted_stringOnto key _), hitem rest bound hrest (by omega)]
  rfl

/-- The fields of an object after the first are read back. -/
theorem fields_fieldsOnto {fields : List (String × Json)} (hfields : ∀ field ∈ fields, Reads field.2)
    (rest : List Char) (bound : Nat) (h : (fieldsOnto fields rest).length ≤ bound) :
    Reader.fields bound (fieldsOnto fields rest) = some (fields, rest) := by
  induction fields generalizing bound with
  | nil =>
    rw [fieldsOnto, List.length_cons] at h
    obtain ⟨bound, rfl⟩ : ∃ n, bound = n + 1 := ⟨bound - 1, by omega⟩
    rfl
  | cons field fields ih =>
    obtain ⟨key, item⟩ := field
    have hitem := (suffix_onto item (fieldsOnto fields rest)).length_le
    have hkey := (suffix_stringOnto key (':' :: item.onto (fieldsOnto fields rest))).length_le
    rw [List.length_cons] at hkey
    rw [fieldsOnto, List.length_cons] at h
    obtain ⟨bound, rfl⟩ : ∃ n, bound = n + 1 := ⟨bound - 1, by omega⟩
    have hreads : Reads item := hfields _ List.mem_cons_self
    have hfirst := field_onto hreads key (noneFirst_fieldsOnto fields rest) bound (by omega)
    have hmore := ih (fun f hf => hfields f (List.mem_cons_of_mem _ hf)) bound (by omega)
    rw [fieldsOnto, Reader.fields_comma, hfirst, Option.bind_some, hmore]
    rfl

/-- An array is read back if its items are. -/
theorem reads_array {items : List Json} (hform : ∀ item ∈ items, item.WellFormed)
    (hitems : ∀ item ∈ items, Reads item) : Reads (.array items) := by
  intro rest bound _ h
  cases items with
  | nil =>
    rw [onto, List.length_cons] at h
    obtain ⟨bound, rfl⟩ : ∃ n, bound = n + 1 := ⟨bound - 1, by omega⟩
    rfl
  | cons item items =>
    obtain ⟨c, cs, hcs, hblank, hbracket⟩ :=
      (hform item List.mem_cons_self).exists_onto_eq_cons (itemsOnto items rest)
    have hskip : Reader.skip (item.onto (itemsOnto items rest)) =
        item.onto (itemsOnto items rest) := by
      rw [hcs, Reader.skip_cons hblank]
    have hne : ∀ more, item.onto (itemsOnto items rest) ≠ ']' :: more := by
      intro more hmore
      rw [hcs] at hmore
      exact hbracket (List.cons.inj hmore).1
    have hlength := (suffix_onto item (itemsOnto items rest)).length_le
    rw [onto, List.length_cons] at h
    obtain ⟨bound, rfl⟩ : ∃ n, bound = n + 1 := ⟨bound - 1, by omega⟩
    have hfirst := hitems item List.mem_cons_self _ bound (noneFirst_itemsOnto items rest) (by omega)
    have hmore := items_itemsOnto (fun i hi => hitems i (List.mem_cons_of_mem item hi)) rest bound
      (by omega)
    rw [onto, Reader.value_bracket hskip hne, hfirst, Option.bind_some, hmore]
    rfl

/-- An object is read back if the documents in its fields are. -/
theorem reads_object {fields : List (String × Json)} (hfields : ∀ field ∈ fields, Reads field.2) :
    Reads (.object fields) := by
  intro rest bound _ h
  cases fields with
  | nil =>
    rw [onto, List.length_cons] at h
    obtain ⟨bound, rfl⟩ : ∃ n, bound = n + 1 := ⟨bound - 1, by omega⟩
    rfl
  | cons field fields =>
    obtain ⟨key, item⟩ := field
    have hitem := (suffix_onto item (fieldsOnto fields rest)).length_le
    have hkey := (suffix_stringOnto key (':' :: item.onto (fieldsOnto fields rest))).length_le
    rw [List.length_cons] at hkey
    rw [onto, List.length_cons] at h
    obtain ⟨bound, rfl⟩ : ∃ n, bound = n + 1 := ⟨bound - 1, by omega⟩
    have hreads : Reads item := hfields _ List.mem_cons_self
    have hfirst := field_onto hreads key (noneFirst_fieldsOnto fields rest) bound (by omega)
    have hmore := fields_fieldsOnto (fun f hf => hfields f (List.mem_cons_of_mem _ hf)) rest bound
      (by omega)
    rw [onto, stringOnto, Reader.value_brace, ← stringOnto, hfirst, Option.bind_some, hmore]
    rfl

/-- **Every document is read back** from the front of a text. -/
theorem WellFormed.reads {j : Json} (h : j.WellFormed) : Reads j := by
  induction h with
  | null =>
    intro rest bound _ h
    have hlength : 0 < (onto .null rest).length := Nat.succ_pos _
    obtain ⟨bound, rfl⟩ : ∃ n, bound = n + 1 := ⟨bound - 1, by omega⟩
    rfl
  | bool b =>
    intro rest bound _ h
    have hlength : 0 < (onto (.bool b) rest).length := by cases b <;> exact Nat.succ_pos _
    obtain ⟨bound, rfl⟩ : ∃ n, bound = n + 1 := ⟨bound - 1, by omega⟩
    cases b <;> rfl
  | @number literal hnumber =>
    intro rest bound hrest h
    obtain ⟨c, cs, hcs, hc⟩ := Reader.exists_cons_of_isNumber hnumber
    have hread := Reader.number_append hnumber hrest
    rw [onto, hcs] at h ⊢
    rw [hcs] at hread
    rw [List.cons_append, List.length_cons] at h
    obtain ⟨bound, rfl⟩ : ∃ n, bound = n + 1 := ⟨bound - 1, by omega⟩
    exact (Reader.value_of_number_first hc bound _).trans hread
  | string text =>
    intro rest bound _ h
    rw [onto, stringOnto, List.length_cons] at h
    obtain ⟨bound, rfl⟩ : ∃ n, bound = n + 1 := ⟨bound - 1, by omega⟩
    show (Reader.string (text.toList.flatMap escapeChar ++ '"' :: rest)).map _ = _
    rw [Reader.string_flatMap, Option.map_some, String.ofList_toList]
  | array hform ih => exact reads_array hform ih
  | object _ ih => exact reads_object ih

/-- **Reading undoes writing.** -/
theorem read_text {j : Json} (h : j.WellFormed) : read j.text = some j := by
  have hlist : j.text.toList = j.onto [] := String.toList_ofList
  have hlength : (j.onto []).length ≤ j.text.length + 1 := by
    rw [← hlist, String.length_toList]
    exact Nat.le_succ _
  rw [read, hlist, h.reads [] _ nofun hlength]
  rfl

/-! ## No control characters -/

/-- No character of a text is a control character below the space. -/
def Printable (cs : List Char) : Prop :=
  ∀ c ∈ cs, 0x20 ≤ c.toNat

instance (cs : List Char) : Decidable (Printable cs) :=
  List.decidableBAll _ cs

namespace Printable

theorem nil : Printable [] :=
  nofun

theorem cons {c : Char} {cs : List Char} (hc : 0x20 ≤ c.toNat) (hcs : Printable cs) :
    Printable (c :: cs) :=
  List.forall_mem_cons.2 ⟨hc, hcs⟩

theorem append {cs ds : List Char} (hcs : Printable cs) (hds : Printable ds) :
    Printable (cs ++ ds) :=
  List.forall_mem_append.2 ⟨hcs, hds⟩

end Printable

theorem printable_escapeChar (c : Char) : Printable (escapeChar c) := by
  rcases Reader.escapeChar_cases c with ⟨more, hc, -, hmore⟩ | ⟨hc, -, -, hspace⟩
  · rw [hc]
    exact .cons (by decide) hmore
  · rw [hc]
    exact .cons hspace .nil

theorem printable_stringOnto (text : String) {rest : List Char} (hrest : Printable rest) :
    Printable (stringOnto text rest) := by
  have htext : Printable (text.toList.flatMap escapeChar) := by
    intro d hd
    obtain ⟨c, -, hc⟩ := List.mem_flatMap.1 hd
    exact printable_escapeChar c d hc
  exact .cons (by decide) (htext.append (.cons (by decide) hrest))

theorem printable_of_isNumber {cs : List Char} (h : Reader.isNumber cs = true) : Printable cs := by
  intro c hc
  have hchar := Reader.isNumberChar_of_mem h c hc
  simp only [Reader.isNumberChar, Bool.or_eq_true, decide_eq_true_eq] at hchar
  rcases hchar with ((((hdigit | rfl) | rfl) | rfl) | rfl) | rfl
  · rw [Char.isDigit, Bool.and_eq_true, decide_eq_true_eq] at hdigit
    exact Nat.le_trans (by decide) (UInt32.le_iff_toNat_le.1 hdigit.1)
  all_goals decide

theorem printable_itemsOnto {items : List Json}
    (hitems : ∀ item ∈ items, ∀ rest, Printable rest → Printable (item.onto rest))
    {rest : List Char} (hrest : Printable rest) : Printable (itemsOnto items rest) := by
  induction items with
  | nil => exact .cons (by decide) hrest
  | cons item items ih =>
    have hmore := ih fun i hi => hitems i (List.mem_cons_of_mem item hi)
    exact .cons (by decide) (hitems item List.mem_cons_self _ hmore)

theorem printable_fieldsOnto {fields : List (String × Json)}
    (hfields : ∀ field ∈ fields, ∀ rest, Printable rest → Printable (field.2.onto rest))
    {rest : List Char} (hrest : Printable rest) : Printable (fieldsOnto fields rest) := by
  induction fields with
  | nil => exact .cons (by decide) hrest
  | cons field fields ih =>
    have hmore := ih fun f hf => hfields f (List.mem_cons_of_mem field hf)
    have hitem := hfields field List.mem_cons_self _ hmore
    exact .cons (by decide) (printable_stringOnto _ (.cons (by decide) hitem))

/-- **The text of a document shows no control character**, if nothing after it does. -/
theorem WellFormed.printable_onto {j : Json} (h : j.WellFormed) (rest : List Char)
    (hrest : Printable rest) : Printable (j.onto rest) := by
  induction h generalizing rest with
  | null =>
    have hword : Printable "null".toList := by decide
    exact hword.append hrest
  | bool b =>
    have hword : Printable (if b then "true" else "false").toList := by cases b <;> decide
    exact hword.append hrest
  | number hnumber => exact (printable_of_isNumber hnumber).append hrest
  | string text => exact printable_stringOnto text hrest
  | @array items _ ih =>
    cases items with
    | nil => exact .cons (by decide) (.cons (by decide) hrest)
    | cons item items =>
      have hmore := printable_itemsOnto (fun i hi => ih i (List.mem_cons_of_mem item hi)) hrest
      exact .cons (by decide) (ih item List.mem_cons_self _ hmore)
  | @object fields _ ih =>
    cases fields with
    | nil => exact .cons (by decide) (.cons (by decide) hrest)
    | cons field fields =>
      have hmore := printable_fieldsOnto (fun f hf => ih f (List.mem_cons_of_mem field hf)) hrest
      have hitem := ih field List.mem_cons_self _ hmore
      exact .cons (by decide) (printable_stringOnto _ (.cons (by decide) hitem))

end CallCapture.Json
