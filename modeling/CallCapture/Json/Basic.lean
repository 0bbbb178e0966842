/-!
# JSON documents, their compact text, and reading it

Documents keep the order of the fields of an object, and keep numbers as the literals that
are written, so that a document and its text determine each other.

The text has no blanks.  In strings, quotes and backslashes are escaped, and so is every
character below the space: by a letter where there is one, and otherwise by four
hexadecimal digits.

The reader takes the whole grammar: blanks between tokens, every escape, surrogate pairs, and
number literals, which are kept as they are written.  Each part takes what it needs from
the front of the text and passes on the rest.  Documents nest, so the reader of values carries a
bound on the depth and breadth that it still may go through; every step takes at least one
character, so the length of the text is bound enough, and `Json.read` shows none.
-/

namespace CallCapture

/-- A JSON document. -/
inductive Json where
  | null
  | bool (value : Bool)
  | number (literal : String)
  | string (text : String)
  | array (items : List Json)
  | object (fields : List (String × Json))

namespace Json

/-- The escape of a character by four hexadecimal digits. -/
def unicodeEscape (c : Char) : List Char :=
  let n := c.toNat
  ['\\', 'u', Nat.digitChar (n / 4096 % 16), Nat.digitChar (n / 256 % 16),
    Nat.digitChar (n / 16 % 16), Nat.digitChar (n % 16)]

/-- A character as it stands in a string. -/
def escapeChar (c : Char) : List Char :=
  if c = '"' then ['\\', '"']
  else if c = '\\' then ['\\', '\\']
  else if c = '\x08' then ['\\', 'b']
  else if c = '\x0c' then ['\\', 'f']
  else if c = '\n' then ['\\', 'n']
  else if c = '\r' then ['\\', 'r']
  else if c = '\t' then ['\\', 't']
  else if c.toNat < 0x20 then unicodeEscape c
  else [c]

/-- A string in quotes, followed by `rest`. -/
def stringOnto (text : String) (rest : List Char) : List Char :=
  '"' :: (text.toList.flatMap escapeChar ++ '"' :: rest)

mutual

/-- The text of a document, followed by `rest`. -/
def onto : Json → List Char → List Char
  | .null, rest => "null".toList ++ rest
  | .bool b, rest => (if b then "true" else "false").toList ++ rest
  | .number literal, rest => literal.toList ++ rest
  | .string text, rest => stringOnto text rest
  | .array [], rest => '[' :: ']' :: rest
  | .array (item :: items), rest => '[' :: onto item (itemsOnto items rest)
  | .object [], rest => '\x7b' :: '\x7d' :: rest
  | .object ((key, item) :: fields), rest =>
    '\x7b' :: stringOnto key (':' :: onto item (fieldsOnto fields rest))

/-- The items of an array after the first, the closing bracket and `rest`. -/
def itemsOnto : List Json → List Char → List Char
  | [], rest => ']' :: rest
  | item :: items, rest => ',' :: onto item (itemsOnto items rest)

/-- The fields of an object after the first, the closing brace and `rest`. -/
def fieldsOnto : List (String × Json) → List Char → List Char
  | [], rest => '\x7d' :: rest
  | (key, item) :: fields, rest =>
    ',' :: stringOnto key (':' :: onto item (fieldsOnto fields rest))

end

/-- The compact text of a document. -/
def text (j : Json) : String :=
  .ofList (j.onto [])

/-! ## Reading -/

namespace Reader

/-! ### Blanks, words and numbers -/

/-- The characters that may stand between tokens. -/
def isBlank (c : Char) : Bool :=
  c = ' ' || c = '\n' || c = '\r' || c = '\t'

/-- The text from the first character on that is not blank. -/
def skip (cs : List Char) : List Char :=
  cs.dropWhile isBlank

/-- What follows a word that has to come next. -/
def expect : List Char → List Char → Option (List Char)
  | [], cs => some cs
  | w :: word, c :: cs => if w = c then expect word cs else none
  | _ :: _, [] => none

/-- The characters of number literals. -/
def isNumberChar (c : Char) : Bool :=
  c.isDigit || c = '-' || c = '+' || c = '.' || c = 'e' || c = 'E'

/-- Whether the text is one or more digits and nothing else. -/
def isDigits (cs : List Char) : Bool :=
  !cs.isEmpty && cs.all Char.isDigit

/-- Whether the text is the integer part of a literal: digits without a leading zero, or
a single zero. -/
def isWhole (cs : List Char) : Bool :=
  isDigits cs && (cs.length = 1 || cs.head? ≠ some '0')

/-- Whether the text is empty or a power of ten. -/
def isPower : List Char → Bool
  | [] => true
  | e :: cs =>
    (e = 'e' || e = 'E') &&
      match cs with
      | '+' :: digits => isDigits digits
      | '-' :: digits => isDigits digits
      | digits => isDigits digits

/-- Whether the text is a fraction, a power of ten, both in this order, or empty. -/
def isTail : List Char → Bool
  | '.' :: cs => isDigits (cs.takeWhile Char.isDigit) && isPower (cs.dropWhile Char.isDigit)
  | cs => isPower cs

/-- Whether the text is a number literal. -/
def isNumber (cs : List Char) : Bool :=
  let unsigned := match cs with
    | '-' :: rest => rest
    | rest => rest
  isWhole (unsigned.takeWhile Char.isDigit) && isTail (unsigned.dropWhile Char.isDigit)

/-- A number literal and what follows it. -/
def number (cs : List Char) : Option (Json × List Char) :=
  let literal := cs.takeWhile isNumberChar
  if isNumber literal then some (.number (.ofList literal), cs.dropWhile isNumberChar) else none

/-! ### Strings -/

/-- The value of a hexadecimal digit. -/
def hexValue (c : Char) : Option Nat :=
  if c.isDigit then some (c.toNat - '0'.toNat)
  else if 'a' ≤ c && c ≤ 'f' then some (c.toNat - 'a'.toNat + 10)
  else if 'A' ≤ c && c ≤ 'F' then some (c.toNat - 'A'.toNat + 10)
  else none

/-- A sixteen-bit unit in four hexadecimal digits, and what follows it. -/
def unit : List Char → Option (Nat × List Char)
  | a :: b :: c :: d :: rest => do
    let n := (← hexValue a) * 4096 + (← hexValue b) * 256 + (← hexValue c) * 16 + (← hexValue d)
    some (n, rest)
  | _ => none

/-- The character of an escape by units, after the first `\u`. -/
def unitEscape (cs : List Char) : Option (Char × List Char) := do
  let (high, rest) ← unit cs
  if high < 0xD800 ∨ 0xDFFF < high then some (.ofNat high, rest)
  else if 0xDBFF < high then none
  else
    let (low, rest) ← unit (← expect ['\\', 'u'] rest)
    if low < 0xDC00 ∨ 0xDFFF < low then none
    else some (.ofNat (0x10000 + (high - 0xD800) * 0x400 + (low - 0xDC00)), rest)

/-- The character of an escape, after the backslash. -/
def escape : List Char → Option (Char × List Char)
  | '"' :: rest => some ('"', rest)
  | '\\' :: rest => some ('\\', rest)
  | '/' :: rest => some ('/', rest)
  | 'b' :: rest => some ('\x08', rest)
  | 'f' :: rest => some ('\x0c', rest)
  | 'n' :: rest => some ('\n', rest)
  | 'r' :: rest => some ('\r', rest)
  | 't' :: rest => some ('\t', rest)
  | 'u' :: rest => unitEscape rest
  | _ => none

/-- The next character of a string, which may be escaped but not below the space. -/
def character : List Char → Option (Char × List Char)
  | '\\' :: rest => escape rest
  | c :: rest => if c.toNat < 0x20 then none else some (c, rest)
  | [] => none

theorem length_expect {word cs rest : List Char} (h : expect word cs = some rest) :
    rest.length ≤ cs.length := by
  fun_induction expect word cs with
  | case1 => simp_all
  | case2 c word cs ih =>
    have := ih h
    simp only [List.length_cons]
    omega
  | case3 => simp at h
  | case4 => simp at h

theorem length_unit {cs rest : List Char} {n : Nat} (h : unit cs = some (n, rest)) :
    rest.length < cs.length := by
  unfold unit at h
  split at h
  · simp only [Option.bind_eq_bind, Option.bind_eq_some_iff] at h
    obtain ⟨_, _, _, _, _, _, _, _, h⟩ := h
    simp only [Option.some.injEq, Prod.mk.injEq] at h
    obtain ⟨_, rfl⟩ := h
    simp only [List.length_cons]
    omega
  · simp at h

theorem length_unitEscape {cs rest : List Char} {c : Char}
    (h : unitEscape cs = some (c, rest)) : rest.length < cs.length := by
  unfold unitEscape at h
  simp only [Option.bind_eq_bind, Option.bind_eq_some_iff] at h
  obtain ⟨⟨high, rest₁⟩, h₁, h⟩ := h
  have l₁ := length_unit h₁
  dsimp only at h
  split at h
  · simp only [Option.some.injEq, Prod.mk.injEq] at h
    exact h.2 ▸ l₁
  · split at h
    · simp at h
    · simp only [Option.bind_eq_some_iff] at h
      obtain ⟨rest₂, h₂, ⟨low, rest₃⟩, h₃, h⟩ := h
      have l₂ := length_expect h₂
      have l₃ := length_unit h₃
      dsimp only at h
      split at h
      · simp at h
      · simp only [Option.some.injEq, Prod.mk.injEq] at h
        obtain ⟨_, rfl⟩ := h
        omega

theorem length_escape {cs rest : List Char} {c : Char} (h : escape cs = some (c, rest)) :
    rest.length < cs.length := by
  unfold escape at h
  split at h
  case h_9 r =>
    have := length_unitEscape h
    simp only [List.length_cons]
    omega
  case h_10 => simp at h
  all_goals
    simp only [Option.some.injEq, Prod.mk.injEq] at h
    obtain ⟨_, rfl⟩ := h
    simp

/-- A character takes at least one character of the text. -/
theorem length_character {cs rest : List Char} {c : Char}
    (h : character cs = some (c, rest)) : rest.length < cs.length := by
  unfold character at h
  split at h
  · have := length_escape h
    simp only [List.length_cons]
    omega
  · split at h
    · simp at h
    · simp only [Option.some.injEq, Prod.mk.injEq] at h
      obtain ⟨_, rfl⟩ := h
      simp
  · simp at h

/-- The characters of a string after its opening quote, and what follows the closing
one. -/
def string (cs : List Char) : Option (List Char × List Char) :=
  match cs with
  | '"' :: rest => some ([], rest)
  | cs =>
    match _h : character cs with
    | none => none
    | some (c, rest) => (string rest).map fun r => (c :: r.1, r.2)
termination_by cs.length
decreasing_by exact length_character _h

/-- A quoted string and what follows it. -/
def quoted (cs : List Char) : Option (String × List Char) :=
  match skip cs with
  | '"' :: rest => (string rest).map fun r => (.ofList r.1, r.2)
  | _ => none

/-! ### Values -/

mutual

/-- A document and what follows it. -/
def value : Nat → List Char → Option (Json × List Char)
  | 0, _ => none
  | bound + 1, cs =>
    match skip cs with
    | 'n' :: rest => (expect ['u', 'l', 'l'] rest).map (.null, ·)
    | 't' :: rest => (expect ['r', 'u', 'e'] rest).map (.bool true, ·)
    | 'f' :: rest => (expect ['a', 'l', 's', 'e'] rest).map (.bool false, ·)
    | '"' :: rest => (string rest).map fun r => (.string (.ofList r.1), r.2)
    | '[' :: rest =>
      match skip rest with
      | ']' :: rest => some (.array [], rest)
      | rest => do
        let (item, rest) ← value bound rest
        let (items, rest) ← items bound rest
        some (.array (item :: items), rest)
    | '\x7b' :: rest =>
      match skip rest with
      | '\x7d' :: rest => some (.object [], rest)
      | rest => do
        let (field, rest) ← field bound rest
        let (fields, rest) ← fields bound rest
        some (.object (field :: fields), rest)
    | cs => number cs

/-- The items of an array after one of them, up to the closing bracket. -/
def items : Nat → List Char → Option (List Json × List Char)
  | 0, _ => none
  | bound + 1, cs =>
    match skip cs with
    | ']' :: rest => some ([], rest)
    | ',' :: rest => do
      let (item, rest) ← value bound rest
      let (items, rest) ← items bound rest
      some (item :: items, rest)
    | _ => none

/-- A key, a colon and a document. -/
def field : Nat → List Char → Option ((String × Json) × List Char)
  | 0, _ => none
  | bound + 1, cs => do
    let (key, rest) ← quoted cs
    match skip rest with
    | ':' :: rest => do
      let (item, rest) ← value bound rest
      some ((key, item), rest)
    | _ => none

/-- The fields of an object after one of them, up to the closing brace. -/
def fields : Nat → List Char → Option (List (String × Json) × List Char)
  | 0, _ => none
  | bound + 1, cs =>
    match skip cs with
    | '\x7d' :: rest => some ([], rest)
    | ',' :: rest => do
      let (field, rest) ← field bound rest
      let (fields, rest) ← fields bound rest
      some (field :: fields, rest)
    | _ => none

end

end Reader

/-- The document that a text holds, with nothing but blanks around it. -/
def read (text : String) : Option Json :=
  match Reader.value (text.length + 1) text.toList with
  | some (j, rest) => if Reader.skip rest = [] then some j else none
  | none => none

end Json

end CallCapture
