import LinearSweep.Text.Quoted

/-!
# Raw text

Arguments, names of files and values of variables are handed over as bytes.  Read as UTF-8 they are
text, apart from the bytes that belong to no character.  These are kept, so that every name leads to
its file; but what holds one of them cannot be encoded in UTF-8 as a text.
-/

namespace LinearSweep

inductive RawChar where
  | char (c : Char)
  /-- A byte that belongs to no character, by its low seven bits; the high bit is set. -/
  | byte (low : Fin 0x80)
  deriving DecidableEq, Repr

abbrev RawText := List RawChar

namespace RawChar

def char? : RawChar → Option Char
  | char c => some c
  | byte _ => none

def size : RawChar → Nat
  | char c => c.utf8Size
  | byte _ => 1

/-- A byte is shown by the number of a surrogate, which no character has. -/
def escaped : RawChar → List Char
  | char c => [c]
  | byte low => Text.codePoint (0xDC80 + low)

def quoted (mark : Char) : RawChar → List Char
  | char c => Text.quoteChar mark c
  | byte low => escaped (byte low)

end RawChar

namespace RawText

def ofString (text : String) : RawText :=
  text.toList.map .char

instance : Coe String RawText :=
  ⟨ofString⟩

/-- The size in UTF-8. -/
def size : RawText → Nat
  | [] => 0
  | c :: raw => c.size + size raw

/-- The characters, if there is nothing else. -/
def chars? : RawText → Option (List Char)
  | [] => some []
  | .char c :: raw => (chars? raw).map (c :: ·)
  | .byte _ :: _ => none

def text? (raw : RawText) : Option String :=
  (chars? raw).map String.ofList

def escaped (raw : RawText) : String :=
  String.ofList (raw.flatMap RawChar.escaped)

def quoted (raw : RawText) : String :=
  let mark := Text.quoteMark (raw.filterMap RawChar.char?)
  String.ofList (mark :: raw.flatMap (RawChar.quoted mark) ++ [mark])

/-! ## Replacing bytes -/

/-- The bytes that may follow others: how many, and the range of the first of them. -/
structure Following where
  count : Nat := 0
  least : Nat := 0x80
  greatest : Nat := 0xBF

/-- What may follow the first byte of a character without completing the character. -/
def Following.ofFirst (byte : Nat) : Following :=
  if byte = 0xE0 then { count := 1, least := 0xA0 }
  else if byte = 0xED then { count := 1, greatest := 0x9F }
  else if byte = 0xF0 then { count := 2, least := 0x90 }
  else if byte = 0xF4 then { count := 2, greatest := 0x8F }
  else if 0xE1 ≤ byte ∧ byte ≤ 0xEF then { count := 1 }
  else if 0xF1 ≤ byte ∧ byte ≤ 0xF3 then { count := 2 }
  else {}

def replaceBytes : Following → RawText → List Char
  | _, [] => []
  | _, .char c :: raw => c :: replaceBytes {} raw
  | following, .byte low :: raw =>
    let byte := 0x80 + low.val
    if 0 < following.count ∧ following.least ≤ byte ∧ byte ≤ following.greatest then
      replaceBytes { count := following.count - 1 } raw
    else '\ufffd' :: replaceBytes (.ofFirst byte) raw

/-- The text with a replacement character for each incomplete character. -/
def replaced (raw : RawText) : String :=
  String.ofList (replaceBytes {} raw)

/-! ## Text -/

@[simp] theorem chars?_ofString (text : String) : chars? text = some text.toList := by
  unfold ofString
  induction text.toList with
  | nil => rfl
  | cons c list ih => rw [List.map_cons, chars?, ih, Option.map_some]

@[simp] theorem text?_ofString (text : String) : text? text = some text := by
  rw [text?, chars?_ofString, Option.map_some, String.ofList_toList]

theorem eq_map_of_chars? {raw : RawText} {text : List Char} (read : chars? raw = some text) :
    raw = text.map .char := by
  induction raw generalizing text with
  | nil =>
    cases read
    rfl
  | cons c raw ih =>
    cases c with
    | byte => cases read
    | char c =>
      obtain ⟨rest, behind, rfl⟩ := Option.map_eq_some_iff.mp read
      rw [List.map_cons, ← ih behind]

theorem not_mem_of_text? {raw : RawText} {text : String} {c : Char} (whole : raw.text? = some text)
    (absent : .char c ∉ raw) : c ∉ text.toList := by
  obtain ⟨chars, read, rfl⟩ := Option.map_eq_some_iff.mp whole
  rw [eq_map_of_chars? read] at absent
  rw [String.toList_ofList]
  exact fun member => absent (List.mem_map_of_mem member)

end RawText

end LinearSweep
