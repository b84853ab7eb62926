import LinearSweep.Proofs.JsonAtoms
import Mathlib.Data.List.Forall2

/-!
# Tokens of JSON

A text in JSON is cut into tokens: marks, and atoms, which are the values that have no parts.
Space separates tokens and is otherwise skipped.  `Spells` says of a piece of a text which tokens it
holds, whatever follows it; pieces are put together as the layout of a report does it, up to
`spells_render`.
-/

namespace LinearSweep.Json

/-! ## Tokens -/

inductive Mark where
  | openArray
  | closeArray
  | openObject
  | closeObject
  | comma
  | colon
  deriving DecidableEq, Repr

namespace Mark

def all : List Mark :=
  [openArray, closeArray, openObject, closeObject, comma, colon]

def char : Mark → Char
  | openArray => '['
  | closeArray => ']'
  | openObject => '\x7b'
  | closeObject => '\x7d'
  | comma => ','
  | colon => ':'

def ofChar? (c : Char) : Option Mark :=
  all.find? (·.char == c)

@[simp] theorem ofChar?_char (m : Mark) : ofChar? m.char = some m := by
  cases m <;> decide

end Mark

inductive Token where
  | mark (mark : Mark)
  /-- A value without parts. -/
  | atom (document : Document)

/-- A character that separates tokens without being one. -/
def isSpace (c : Char) : Bool :=
  c = ' ' || c = '\t' || c = '\n' || c = '\r'

/-- A character with which an atom that is no string goes on. -/
def goesOn (c : Char) : Bool :=
  !isSpace c && (Mark.ofChar? c).isNone && c ≠ '\x22'

/-- Reads an atom that is no string. -/
def atom? (text : List Char) : Option Document :=
  if text = "null".toList then some .null
  else if text = "true".toList then some (.truth true)
  else if text = "false".toList then some (.truth false)
  else number? text

/-- Cuts a text into tokens. -/
def tokens? (text : List Char) : Option (List Token) :=
  match text with
  | [] => some []
  | c :: behind =>
    if isSpace c then tokens? behind
    else
      match Mark.ofChar? c with
      | some mark => (tokens? behind).map (.mark mark :: ·)
      | none =>
        if c = '\x22' then
          match _reads : string? behind with
          | none => none
          | some (chars, behind) =>
            (tokens? behind).map (.atom (.text (String.ofList chars)) :: ·)
        else do
          let document ← atom? (c :: behind.takeWhile goesOn)
          let others ← tokens? (behind.dropWhile goesOn)
          return .atom document :: others
termination_by text.length
decreasing_by
  · exact Nat.lt_succ_self _
  · exact Nat.lt_succ_self _
  · exact Nat.lt_succ_of_lt (length_of_string? _reads)
  · exact Nat.lt_succ_of_le (List.dropWhile_suffix goesOn).length_le

theorem tokens?_space {c : Char} (space : isSpace c = true) (behind : List Char) :
    tokens? (c :: behind) = tokens? behind := by
  rw [tokens?, if_pos space]

theorem tokens?_spaces {spaces : List Char} (blank : ∀ c ∈ spaces, isSpace c = true)
    (behind : List Char) : tokens? (spaces ++ behind) = tokens? behind := by
  induction spaces with
  | nil => rfl
  | cons c spaces ih =>
    rw [List.cons_append, tokens?_space (blank c List.mem_cons_self),
      ih fun c member => blank c (List.mem_cons_of_mem _ member)]

theorem tokens?_mark (mark : Mark) (behind : List Char) :
    tokens? (mark.char :: behind) = (tokens? behind).map (.mark mark :: ·) := by
  have solid : ¬ isSpace mark.char = true := by cases mark <;> decide
  rw [tokens?, if_neg solid, Mark.ofChar?_char]

theorem tokens?_string {text behind chars : List Char}
    (reads : string? text = some (chars, behind)) :
    tokens? ('\x22' :: text) =
      (tokens? behind).map (.atom (.text (String.ofList chars)) :: ·) := by
  have unmarked : Mark.ofChar? '\x22' = none := by decide
  rw [tokens?, if_neg (by decide), unmarked]
  dsimp only
  rw [if_pos rfl]
  split
  next none => rw [reads] at none; cases none
  next reads' =>
    cases reads.symm.trans reads'
    rfl

/-- An atom ends where the text does not go on with it. -/
theorem tokens?_atom {text behind : List Char} {document : Document} (filled : text ≠ [])
    (solid : ∀ c ∈ text, goesOn c = true) (ends : ∀ c ∈ behind.head?, goesOn c = false)
    (reads : atom? text = some document) :
    tokens? (text ++ behind) = (tokens? behind).map (.atom document :: ·) := by
  obtain ⟨c, rest, rfl⟩ := List.exists_cons_of_ne_nil filled
  obtain ⟨⟨visible, unmarked⟩, unquoted⟩ :
      (isSpace c = false ∧ Mark.ofChar? c = none) ∧ c ≠ '\x22' := by
    simpa [goesOn] using solid c List.mem_cons_self
  have others : ∀ c ∈ rest, goesOn c = true := fun c member =>
    solid c (List.mem_cons_of_mem _ member)
  have front : (rest ++ behind).takeWhile goesOn = rest := by
    rw [List.takeWhile_append_of_pos others]
    cases behind with
    | nil => exact List.append_nil rest
    | cons next behind =>
      rw [List.takeWhile_cons_of_neg (by simp [ends next rfl]), List.append_nil]
  have back : (rest ++ behind).dropWhile goesOn = behind := by
    rw [List.dropWhile_append_of_pos others]
    cases behind with
    | nil => rfl
    | cons next behind => exact List.dropWhile_cons_of_neg (by simp [ends next rfl])
  rw [List.cons_append, tokens?, if_neg (by simp [visible]), unmarked]
  dsimp only
  rw [if_neg unquoted, front, back, reads]
  cases tokens? behind <;> rfl

/-! ## Pieces of a text -/

/-- No atom goes on into a text. -/
def Apart (text : List Char) : Prop :=
  ∀ c ∈ text.head?, goesOn c = false

@[simp] theorem apart_cons {c : Char} {text : List Char} :
    Apart (c :: text) ↔ goesOn c = false := by
  simp [Apart]

/-- A piece of a text holds tokens, whatever follows it. -/
def Spells (piece : String) (tokens : List Token) : Prop :=
  ∀ behind, Apart behind →
    tokens? (piece.toList ++ behind) = (tokens? behind).map (tokens ++ ·)

theorem Spells.append {piece other : String} {tokens tokens' : List Token}
    (spelled : Spells piece tokens) (spelled' : Spells other tokens')
    (apart : ∀ behind, Apart behind → Apart (other.toList ++ behind)) :
    Spells (piece ++ other) (tokens ++ tokens') := by
  intro behind ends
  rw [String.toList_append, List.append_assoc, spelled _ (apart behind ends),
    spelled' behind ends, Option.map_map]
  congr 1
  funext others
  exact (List.append_assoc tokens tokens' others).symm

theorem spells_string (text : String) : Spells (string text) [.atom (.text text)] := by
  intro behind _
  have written : (string text).toList ++ behind =
      '\x22' :: (text.toList.flatMap escape ++ '\x22' :: behind) := by
    simp [string]
  rw [written, tokens?_string (string?_escaped _ _), String.ofList_toList]
  rfl

theorem atom?_toString (n : Int) : atom? (toString n).toList = some (.integer n) := by
  have noWord {word : List Char} {c : Char} (member : c ∈ word)
      (letter : c ∉ "-0123456789".toList) : (toString n).toList ≠ word := by
    rintro rfl
    exact letter (mem_numerals member)
  have null : 'l' ∈ "null".toList := by decide
  have truth : 'e' ∈ "true".toList ∧ 'e' ∈ "false".toList := by decide
  rw [atom?, if_neg (noWord null (by decide)), if_neg (noWord truth.1 (by decide)),
    if_neg (noWord truth.2 (by decide)), number?_toString]

theorem spells_integer (n : Int) : Spells (toString n) [.atom (.integer n)] := by
  intro behind apart
  have solid : "-0123456789".toList.all goesOn = true := by decide
  refine tokens?_atom ?_ (fun c member => List.all_eq_true.mp solid c (mem_numerals member)) apart
    (atom?_toString n)
  cases n with
  | ofNat n =>
    rw [toList_toString_ofNat]
    exact Nat.toDigits_ne_nil
  | negSucc n =>
    rw [toList_toString_negSucc]
    exact List.cons_ne_nil _ _

/-! ## Layout -/

/-- Parts with commas between them. -/
def separated (parts : List (List Token)) : List Token :=
  [.mark .comma].intercalate parts

/-- Parts with commas between them, between two brackets. -/
def bracketed (opening closing : Mark) (parts : List (List Token)) : List Token :=
  .mark opening :: (separated parts ++ [.mark closing])

@[simp] theorem separated_singleton (part : List Token) : separated [part] = part := by
  simp [separated]

theorem separated_cons_cons (part next : List Token) (parts : List (List Token)) :
    separated (part :: next :: parts) = part ++ .mark .comma :: separated (next :: parts) := by
  simp [separated, List.intercalate_cons_cons]

theorem newline_eq (level : Nat) :
    (newline level).toList = '\n' :: List.replicate (2 * level) ' ' := by
  simp [newline]

theorem tokens?_newline (level : Nat) (behind : List Char) :
    tokens? ((newline level).toList ++ behind) = tokens? behind := by
  apply tokens?_spaces
  intro c member
  rw [newline_eq, List.mem_cons, List.mem_replicate] at member
  obtain rfl | ⟨-, rfl⟩ := member <;> decide

theorem apart_newline (level : Nat) (piece : String) (behind : List Char) :
    Apart ((newline level ++ piece).toList ++ behind) := by
  rw [String.toList_append, newline_eq]
  exact apart_cons.mpr (by decide)

/-- A mark with a piece on a line below it. -/
theorem Spells.below {piece text : String} {tokens : List Token} {mark : Mark}
    (spelled : Spells piece tokens) (marks : text.toList = [mark.char]) (level : Nat) :
    Spells (text ++ newline level ++ piece) (.mark mark :: tokens) := by
  intro behind ends
  rw [String.toList_append, String.toList_append, marks, List.append_assoc, List.append_assoc,
    List.singleton_append, tokens?_mark, tokens?_newline, spelled behind ends, Option.map_map]
  rfl

theorem spells_closing {text : String} {mark : Mark} (marks : text.toList = [mark.char])
    (level : Nat) : Spells (newline level ++ text) [.mark mark] := by
  intro behind _
  rw [String.toList_append, List.append_assoc, tokens?_newline, marks, List.singleton_append,
    tokens?_mark]
  rfl

theorem spells_empty : Spells "" [] := by
  intro behind _
  exact (congrFun Option.map_id (tokens? behind)).symm

/-- Pieces on lines of their own, with commas between them. -/
theorem spells_intercalate {items : List String} {parts : List (List Token)} (level : Nat)
    (spelled : List.Forall₂ Spells items parts) :
    Spells (("," ++ newline level).intercalate items) (separated parts) := by
  induction spelled with
  | nil => exact spells_empty
  | @cons item part items parts first others ih =>
    cases others with
    | nil => simpa using first
    | @cons next part' items parts second others =>
      have comma : ",".toList = [Mark.comma.char] := by decide
      have text : ("," ++ newline level).intercalate (item :: next :: items) =
          item ++ ("," ++ newline level ++ ("," ++ newline level).intercalate (next :: items)) := by
        rw [String.intercalate_cons_cons, String.append_assoc]
      rw [text, separated_cons_cons]
      -- The comma keeps the first item apart from those behind it.
      refine first.append (ih.below comma level) fun behind _ => ?_
      rw [String.append_assoc, String.toList_append, comma]
      exact apart_cons.mpr (by decide)

/-- Pieces between two brackets. -/
theorem spells_enclose {items : List String} {parts : List (List Token)}
    {opening closing : String} {left right : Mark} (level : Nat)
    (spelled : List.Forall₂ Spells items parts) (opens : opening.toList = [left.char])
    (closes : closing.toList = [right.char]) :
    Spells (enclose level opening closing items) (bracketed left right parts) := by
  unfold enclose
  split
  next none =>
    obtain rfl := List.isEmpty_iff.mp none
    cases spelled
    intro behind _
    rw [String.toList_append, opens, closes, List.append_assoc, List.singleton_append,
      List.singleton_append, tokens?_mark, tokens?_mark, Option.map_map]
    rfl
  next =>
    -- A line feed keeps the last item apart from the closing bracket.
    have inner := (spells_intercalate (level + 1) spelled).append
      (spells_closing closes level) fun behind _ => apart_newline level closing behind
    have outer := inner.below opens (level + 1)
    rw [← String.append_assoc, ← String.append_assoc] at outer
    exact outer

/-! ## Reports -/

/-- The tokens of a value. -/
def Value.tokens : Value → List Token
  | .text content => [.atom (.text content)]
  | .number n => [.atom (.integer n)]
  | .texts items => bracketed .openArray .closeArray (items.map fun item => [.atom (.text item)])

def fieldTokens (field : String × Value) : List Token :=
  .atom (.text field.1) :: .mark .colon :: field.2.tokens

def recordTokens (fields : Record) : List Token :=
  bracketed .openObject .closeObject (fields.map fieldTokens)

def reportTokens (records : List Record) : List Token :=
  bracketed .openArray .closeArray (records.map recordTokens)

theorem forall₂_map {α β γ : Type} {related : β → γ → Prop} {f : α → β} {g : α → γ} {xs : List α}
    (each : ∀ x ∈ xs, related (f x) (g x)) : List.Forall₂ related (xs.map f) (xs.map g) := by
  rw [List.forall₂_map_left_iff, List.forall₂_map_right_iff, List.forall₂_same]
  exact each

theorem opens_array : "[".toList = [Mark.openArray.char] := by
  decide

theorem closes_array : "]".toList = [Mark.closeArray.char] := by
  decide

theorem spells_value (level : Nat) (content : Value) :
    Spells (value level content) content.tokens := by
  cases content with
  | text text => exact spells_string text
  | number n => exact spells_integer n
  | texts items =>
    exact spells_enclose level (forall₂_map fun item _ => spells_string item)
      opens_array closes_array

theorem spells_field (name : String) (content : Value) :
    Spells (string name ++ ": " ++ value 2 content) (fieldTokens (name, content)) := by
  have colon : ": ".toList = [Mark.colon.char, ' '] := by decide
  have behind : Spells (": " ++ value 2 content) (.mark .colon :: content.tokens) := by
    intro behind ends
    rw [String.toList_append, colon, List.append_assoc, List.cons_append, List.singleton_append,
      tokens?_mark, tokens?_space (by decide), spells_value 2 content behind ends, Option.map_map]
    rfl
  rw [String.append_assoc]
  refine (spells_string name).append behind fun behind _ => ?_
  rw [String.toList_append, colon]
  exact apart_cons.mpr (by decide)

theorem spells_record (fields : Record) : Spells (record fields) (recordTokens fields) := by
  have opens : "\x7b".toList = [Mark.openObject.char] := by decide
  have closes : "\x7d".toList = [Mark.closeObject.char] := by decide
  exact spells_enclose 1 (forall₂_map fun (name, content) _ => spells_field name content)
    opens closes

theorem spells_render (records : List Record) : Spells (render records) (reportTokens records) :=
  spells_enclose 0 (forall₂_map fun fields _ => spells_record fields) opens_array closes_array

end LinearSweep.Json
