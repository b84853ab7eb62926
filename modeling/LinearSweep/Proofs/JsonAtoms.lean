import LinearSweep.Json
import LinearSweep.Proofs.Numerals
import Mathlib.Data.List.Basic
import Mathlib.Data.List.TakeWhile

/-!
# Strings and numbers of JSON

The parts of a text in JSON that have a notation of their own: strings, with their escapes, and
numbers.  The readers accept every notation of the format.  `string?_escaped` and `number?_toString`
say that they take back what is written.
-/

namespace LinearSweep.Json

open Numeral

/-! ## Documents -/

/-- What a text in JSON says. -/
inductive Document where
  | null
  | truth (value : Bool)
  | integer (value : Int)
  /-- A number with a fraction or an exponent: an integer times a power of ten. -/
  | decimal (mantissa exponent : Int)
  | text (text : String)
  | array (items : List Document)
  /-- Fields with their names, in the order in which they are written. -/
  | object (fields : List (String × Document))

/-! ## Strings -/

/-- Reads the four digits of a code unit. -/
def unit? : List Char → Option (Nat × List Char)
  | a :: b :: c :: d :: behind =>
    if [a, b, c, d].all (isDigitOf 16) then some (valueOf 16 [a, b, c, d], behind) else none
  | _ => none

/-- Reads the second code unit of a character beyond the first plane. -/
def pair? (high : Nat) : List Char → Option (Char × List Char)
  | '\x5c' :: 'u' :: text => do
    let (low, behind) ← unit? text
    if high < 0xDC00 ∧ 0xDC00 ≤ low ∧ low ≤ 0xDFFF then
      some (Char.ofNat (0x10000 + (high - 0xD800) * 0x400 + (low - 0xDC00)), behind)
    else none
  | _ => none

/-- Reads the code units of one character.  A surrogate that stands alone is no character. -/
def units? (text : List Char) : Option (Char × List Char) := do
  let (unit, behind) ← unit? text
  if unit < 0xD800 ∨ 0xDFFF < unit then some (Char.ofNat unit, behind) else pair? unit behind

/-- Reads what stands behind a backslash. -/
def escaped? : List Char → Option (Char × List Char)
  | 'u' :: behind => units? behind
  | '\x22' :: behind => some ('\x22', behind)
  | '\x5c' :: behind => some ('\x5c', behind)
  | '/' :: behind => some ('/', behind)
  | 'b' :: behind => some ('\x08', behind)
  | 'f' :: behind => some ('\x0c', behind)
  | 'n' :: behind => some ('\n', behind)
  | 'r' :: behind => some ('\r', behind)
  | 't' :: behind => some ('\t', behind)
  | _ => none

/-- Reads one character of a string, which is no control character unless it is escaped. -/
def character? : List Char → Option (Char × List Char)
  | [] => none
  | '\x5c' :: behind => escaped? behind
  | c :: behind => if c.toNat < 0x20 then none else some (c, behind)

theorem length_of_unit? {text behind : List Char} {value : Nat}
    (reads : unit? text = some (value, behind)) : behind.length < text.length := by
  unfold unit? at reads
  split at reads
  next =>
    split at reads
    next =>
      cases reads
      simp only [List.length_cons]
      omega
    next => cases reads
  next => cases reads

theorem length_of_pair? {high : Nat} {text behind : List Char} {c : Char}
    (reads : pair? high text = some (c, behind)) : behind.length < text.length := by
  unfold pair? at reads
  split at reads
  next text =>
    obtain ⟨⟨low, rest⟩, second, reads⟩ := Option.bind_eq_some_iff.mp reads
    have shorter := length_of_unit? second
    dsimp only at reads
    split at reads
    next =>
      obtain ⟨-, rfl⟩ := Prod.mk.inj (Option.some.inj reads)
      simp only [List.length_cons]
      omega
    next => cases reads
  next => cases reads

theorem length_of_units? {text behind : List Char} {c : Char}
    (reads : units? text = some (c, behind)) : behind.length < text.length := by
  obtain ⟨⟨unit, rest⟩, first, reads⟩ := Option.bind_eq_some_iff.mp reads
  have shorter := length_of_unit? first
  dsimp only at reads
  split at reads
  next =>
    cases reads
    exact shorter
  next => exact Nat.lt_trans (length_of_pair? reads) shorter

theorem length_of_escaped? {text behind : List Char} {c : Char}
    (reads : escaped? text = some (c, behind)) : behind.length < text.length := by
  unfold escaped? at reads
  split at reads
  case h_1 => exact Nat.lt_succ_of_lt (length_of_units? reads)
  all_goals
    cases reads
    try exact Nat.lt_succ_self _

theorem length_of_character? {text behind : List Char} {c : Char}
    (reads : character? text = some (c, behind)) : behind.length < text.length := by
  unfold character? at reads
  split at reads
  next => cases reads
  next => exact Nat.lt_succ_of_lt (length_of_escaped? reads)
  next =>
    split at reads
    next => cases reads
    next =>
      cases reads
      exact Nat.lt_succ_self _

/-- Reads a string up to the quote that closes it. -/
def string? (text : List Char) : Option (List Char × List Char) :=
  if text.head? = some '\x22' then some ([], text.tail)
  else
    match _reads : character? text with
    | none => none
    | some (c, behind) => (string? behind).map fun (chars, behind) => (c :: chars, behind)
termination_by text.length
decreasing_by exact length_of_character? _reads

theorem length_of_string? {text chars behind : List Char}
    (reads : string? text = some (chars, behind)) : behind.length < text.length := by
  induction text using string?.induct generalizing chars with
  | case1 text quote =>
    rw [string?, if_pos quote] at reads
    cases reads
    cases text with
    | nil => cases quote
    | cons => exact Nat.lt_succ_self _
  | case2 text quote none =>
    rw [string?, if_neg quote] at reads
    split at reads
    next => cases reads
    next some => rw [none] at some; cases some
  | case3 text quote c rest first ih =>
    rw [string?, if_neg quote] at reads
    split at reads
    next => cases reads
    next c' rest' first' =>
      cases first.symm.trans first'
      obtain ⟨⟨chars', behind'⟩, reads', same⟩ := Option.map_eq_some_iff.mp reads
      cases same
      exact Nat.lt_trans (ih reads') (length_of_character? first)

/-- What is read of a string that begins with a character. -/
theorem string?_of_character? {text behind : List Char} {c : Char}
    (unclosed : text.head? ≠ some '\x22') (reads : character? text = some (c, behind)) :
    string? text = (string? behind).map fun (chars, behind) => (c :: chars, behind) := by
  rw [string?, if_neg unclosed]
  split
  next none => rw [reads] at none; cases none
  next c' behind' reads' =>
    cases reads.symm.trans reads'
    rfl

/-! ### What is written -/

theorem length_leftpad_toDigits {n : Nat} (small : n < 0x10000) :
    ((Nat.toDigits 16 n).leftpad 4 '0').length = 4 := by
  have bound : (Nat.toDigits 16 n).length ≤ 4 :=
    (Nat.length_toDigits_le_iff (by decide) (by decide)).mpr small
  rw [List.length_leftpad, Nat.max_eq_left bound]

theorem isDigitOf_of_mem_leftpad {n : Nat} {c : Char}
    (member : c ∈ (Nat.toDigits 16 n).leftpad 4 '0') : isDigitOf 16 c = true := by
  rw [List.leftpad, List.mem_append] at member
  cases member with
  | inl zero =>
    rw [(List.mem_replicate.mp zero).2]
    decide
  | inr digit =>
    obtain ⟨d, small, rfl⟩ := exists_digitChar_of_mem_toDigits (by decide) digit
    rw [isDigitOf, digitValue_digitChar small]
    exact decide_eq_true small

theorem unit?_unit {n : Nat} (small : n < 0x10000) (behind : List Char) :
    unit? ((Nat.toDigits 16 n).leftpad 4 '0' ++ behind) = some (n, behind) := by
  have digits : ((Nat.toDigits 16 n).leftpad 4 '0').all (isDigitOf 16) = true :=
    List.all_eq_true.mpr fun _ => isDigitOf_of_mem_leftpad
  have value : valueOf 16 ((Nat.toDigits 16 n).leftpad 4 '0') = n := by
    rw [List.leftpad, valueOf_replicate_append, valueOf_toDigits (by decide) (by decide)]
  -- `unit?` looks at four characters, so the digits have to be seen one by one.
  have four := length_leftpad_toDigits small
  match shape : (Nat.toDigits 16 n).leftpad 4 '0', four with
  | [a, b, c, d], _ =>
    rw [shape] at digits value
    simp only [List.cons_append, List.nil_append, unit?, digits, value, if_true]

theorem units?_of_lt {n : Nat} (small : n < 0x10000) (single : n < 0xD800 ∨ 0xDFFF < n)
    (behind : List Char) :
    units? ((Nat.toDigits 16 n).leftpad 4 '0' ++ behind) = some (Char.ofNat n, behind) := by
  rw [units?, unit?_unit small]
  exact if_pos single

theorem units?_of_pair {high low : Nat} (first : 0xD800 ≤ high ∧ high < 0xDC00)
    (second : 0xDC00 ≤ low ∧ low ≤ 0xDFFF) (behind : List Char) :
    units? ((Nat.toDigits 16 high).leftpad 4 '0' ++ (unit low ++ behind)) =
      some (Char.ofNat (0x10000 + (high - 0xD800) * 0x400 + (low - 0xDC00)), behind) := by
  have surrogate : ¬ (high < 0xD800 ∨ 0xDFFF < high) := by omega
  rw [units?, unit?_unit (by omega)]
  simp only [bind, Option.bind_some, if_neg surrogate]
  rw [unit, List.cons_append, List.cons_append, pair?, unit?_unit (by omega)]
  simp only [bind, Option.bind_some, if_pos (And.intro first.2 second)]

/-- What is written for a character is read as the character. -/
theorem character?_escape (c : Char) (behind : List Char) :
    character? (escape c ++ behind) = some (c, behind) := by
  have valid : c.toNat < 0xD800 ∨ 0xDFFF < c.toNat ∧ c.toNat < 0x110000 := c.valid
  unfold escape
  split
  -- Characters without a letter of their own are written as they are or by their code units.
  case h_8 _ backslash _ _ _ _ _ =>
    dsimp only
    split
    next printable =>
      rw [List.singleton_append, character?]
      · exact if_neg (by omega)
      · exact backslash
    next =>
      split
      next small =>
        rw [unit, List.cons_append, List.cons_append, character?, escaped?,
          units?_of_lt small (by omega), Char.ofNat_toNat]
      next large =>
        -- The units of a character beyond the first plane are those of twenty bits.
        have whole : 0x10000 + (0xD800 + (c.toNat - 0x10000) / 0x400 - 0xD800) * 0x400
            + (0xDC00 + (c.toNat - 0x10000) % 0x400 - 0xDC00) = c.toNat := by
          omega
        rw [List.append_assoc, unit, List.cons_append, List.cons_append, character?, escaped?,
          units?_of_pair (by omega) (by omega), whole, Char.ofNat_toNat]
  all_goals rfl

/-- A pair of surrogates, in either letter case. -/
example : character? "\\uD83d\\uDE00/".toList = some ('😀', ['/']) := by
  decide

theorem head?_escape (c : Char) (behind : List Char) :
    (escape c ++ behind).head? ≠ some '\x22' := by
  unfold escape
  split
  case h_8 quote _ _ _ _ _ _ =>
    dsimp only
    split
    · exact fun same => quote (Option.some.inj same)
    · split <;> exact fun same => absurd (Option.some.inj same) (by decide)
  all_goals exact fun same => absurd (Option.some.inj same) (by decide)

/-- What is written for a string is read as the string. -/
theorem string?_escaped (chars behind : List Char) :
    string? (chars.flatMap escape ++ '\x22' :: behind) = some (chars, behind) := by
  induction chars with
  | nil =>
    rw [List.flatMap_nil, List.nil_append, string?]
    rfl
  | cons c chars ih =>
    rw [List.flatMap_cons, List.append_assoc,
      string?_of_character? (head?_escape c _) (character?_escape c _), ih]
    rfl

/-! ## Numbers -/

/-- Digits of which the first one is not zero, unless it is the only one. -/
def isWhole (digits : List Char) : Bool :=
  digits ≠ [] && digits.all (isDigitOf 10) && (digits.head? ≠ some '0' || digits.length = 1)

def fraction? : List Char → Option (List Char)
  | [] => some []
  | '.' :: digits => if digits ≠ [] ∧ digits.all (isDigitOf 10) then some digits else none
  | _ => none

def isExponentMark (c : Char) : Bool :=
  c = 'e' || c = 'E'

/-- Reads the power of ten that a number is multiplied by. -/
def power? : List Char → Option Int
  | [] => some 0
  | mark :: text =>
    let digits := if text.head? = some '-' ∨ text.head? = some '+' then text.tail else text
    let power : Int := valueOf 10 digits
    if isExponentMark mark ∧ digits ≠ [] ∧ digits.all (isDigitOf 10) then
      some (if text.head? = some '-' then -power else power)
    else none

/-- Reads a number, which is an integer if it has neither a fraction nor an exponent. -/
def number? (text : List Char) : Option Document :=
  let negative := text.head? = some '-'
  let unsigned := if negative then text.tail else text
  let mantissa := unsigned.takeWhile (!isExponentMark ·)
  let whole := mantissa.takeWhile (· ≠ '.')
  if isWhole whole then do
    let fraction ← fraction? (mantissa.drop whole.length)
    let power ← power? (unsigned.drop mantissa.length)
    let value : Int := valueOf 10 (whole ++ fraction)
    let signed := if negative then -value else value
    some (if whole = unsigned then .integer signed else .decimal signed (power - fraction.length))
  else none

/-! ### What is written -/

theorem head?_toDigits {n : Nat} (positive : 0 < n) : (Nat.toDigits 10 n).head? ≠ some '0' := by
  induction n using Nat.strongRecOn with
  | _ n ih =>
    cases Nat.lt_or_ge n 10 with
    | inl small =>
      have digits : ∀ d < 10, 0 < d → [Nat.digitChar d].head? ≠ some '0' := by decide
      rw [Nat.toDigits_of_lt_base small]
      exact digits n small positive
    | inr large =>
      -- The first digit stays when the last one is taken away.
      rw [Nat.toDigits_of_base_le (by decide) large,
        List.head?_append_of_ne_nil _ Nat.toDigits_ne_nil]
      exact ih (n / 10) (Nat.div_lt_self positive (by decide)) (by omega)

theorem isDigitOf_of_mem_toDigits {n : Nat} {c : Char} (member : c ∈ Nat.toDigits 10 n) :
    isDigitOf 10 c = true := by
  obtain ⟨d, small, rfl⟩ := exists_digitChar_of_mem_toDigits (by decide) member
  rw [isDigitOf, digitValue_digitChar (by omega)]
  exact decide_eq_true small

theorem isWhole_toDigits (n : Nat) : isWhole (Nat.toDigits 10 n) = true := by
  have digits : (Nat.toDigits 10 n).all (isDigitOf 10) = true :=
    List.all_eq_true.mpr fun _ => isDigitOf_of_mem_toDigits
  have leading : (Nat.toDigits 10 n).head? ≠ some '0' ∨ (Nat.toDigits 10 n).length = 1 := by
    cases n with
    | zero => exact .inr rfl
    | succ n => exact .inl (head?_toDigits n.succ_pos)
  simp [isWhole, Nat.toDigits_ne_nil, digits, leading]

theorem takeWhile_digits {digits : List Char} (numeral : ∀ c ∈ digits, isDigitOf 10 c = true)
    {goesOn : Char → Bool} (digit : ∀ c, isDigitOf 10 c = true → goesOn c = true) :
    digits.takeWhile goesOn = digits :=
  List.takeWhile_eq_self_iff.mpr fun c member => digit c (numeral c member)

/-- Digits are read as an integer, with a sign in front of them or without one. -/
theorem number?_of_whole {text digits : List Char} (whole : isWhole digits = true)
    (unsigned : (if text.head? = some '-' then text.tail else text) = digits) :
    number? text = some (.integer
      (if text.head? = some '-' then -(valueOf 10 digits : Int) else valueOf 10 digits)) := by
  have numeral : ∀ c ∈ digits, isDigitOf 10 c = true := by
    simp only [isWhole, Bool.and_eq_true, List.all_eq_true] at whole
    exact whole.1.2
  have mantissa : digits.takeWhile (!isExponentMark ·) = digits := by
    refine takeWhile_digits numeral fun c digit => ?_
    rw [Bool.not_eq_true', isExponentMark, Bool.or_eq_false_iff, decide_eq_false_iff_not,
      decide_eq_false_iff_not]
    constructor <;> (rintro rfl; exact absurd digit (by decide))
  have point : digits.takeWhile (· ≠ '.') = digits := by
    refine takeWhile_digits numeral fun c digit => decide_eq_true ?_
    rintro rfl
    exact absurd digit (by decide)
  simp only [number?, unsigned, mantissa, point, whole, if_true, List.drop_length, fraction?,
    power?]
  simp

theorem toList_toString_ofNat (n : Nat) :
    (toString (Int.ofNat n)).toList = Nat.toDigits 10 n := by
  have digits : toString (Int.ofNat n) = String.ofList (Nat.toDigits 10 n) := rfl
  rw [digits, String.toList_ofList]

theorem toList_toString_negSucc (n : Nat) :
    (toString (Int.negSucc n)).toList = '-' :: Nat.toDigits 10 (n + 1) := by
  have sign : toString (Int.negSucc n) = "-" ++ toString (Int.ofNat (n + 1)) := rfl
  rw [sign, String.toList_append, toList_toString_ofNat]
  rfl

/-- What is written for an integer is read as the integer. -/
theorem number?_toString (n : Int) : number? (toString n).toList = some (.integer n) := by
  have value (n : Nat) : valueOf 10 (Nat.toDigits 10 n) = n :=
    valueOf_toDigits (by decide) (by decide) n
  cases n with
  | ofNat n =>
    have positive : (Nat.toDigits 10 n).head? ≠ some '-' := by
      intro sign
      exact absurd (isDigitOf_of_mem_toDigits (List.mem_of_mem_head? sign)) (by decide)
    rw [toList_toString_ofNat, number?_of_whole (isWhole_toDigits n) (if_neg positive),
      if_neg positive, value]
    rfl
  | negSucc n =>
    rw [toList_toString_negSucc, number?_of_whole (isWhole_toDigits (n + 1)) (if_pos rfl), value]
    rfl

/-- Numbers with a fraction and an exponent, and texts that are no numbers. -/
example : number? "-2.50E+1".toList = some (.decimal (-250) (-1)) ∧
    ["01", "+1", ".5", "1.", "1e", "-"].all (fun text => (number? text.toList).isNone) = true :=
  ⟨rfl, by decide⟩

/-- The characters that an integer is written with. -/
theorem mem_numerals {n : Int} {c : Char} (member : c ∈ (toString n).toList) :
    c ∈ "-0123456789".toList := by
  have digits (n : Nat) : ∀ c ∈ Nat.toDigits 10 n, c ∈ "-0123456789".toList := by
    intro c digit
    obtain ⟨d, small, rfl⟩ := exists_digitChar_of_mem_toDigits (by decide) digit
    have numerals : ∀ d < 10, Nat.digitChar d ∈ "-0123456789".toList := by decide
    exact numerals d small
  cases n with
  | ofNat n =>
    rw [toList_toString_ofNat] at member
    exact digits n c member
  | negSucc n =>
    rw [toList_toString_negSucc] at member
    cases List.mem_cons.mp member with
    | inl sign =>
      rw [sign]
      decide
    | inr digit => exact digits (n + 1) c digit

end LinearSweep.Json
