import LinearSweep.HexDump
import LinearSweep.Json
import LinearSweep.Proofs.Decoding
import LinearSweep.Proofs.Numerals
import LinearSweep.Sweep.Listing

/-!
# Characters of reports

Whatever is shown of an instruction is made of visible ASCII characters without a full stop.  So no
line of a listing is broken or can be mistaken for the mark at its end, a report in JSON holds no
such mark, and nothing is lost when either is printed.  A hex dump may hold full stops but is
visible as well.
-/

namespace LinearSweep

namespace Text

/-- Every character of a text is of a kind. -/
def Consists (kind : Char → Bool) (text : String) : Prop :=
  ∀ c ∈ text.toList, kind c = true

instance (kind : Char → Bool) (text : String) : Decidable (Consists kind text) :=
  decidable_of_iff (text.toList.all kind = true) List.all_eq_true

section

variable {kind : Char → Bool} {text other : String}

@[simp] theorem consists_append :
    Consists kind (text ++ other) ↔ Consists kind text ∧ Consists kind other := by
  simp only [Consists, String.toList_append, List.mem_append, or_imp, forall_and]

@[simp] theorem consists_empty : Consists kind "" := by
  simp [Consists]

theorem consists_ofList {chars : List Char} :
    Consists kind (String.ofList chars) ↔ ∀ c ∈ chars, kind c = true := by
  rw [Consists, String.toList_ofList]

theorem consists_intercalate {texts : List String} (separated : Consists kind text)
    (all : ∀ t ∈ texts, Consists kind t) : Consists kind (text.intercalate texts) := by
  induction texts with
  | nil => simp
  | cons first texts ih =>
    have others := ih fun t member => all t (List.mem_cons_of_mem _ member)
    have front := all first List.mem_cons_self
    cases texts with
    | nil => simpa using front
    | cons second texts =>
      rw [String.intercalate_cons_cons]
      simp [front, separated, others]

theorem Consists.mono {wider : Char → Bool} (consists : Consists kind text)
    (within : ∀ c, kind c = true → wider c = true) : Consists wider text :=
  fun c member => within c (consists c member)

theorem Consists.not_mem {c : Char} (consists : Consists kind text) (outside : kind c = false) :
    c ∉ text.toList := by
  intro member
  rw [consists c member] at outside
  cases outside

end

/-- The characters of ASCII that are no controls. -/
def isVisible (c : Char) : Bool :=
  0x20 ≤ c.toNat && c.toNat < 0x7F

/-- The visible characters apart from the full stop. -/
def isPlain (c : Char) : Bool :=
  isVisible c && c ≠ '.'

end Text

open Text

theorem Numeral.isPlain_of_isHexChar {c : Char} (hex : isHexChar c = true) : isPlain c = true := by
  rw [isHexChar, Bool.or_eq_true, beq_iff_eq] at hex
  cases hex with
  | inl digit =>
    have wide : isDigitOf 36 c = true :=
      decide_eq_true (Nat.lt_trans (of_decide_eq_true digit) (by decide))
    have code := code_of_isDigitOf wide
    have other : c ≠ '.' := by
      rintro rfl
      exact absurd digit (by decide)
    simp only [isPlain, isVisible, Bool.and_eq_true, decide_eq_true_eq]
    exact ⟨by omega, other⟩
  | inr sign =>
    subst sign
    decide


/-! ## Numerals -/

namespace Numeral

theorem consists_hex {width : Nat} {value : Int} :
    Consists isPlain (String.ofList (hex width value)) :=
  consists_ofList.mpr fun _ member => isPlain_of_isHexChar (isHexChar_of_mem_hex member)

theorem consists_hexByte {byte : UInt8} : Consists isPlain (hexByte byte) :=
  consists_hex

theorem consists_hexBytes {bytes : List UInt8} : Consists isPlain (hexBytes bytes) := by
  apply consists_intercalate (by decide)
  intro text member
  obtain ⟨byte, -, rfl⟩ := List.mem_map.mp member
  exact consists_hexByte

theorem consists_hexAddress (address : Int) : Consists isPlain (hexAddress address) :=
  consists_append.mpr ⟨by decide, consists_hex⟩

theorem consists_toString_nat (n : Nat) : Consists isPlain (toString n) := by
  intro c member
  have digits : c ∈ Nat.toDigits 10 n := by
    simpa [toString, Nat.repr] using member
  obtain ⟨d, small, rfl⟩ := exists_digitChar_of_mem_toDigits (by decide) digits
  have plain : ∀ d < 10, isPlain (Nat.digitChar d) = true := by decide
  exact plain d small

theorem consists_toString_int (n : Int) : Consists isPlain (toString n) := by
  cases n with
  | ofNat n => exact consists_toString_nat n
  | negSucc n => exact consists_append.mpr ⟨by decide, consists_toString_nat (n + 1)⟩

end Numeral

theorem consists_padded {kind : Char → Bool} {text : String} {width : Nat} (space : kind ' ' = true)
    (consists : Consists kind text) :
    Consists kind (String.ofList (text.toList.rightpad width ' ')) := by
  rw [consists_ofList]
  intro c member
  rw [List.rightpad, List.mem_append] at member
  cases member with
  | inl inside => exact consists c inside
  | inr padding => rw [(List.mem_replicate.mp padding).2, space]

/-! ## Instructions -/

theorem Operand.consists_text (mode : Mode) (value : Int) :
    Consists isPlain (Operand.text mode value) := by
  have marks : ∀ t ∈ mode.template?, Consists isPlain t.1 ∧ Consists isPlain t.2 := by
    cases mode <;> decide
  unfold Operand.text
  split
  · rename_i before after template
    obtain ⟨front, behind⟩ := marks _ template
    rw [consists_append, consists_append]
    exact ⟨⟨front, Numeral.consists_hex⟩, behind⟩
  · split <;> decide

namespace Instruction

/-- Whatever an instruction is shown with is plain. -/
structure IsPlain (i : Instruction) : Prop where
  mnemonic : Consists isPlain i.mnemonic
  operand : Consists isPlain i.operand

theorem isPlain_ofBytes {offset : Nat} {opcode : UInt8} {behind : List UInt8} :
    (ofBytes offset opcode behind).IsPlain := by
  have name (m : Mnemonic) : Consists isPlain m.name := by
    cases m <;> decide
  have marks : Consists isPlain unknownText ∧ Consists isPlain Operand.truncatedText := by
    decide
  unfold ofBytes
  split
  · exact ⟨marks.1, consists_empty⟩
  · rename_i mnemonic mode _
    have operand := Operand.consists_text mode
    repeat' split
    · exact ⟨name mnemonic, operand 0⟩
    · exact ⟨name mnemonic, consists_empty⟩
    · exact ⟨name mnemonic, marks.2⟩
    · exact ⟨name mnemonic, operand _⟩

variable {i : Instruction}

theorem IsPlain.text (plain : i.IsPlain) : Consists isPlain i.text := by
  rw [Instruction.text]
  split
  · exact plain.mnemonic
  · rw [consists_append, consists_append]
    exact ⟨⟨plain.mnemonic, by decide⟩, plain.operand⟩

theorem IsPlain.line (plain : i.IsPlain) (base : Int) (showBytes : Bool) :
    Consists isPlain (i.line base showBytes) := by
  have address : Consists isPlain (i.addressText base) := Numeral.consists_hexAddress _
  have bytes : Consists isPlain i.bytesColumn :=
    consists_padded (by decide) Numeral.consists_hexBytes
  have marks : Consists isPlain ": " ∧ Consists isPlain "  " := by decide
  rw [Instruction.line]
  split <;> simp [address, bytes, marks, plain.text]

end Instruction

/-- The instructions of a sweep are plain. -/
theorem Cursor.isPlain_of_mem {c : Cursor} {i : Instruction} (member : i ∈ c.instructions) :
    i.IsPlain := by
  rw [instructions_eq_decode] at member
  obtain ⟨offset, opcode, behind, rfl, -⟩ := ofBytes_of_mem_decode member
  exact Instruction.isPlain_ofBytes

/-! ## Records -/

namespace Json

/-- A character of a report in JSON: plain, or the end of a line. -/
def isJsonChar (c : Char) : Bool :=
  isPlain c || c == '\n'

theorem isJsonChar_of_isPlain {c : Char} (plain : isPlain c = true) : isJsonChar c = true := by
  rw [isJsonChar, plain, Bool.true_or]

theorem isPlain_of_mem_escape {c d : Char} (plain : isPlain c = true) (member : d ∈ escape c) :
    isPlain d = true := by
  have code : 0x20 ≤ c.toNat ∧ c.toNat < 0x7F := by
    simp only [isPlain, isVisible, Bool.and_eq_true, decide_eq_true_eq] at plain
    exact plain.1
  unfold escape at member
  split at member
  case h_8 =>
    rw [if_pos code, List.mem_singleton] at member
    rw [member]
    exact plain
  -- What a character is replaced by are two plain ones.
  all_goals
    simp only [List.mem_cons, List.not_mem_nil, or_false] at member
    obtain rfl | rfl := member <;> decide

theorem consists_string {text : String} (plain : Consists isPlain text) :
    Consists isPlain (string text) := by
  rw [string, consists_ofList]
  intro c member
  simp only [List.mem_append, List.mem_cons, List.mem_flatMap, List.not_mem_nil,
    or_false] at member
  obtain (rfl | ⟨d, inside, escaped⟩) | rfl := member
  · decide
  · exact isPlain_of_mem_escape (plain d inside) escaped
  · decide

theorem consists_newline (level : Nat) : Consists isJsonChar (newline level) := by
  rw [newline, consists_append]
  refine ⟨by decide, consists_ofList.mpr fun c member => ?_⟩
  obtain ⟨-, rfl⟩ := List.mem_replicate.mp member
  decide

theorem consists_enclose {level : Nat} {opening closing : String} {items : List String}
    (marks : Consists isJsonChar opening ∧ Consists isJsonChar closing)
    (all : ∀ item ∈ items, Consists isJsonChar item) :
    Consists isJsonChar (enclose level opening closing items) := by
  have comma : Consists isJsonChar "," := by decide
  have between : Consists isJsonChar ("," ++ newline (level + 1)) :=
    consists_append.mpr ⟨comma, consists_newline _⟩
  rw [enclose]
  split
  · exact consists_append.mpr marks
  · simp [marks, consists_newline, consists_intercalate between all]

/-- The texts of a value are plain. -/
def Value.IsPlain : Value → Prop
  | .text t => Consists isPlain t
  | .number _ => True
  | .texts ts => ∀ t ∈ ts, Consists isPlain t

theorem consists_value {content : Value} (plain : content.IsPlain) (level : Nat) :
    Consists isJsonChar (value level content) := by
  have string {text : String} (plain : Consists isPlain text) : Consists isJsonChar (string text) :=
    (consists_string plain).mono fun _ => isJsonChar_of_isPlain
  cases content with
  | text text => exact string plain
  | number number =>
    exact (Numeral.consists_toString_int number).mono fun _ => isJsonChar_of_isPlain
  | texts texts =>
    apply consists_enclose (by decide)
    intro item member
    obtain ⟨text, inside, rfl⟩ := List.mem_map.mp member
    exact string (plain text inside)

theorem consists_render {records : List Record}
    (plain : ∀ fields ∈ records, ∀ field ∈ fields, Consists isPlain field.1 ∧ field.2.IsPlain) :
    Consists isJsonChar (render records) := by
  apply consists_enclose (by decide)
  intro item member
  obtain ⟨fields, inside, rfl⟩ := List.mem_map.mp member
  apply consists_enclose (by decide)
  intro item member
  obtain ⟨⟨name, content⟩, field, rfl⟩ := List.mem_map.mp member
  obtain ⟨plainName, plainContent⟩ := plain fields inside _ field
  have front := (consists_string plainName).mono fun _ => isJsonChar_of_isPlain
  have colon : Consists isJsonChar ": " := by decide
  simp [front, colon, consists_value plainContent]

end Json

theorem Instruction.IsPlain.record {i : Instruction} (plain : i.IsPlain) (base : Int) :
    ∀ field ∈ i.record base, Consists isPlain field.1 ∧ field.2.IsPlain := by
  have mode : Consists isPlain i.mode.name := by
    cases i.mode <;> decide
  have status : Consists isPlain i.status.name := by
    cases i.status <;> decide
  have dollar : Consists isPlain "$" := by decide
  have address : Consists isPlain (i.addressText base) := Numeral.consists_hexAddress _
  have opcode : Consists isPlain ("$" ++ String.ofList (Numeral.hex 2 i.opcode)) :=
    consists_append.mpr ⟨dollar, Numeral.consists_hex⟩
  have bytes : ∀ text ∈ i.bytes.map fun byte => "$" ++ Numeral.hexByte byte,
      Consists isPlain text := by
    intro text member
    obtain ⟨byte, -, rfl⟩ := List.mem_map.mp member
    exact consists_append.mpr ⟨dollar, Numeral.consists_hexByte⟩
  have names : ∀ name ∈ (i.record base).map Prod.fst, Consists isPlain name := by
    change ∀ name ∈ ["address", "address_int", "offset", "opcode", "mnemonic", "mode", "operand",
      "text", "size", "bytes", "status"], _
    decide
  intro field member
  refine ⟨names _ (List.mem_map_of_mem member), ?_⟩
  simp only [Instruction.record, List.mem_cons, List.not_mem_nil, or_false] at member
  obtain rfl | rfl | rfl | rfl | rfl | rfl | rfl | rfl | rfl | rfl | rfl := member
  · exact address
  · trivial
  · trivial
  · exact opcode
  · exact plain.mnemonic
  · exact mode
  · exact plain.operand
  · exact plain.text
  · trivial
  · exact bytes
  · exact status

/-! ## Dumps -/

theorem isVisible_of_isPlain {c : Char} (plain : isPlain c = true) : isVisible c = true := by
  rw [isPlain, Bool.and_eq_true] at plain
  exact plain.1

namespace HexDump

theorem isVisible_shown (byte : UInt8) : isVisible (shown byte) = true := by
  have codes : ∀ n < 0x7F, 0x20 ≤ n → isVisible (Char.ofNat n) = true := by decide
  rw [shown]
  split
  · rename_i visible
    exact codes _ visible.2 visible.1
  · decide

theorem consists_rowLine (address : Int) (row : List UInt8) :
    Consists isVisible (rowLine address row) := by
  have marks : Consists isVisible "; " ∧ Consists isVisible ": " ∧ Consists isVisible " " := by
    decide
  have place := (Numeral.consists_hexAddress address).mono fun _ => isVisible_of_isPlain
  have pairs : Consists isVisible
      (String.ofList ((Numeral.hexBytes row).toList.rightpad pairsWidth ' ')) :=
    consists_padded (by decide) (Numeral.consists_hexBytes.mono fun _ => isVisible_of_isPlain)
  have characters : Consists isVisible (String.ofList (row.map shown)) := by
    rw [consists_ofList]
    intro c member
    obtain ⟨byte, -, rfl⟩ := List.mem_map.mp member
    exact isVisible_shown byte
  simp only [rowLine, consists_append, marks, place, pairs, characters, and_self]

theorem consists_of_mem_lines {bytes : List UInt8} {base : Int} {line : String}
    (member : line ∈ lines bytes base) : Consists isVisible line := by
  have frame : ∀ line ∈ ["; Hex dump:", rule, ""], Consists isVisible line := by decide
  simp only [lines, List.mem_append, List.mem_map] at member
  obtain (front | ⟨⟨row, i⟩, -, rfl⟩) | behind := member
  · exact frame line (List.mem_append_left [""] front)
  · exact consists_rowLine _ _
  · exact frame line (List.mem_cons_of_mem _ behind)

end HexDump

end LinearSweep
