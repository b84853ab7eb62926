import LinearSweep.Proofs.Assembling
import LinearSweep.Proofs.Operands
import LinearSweep.Proofs.Relocation
import LinearSweep.Proofs.Tiling

/-!
# Bytes from texts

The texts of a sweep tell its bytes, as long as the instructions are whole and none of them is BRK,
whose padding is not shown.  One bit is lost: which of the two opcodes a jump has.  The step is
`recovered_of_text_eq`: a text tells the opcode, up to that bit, and the bytes behind it, whatever
the other instruction with that text is.  The induction carries `AlikeButJumps`, and
`texts_eq_iff_alike` says that nothing else is lost.
-/

namespace LinearSweep

/-! ## One instruction -/

namespace Instruction

theorem toList_text (i : Instruction) :
    i.text.toList =
      i.mnemonic.toList ++ if i.operand = "" then [] else ' ' :: i.operand.toList := by
  by_cases none : i.operand = "" <;> simp [text, none]

/-- A text with a name of known length tells the name and the operand. -/
theorem parts_of_text_eq {i j : Instruction} (length : i.mnemonic.length = j.mnemonic.length)
    (same : i.text = j.text) : i.mnemonic = j.mnemonic ∧ i.operand = j.operand := by
  have lists := congrArg String.toList same
  rw [toList_text, toList_text] at lists
  obtain ⟨names, operands⟩ :=
    List.append_inj lists (by simpa only [String.length_toList] using length)
  refine ⟨String.toList_inj.mp names, ?_⟩
  by_cases none : i.operand = "" <;> by_cases none' : j.operand = "" <;>
    simp only [none, none', ↓reduceIte, reduceCtorEq, List.cons.injEq, true_and] at operands ⊢
  exact String.toList_inj.mp operands

end Instruction

namespace Opcode

/-- Opcodes that are equal, or are the two of a jump. -/
def AlikeButJump (opcode opcode' : UInt8) : Prop :=
  opcode' = opcode ∨ name opcode = "JMP" ∧ opcode' = opcode ^^^ jumpBit

theorem name_of_meaning? {opcode : UInt8} {mnemonic : Mnemonic} {mode : Mode}
    (known : meaning? opcode = some (mnemonic, mode)) : name opcode = mnemonic.name := by
  simp [name, known]

/-- Jumps with either opcode mean the same. -/
theorem meaning?_of_alike {opcode opcode' : UInt8} (alike : AlikeButJump opcode opcode') :
    opcode' = opcode ∨ ∃ mode, meaning? opcode = some (.jmp, mode) ∧
      meaning? opcode' = some (.jmp, mode) := by
  obtain equal | ⟨jump, rfl⟩ := alike
  · exact .inl equal
  · right
    cases known : meaning? opcode with
    | none =>
      rw [name, known] at jump
      exact absurd jump (by decide)
    | some meaning =>
      obtain ⟨mnemonic, mode⟩ := meaning
      rw [name_of_meaning? known] at jump
      obtain rfl : mnemonic = .jmp := Mnemonic.name_injective jump
      exact ⟨mode, rfl, meaning?_jump known⟩

theorem ne_brkCode_of_jump {opcode : UInt8} {mode : Mode}
    (jump : meaning? opcode = some (.jmp, mode)) : opcode.toNat ≠ brkCode := by
  intro brk
  rw [meaning?_of_brk brk] at jump
  cases jump

theorem length_of_alike {opcode opcode' : UInt8} (alike : AlikeButJump opcode opcode') :
    length opcode' = length opcode := by
  obtain rfl | ⟨mode, jump, jump'⟩ := meaning?_of_alike alike
  · rfl
  · rw [length_of_ne_brk (ne_brkCode_of_jump jump), length_of_ne_brk (ne_brkCode_of_jump jump'),
      mode_of_meaning? jump, mode_of_meaning? jump']

/-- Modes of one instruction can be told apart by its operands. -/
theorem mode_eq_of_alike {opcode opcode' : UInt8} {mnemonic : Mnemonic} {mode mode' : Mode}
    (known : meaning? opcode = some (mnemonic, mode))
    (known' : meaning? opcode' = some (mnemonic, mode')) (alike : Mode.Alike mode mode') :
    mode = mode' := by
  obtain same | ⟨rfl, rfl⟩ | ⟨rfl, rfl⟩ := alike
  · exact same
  · exact (not_relative_and_zeroPage known' known).elim
  · exact (not_relative_and_zeroPage known known').elim

end Opcode

section OneText

variable {offset offset' : Nat} {opcode opcode' : UInt8} {behind behind' : List UInt8}

/-- An instruction that has the text of a whole one is whole too. -/
theorem ok_of_text_eq {mnemonic : Mnemonic} {mode : Mode} {value : Int} (legal : mode ≠ .illegal)
    (name : (Instruction.ofBytes offset' opcode' behind').mnemonic = mnemonic.name)
    (operand : (Instruction.ofBytes offset' opcode' behind').operand = Operand.text mode value) :
    (Instruction.ofBytes offset' opcode' behind').status = .ok := by
  have shown := @Instruction.shows_status offset' opcode' behind'
  cases status : (Instruction.ofBytes offset' opcode' behind').status with
  | ok => rfl
  | unknownOpcode =>
    rw [status, name] at shown
    have known : mnemonic.name ≠ Instruction.unknownText := by cases mnemonic <;> decide
    exact absurd shown known
  | illegalMode =>
    rw [status, operand] at shown
    exact absurd shown (Operand.text_ne_illegalText legal value)
  | truncated =>
    rw [status, operand] at shown
    exact absurd shown (Operand.text_ne_truncatedText mode value)

theorem text_eq_of_alike (alike : Opcode.AlikeButJump opcode opcode') :
    (Instruction.ofBytes offset opcode' behind).text =
      (Instruction.ofBytes offset opcode behind).text := by
  obtain rfl | ⟨mode, jump, jump'⟩ := Opcode.meaning?_of_alike alike
  · rfl
  · have regular := Opcode.ne_brkCode_of_jump jump
    have regular' := Opcode.ne_brkCode_of_jump jump'
    by_cases illegal : mode = .illegal
    · simp [Instruction.text, Instruction.ofBytes, jump, jump', illegal]
    · by_cases short : behind.length < mode.operandSize <;>
        simp [Instruction.text, Instruction.ofBytes, jump, jump', illegal, regular, regular', short]

/-- The text of a whole instruction tells its bytes, if it is not BRK. -/
theorem recovered_of_text_eq (within : behind.length ≤ Opcode.length opcode - 1)
    (within' : behind'.length ≤ Opcode.length opcode' - 1)
    (ok : (Instruction.ofBytes offset opcode behind).status = .ok)
    (notBrk : (Instruction.ofBytes offset opcode behind).mnemonic ≠ "BRK")
    (same : (Instruction.ofBytes offset opcode behind).text =
      (Instruction.ofBytes offset' opcode' behind').text) :
    Opcode.AlikeButJump opcode opcode' ∧ behind' = behind := by
  obtain ⟨names, operands⟩ := Instruction.parts_of_text_eq
    (Instruction.length_mnemonic_ofBytes.trans Instruction.length_mnemonic_ofBytes.symm) same
  have regular {o : UInt8} (other : Opcode.name o ≠ "BRK") : o.toNat ≠ Opcode.brkCode := by
    intro brk
    exact other (Opcode.name_of_meaning? (Opcode.meaning?_of_brk brk))
  have notBrk' := names ▸ notBrk
  rw [Instruction.mnemonic_ofBytes] at notBrk notBrk'
  obtain ⟨mnemonic, mode, known, legal, size, name, operand⟩ :=
    Instruction.exists_meaning_of_ok ok (regular notBrk) within
  rw [name] at names
  rw [operand] at operands
  have ok' := ok_of_text_eq legal names.symm operands.symm
  obtain ⟨mnemonic', mode', known', legal', size', name', operand'⟩ :=
    Instruction.exists_meaning_of_ok ok' (regular notBrk') within'
  rw [name'] at names
  rw [operand'] at operands
  obtain rfl := Mnemonic.name_injective names
  have fits {m : Mode} {bytes : List UInt8} (full : bytes.length = m.operandSize) :
      Operand.value bytes < 256 ^ m.operandSize := by
    rw [← full]
    exact Operand.value_lt (full ▸ m.operandSize_le)
  obtain ⟨alike, values⟩ := Operand.eq_of_text_eq legal legal' (fits size) (fits size') operands
  obtain rfl := Opcode.mode_eq_of_alike known known' alike
  refine ⟨?_, ?_⟩
  · obtain equal | ⟨rfl, flipped⟩ := Opcode.eq_or_jump_of_meaning? known known' legal
    · exact .inl equal
    · exact .inr ⟨Opcode.name_of_meaning? known, flipped⟩
  · exact (Operand.value_inj (size ▸ mode.operandSize_le) (size.trans size'.symm) values).symm

end OneText

/-! ## Runs of bytes -/

/-- Runs of bytes that are equal, except that jumps may have their other opcodes. -/
structure AlikeButJumps (offset : Nat) (bytes bytes' : List UInt8) : Prop where
  length : bytes'.length = bytes.length
  agree : ∀ k, bytes'[k]? = bytes[k]? ∨
    ∃ i ∈ decode offset bytes, i.offset = (offset + k : Nat) ∧ i.mnemonic = "JMP" ∧
      bytes'[k]? = bytes[k]?.map (· ^^^ Opcode.jumpBit)

namespace AlikeButJumps

variable {offset : Nat} {opcode opcode' : UInt8} {behind rest rest' : List UInt8}

theorem cons (within : behind.length ≤ Opcode.length opcode - 1)
    (missing : behind.length < Opcode.length opcode - 1 → rest = [])
    (first : Opcode.AlikeButJump opcode opcode')
    (others : AlikeButJumps (offset + 1 + behind.length) rest rest') :
    AlikeButJumps offset (opcode :: (behind ++ rest)) (opcode' :: (behind ++ rest')) := by
  constructor
  case length => simp [others.length]
  case agree =>
    intro k
    rw [decode_append within missing]
    cases k with
    | zero =>
      obtain equal | ⟨jump, flipped⟩ := first
      · left
        rw [equal]
        rfl
      · right
        refine ⟨_, List.mem_cons_self, Instruction.offset_ofBytes, ?_, ?_⟩
        · rw [Instruction.mnemonic_ofBytes, jump]
        · rw [flipped]
          rfl
    | succ k =>
      rw [List.getElem?_cons_succ, List.getElem?_cons_succ]
      cases Nat.lt_or_ge k behind.length with
      | inl inside =>
        left
        rw [List.getElem?_append_left inside, List.getElem?_append_left inside]
      | inr past =>
        rw [List.getElem?_append_right past, List.getElem?_append_right past]
        obtain equal | ⟨i, member, place, jump, flipped⟩ := others.agree (k - behind.length)
        · exact .inl equal
        · refine .inr ⟨i, List.mem_cons_of_mem _ member, ?_, jump, flipped⟩
          rw [place]
          omega

/-- An instruction is the first one, or it begins behind the bytes of the first one. -/
theorem place_of_mem (within : behind.length ≤ Opcode.length opcode - 1)
    (missing : behind.length < Opcode.length opcode - 1 → rest = []) {i : Instruction}
    (member : i ∈ decode offset (opcode :: (behind ++ rest))) :
    i = Instruction.ofBytes offset opcode behind ∧ i.offset = offset ∨
      i ∈ decode (offset + 1 + behind.length) rest ∧
        ((offset + 1 + behind.length : Nat) : Int) ≤ i.offset := by
  rw [decode_append within missing] at member
  cases List.mem_cons.mp member with
  | inl first => exact .inl ⟨first, by rw [first, Instruction.offset_ofBytes]⟩
  | inr later =>
    have bounds := (sideBySide_decode _ rest).bounds_of_mem (fun _ => size_of_mem_decode) later
    exact .inr ⟨later, bounds.1⟩

/-- No jump begins within the first instruction, so the bytes behind its opcode are the same. -/
theorem take_behind {others : List UInt8} (within : behind.length ≤ Opcode.length opcode - 1)
    (missing : behind.length < Opcode.length opcode - 1 → rest = [])
    (alike : AlikeButJumps offset (opcode :: (behind ++ rest)) (opcode' :: others)) :
    others.take behind.length = behind := by
  apply List.ext_getElem?
  intro k
  cases Nat.lt_or_ge k behind.length with
  | inl inside =>
    have agree := alike.agree (k + 1)
    rw [List.getElem?_cons_succ, List.getElem?_cons_succ, List.getElem?_append_left inside] at agree
    rw [List.getElem?_take_of_lt inside]
    obtain equal | ⟨i, member, place, -, -⟩ := agree
    · exact equal
    · obtain ⟨-, first⟩ | ⟨-, later⟩ := place_of_mem within missing member <;> omega
  | inr past =>
    rw [List.getElem?_eq_none (by rw [List.length_take]; omega), List.getElem?_eq_none past]

/-- Runs that are alike have alike opcodes in front, the same bytes behind them, and are alike from
there on. -/
theorem uncons {bytes' : List UInt8} (within : behind.length ≤ Opcode.length opcode - 1)
    (missing : behind.length < Opcode.length opcode - 1 → rest = [])
    (alike : AlikeButJumps offset (opcode :: (behind ++ rest)) bytes') :
    ∃ opcode' rest', bytes' = opcode' :: (behind ++ rest') ∧
      Opcode.AlikeButJump opcode opcode' ∧
      AlikeButJumps (offset + 1 + behind.length) rest rest' := by
  have length := alike.length
  cases bytes' with
  | nil => simp at length
  | cons opcode' others =>
    simp only [List.length_cons, List.length_append] at length
    have kept := alike.take_behind within missing
    refine ⟨opcode', others.drop behind.length, ?_, ?_, ?_, fun k => ?_⟩
    · conv_lhs => rw [← List.take_append_drop behind.length others, kept]
    · obtain equal | ⟨i, member, place, jump, flipped⟩ := alike.agree 0
      · exact .inl (Option.some.inj equal)
      · obtain ⟨first, -⟩ | ⟨-, later⟩ := place_of_mem within missing member
        · rw [first, Instruction.mnemonic_ofBytes] at jump
          exact .inr ⟨jump, Option.some.inj flipped⟩
        · omega
    · rw [List.length_drop]
      omega
    · have agree := alike.agree (behind.length + k + 1)
      rw [List.getElem?_cons_succ, List.getElem?_cons_succ,
        List.getElem?_append_right (Nat.le_add_right _ _), Nat.add_sub_cancel_left] at agree
      rw [List.getElem?_drop]
      obtain equal | ⟨i, member, place, jump, flipped⟩ := agree
      · exact .inl equal
      · obtain ⟨-, first⟩ | ⟨later, -⟩ := place_of_mem within missing member
        · omega
        · exact .inr ⟨i, later, by rw [place]; omega, jump, flipped⟩

end AlikeButJumps

/-- The induction: whatever the bytes with the same texts are, their first instruction takes up as
many as the first one here, so the others have the same texts again. -/
theorem alike_of_texts_eq {offset : Nat} {bytes bytes' : List UInt8}
    (whole : ∀ i ∈ decode offset bytes, i.status = .ok ∧ i.mnemonic ≠ "BRK")
    (same : (decode offset bytes).map Instruction.text =
      (decode offset bytes').map Instruction.text) :
    AlikeButJumps offset bytes bytes' := by
  induction offset, bytes using decode_induction generalizing bytes' with
  | nil offset =>
    rw [decode_nil, List.map_nil] at same
    obtain rfl := decode_eq_nil_iff.mp (List.map_eq_nil_iff.mp same.symm)
    exact ⟨rfl, fun _ => .inl rfl⟩
  | cons offset opcode behind rest within missing ih =>
    rw [decode_append within missing] at whole same
    cases bytes' with
    | nil => simp at same
    | cons opcode' others =>
      obtain ⟨behind', rest', -, -, rfl, within', missing'⟩ := split_behind opcode' others
      rw [decode_append within' missing', List.map_cons, List.map_cons] at same
      obtain ⟨text, texts⟩ := List.cons.inj same
      obtain ⟨ok, notBrk⟩ := whole _ List.mem_cons_self
      obtain ⟨first, rfl⟩ := recovered_of_text_eq within within' ok notBrk text
      exact .cons within missing first
        (ih (fun i member => whole i (List.mem_cons_of_mem _ member)) texts)

theorem texts_eq_of_alike {offset : Nat} {bytes bytes' : List UInt8}
    (alike : AlikeButJumps offset bytes bytes') :
    (decode offset bytes).map Instruction.text = (decode offset bytes').map Instruction.text := by
  induction offset, bytes using decode_induction generalizing bytes' with
  | nil offset =>
    obtain rfl := List.length_eq_zero_iff.mp alike.length
    rfl
  | cons offset opcode behind rest within missing ih =>
    obtain ⟨opcode', rest', rfl, first, others⟩ := alike.uncons within missing
    have missing' : behind.length < Opcode.length opcode' - 1 → rest' = [] := by
      intro short
      rw [Opcode.length_of_alike first] at short
      rw [← List.length_eq_zero_iff, others.length, missing short, List.length_nil]
    rw [decode_append within missing,
      decode_append (Opcode.length_of_alike first ▸ within) missing', List.map_cons, List.map_cons,
      text_eq_of_alike first, ih others]

/-- The texts of whole instructions other than BRK tell everything but which of their two opcodes
jumps have.  Without jumps they tell the image. -/
theorem texts_eq_iff_alike {image image' : List UInt8}
    (whole : ∀ i ∈ (Cursor.ofImage image 0 none).instructions,
      i.status = .ok ∧ i.mnemonic ≠ "BRK") :
    let instructions := (Cursor.ofImage image 0 none).instructions
    let texts := (Cursor.ofImage image 0 none).texts
    let texts' := (Cursor.ofImage image' 0 none).texts
    (texts = texts' ↔
      image'.length = image.length ∧
        ∀ k : Nat, image'[k]? = image[k]? ∨
          ∃ i ∈ instructions, i.offset = k ∧ i.mnemonic = "JMP" ∧
            image'[k]? = image[k]?.map (· ^^^ 0x20)) ∧
      ((∀ i ∈ instructions, i.mnemonic ≠ "JMP") → texts = texts' → image' = image) := by
  intro instructions texts texts'
  have decoded : instructions = decode 0 image := Cursor.instructions_ofImage_whole image
  have alike : texts = texts' ↔ AlikeButJumps 0 image image' := by
    simp only [texts, texts', Cursor.texts, Listing.texts, Cursor.instructions_ofImage_whole,
      List.append_left_inj]
    rw [Cursor.instructions_ofImage_whole] at whole
    exact ⟨alike_of_texts_eq whole, texts_eq_of_alike⟩
  rw [alike, decoded]
  constructor
  · constructor
    · rintro ⟨length, agree⟩
      exact ⟨length, by simpa only [Nat.zero_add, Opcode.jumpBit] using agree⟩
    · rintro ⟨length, agree⟩
      exact ⟨length, by simpa only [Nat.zero_add, Opcode.jumpBit] using agree⟩
  · rintro noJump ⟨-, agree⟩
    apply List.ext_getElem?
    intro k
    obtain equal | ⟨i, member, -, jump, -⟩ := agree k
    · exact equal
    · exact absurd jump (noJump i member)

/-- A jump may have its other opcode, but not another target. -/
theorem texts_of_either_jump :
    (∀ i ∈ (Cursor.ofImage [0x4C, 0x34, 0x12, 0xA9, 0x41] 0 none).instructions,
        i.status = .ok ∧ i.mnemonic ≠ "BRK") ∧
      (Cursor.ofImage [0x4C, 0x34, 0x12, 0xA9, 0x41] 0 none).texts =
        (Cursor.ofImage [0x6C, 0x34, 0x12, 0xA9, 0x41] 0 none).texts ∧
      (Cursor.ofImage [0x4C, 0x34, 0x12, 0xA9, 0x41] 0 none).texts ≠
        (Cursor.ofImage [0x4C, 0x35, 0x12, 0xA9, 0x41] 0 none).texts := by
  have whole : ∀ i ∈ (Cursor.ofImage [0x4C, 0x34, 0x12, 0xA9, 0x41] 0 none).instructions,
      i.status = .ok ∧ i.mnemonic ≠ "BRK" := by decide
  refine ⟨whole, ?_, ?_⟩
  · apply (texts_eq_iff_alike whole).1.mpr
    refine ⟨rfl, fun k => ?_⟩
    match k with
    | 0 => exact .inr (by decide)
    | k + 1 => exact .inl rfl
  · intro same
    obtain ⟨-, agree⟩ := (texts_eq_iff_alike whole).1.mp same
    exact absurd (agree 1) (by decide)

end LinearSweep
