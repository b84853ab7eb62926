import LinearSweep.Proofs.Delivery
import LinearSweep.Proofs.Recovery

/-!
# Marks in texts

Some texts say that something is wrong, and one says that nothing is left; they share their
characters with all other texts.  `Shows` lists what an instruction of each status is shown with,
and since no space stands in a name or an operand, a text ends in a mark behind a space exactly if
the mark is the operand, `suffix_text_iff`.  So the text of an instruction tells its status, and
whoever reads texts up to the first end mark, `ReadsToEnd`, has read all instructions and no more.
-/

namespace LinearSweep

/-! ## What each status shows -/

/-- The name and the operand that an instruction of a status is shown with. -/
inductive Shows : Status → String → String → Prop where
  | unknownOpcode : Shows .unknownOpcode "???" ""
  | illegalMode (mnemonic : Mnemonic) : Shows .illegalMode mnemonic.name "???"
  | truncated (mnemonic : Mnemonic) : Shows .truncated mnemonic.name "END"
  | ok (mnemonic : Mnemonic) {mode : Mode} (value : Int) :
      mode ≠ .illegal → Shows .ok mnemonic.name (Operand.text mode value)

theorem shows_ofBytes (offset : Nat) (opcode : UInt8) (behind : List UInt8) :
    Shows (Instruction.ofBytes offset opcode behind).status
      (Instruction.ofBytes offset opcode behind).mnemonic
      (Instruction.ofBytes offset opcode behind).operand := by
  unfold Instruction.ofBytes
  split
  next => exact .unknownOpcode
  next mnemonic mode known =>
    split
    next illegal =>
      rw [illegal]
      exact .illegalMode mnemonic
    next legal =>
      split
      -- BRK is shown without an operand, like any instruction with an implied mode.
      next => exact @Shows.ok mnemonic .implied 0 (by decide)
      next =>
        split
        next => exact .truncated mnemonic
        next => exact .ok mnemonic _ legal

theorem Mnemonic.name_ne_unknownText (m : Mnemonic) : m.name ≠ "???" := by
  cases m <;> decide

theorem Mnemonic.space_not_mem_name (m : Mnemonic) : ' ' ∉ m.name.toList := by
  cases m <;> decide

theorem Operand.space_not_mem_text (mode : Mode) (value : Int) :
    ' ' ∉ (Operand.text mode value).toList := by
  have marks : ∀ t ∈ mode.template?, ' ' ∉ t.1.toList ∧ ' ' ∉ t.2.toList := by
    cases mode <;> decide
  unfold Operand.text
  split
  next before after template =>
    obtain ⟨front, behind⟩ := marks _ template
    rw [String.toList_append, String.toList_append, String.toList_ofList, List.mem_append,
      List.mem_append, not_or, not_or]
    refine ⟨⟨front, fun digit => ?_⟩, behind⟩
    exact absurd (Numeral.isHexChar_of_mem_hex digit) (by decide)
  next => split <;> decide

namespace Shows

variable {status : Status} {name operand : String}

theorem length_name (shows : Shows status name operand) : name.length = 3 := by
  cases shows with
  | unknownOpcode => rfl
  | illegalMode m | truncated m | ok m => exact m.length_name

theorem space_not_mem_name (shows : Shows status name operand) : ' ' ∉ name.toList := by
  cases shows with
  | unknownOpcode => decide
  | illegalMode m | truncated m | ok m => exact m.space_not_mem_name

theorem space_not_mem_operand (shows : Shows status name operand) : ' ' ∉ operand.toList := by
  cases shows with
  | unknownOpcode | illegalMode | truncated => decide
  | ok m value => exact Operand.space_not_mem_text _ value

theorem unknownOpcode_iff (shows : Shows status name operand) :
    name = "???" ∧ operand = "" ↔ status = .unknownOpcode := by
  cases shows with
  | unknownOpcode => simp
  | illegalMode m | truncated m | ok m => simp [m.name_ne_unknownText]

theorem illegalMode_iff (shows : Shows status name operand) :
    operand = "???" ↔ status = .illegalMode := by
  cases shows with
  | unknownOpcode | illegalMode | truncated => simp
  | ok m value legal => exact iff_of_false (Operand.text_ne_illegalText legal value) (by decide)

theorem truncated_iff (shows : Shows status name operand) :
    operand = "END" ↔ status = .truncated := by
  cases shows with
  | unknownOpcode | illegalMode | truncated => simp
  | ok m value => exact iff_of_false (Operand.text_ne_truncatedText _ value) (by decide)

end Shows

/-! ## Marks in a text -/

namespace Instruction

variable {i : Instruction}

/-- The text of an instruction is a name alone exactly if it is that name. -/
theorem text_eq_iff {name : String} (same : i.mnemonic.length = name.length) :
    i.text = name ↔ i.mnemonic = name ∧ i.operand = "" := by
  constructor
  · intro shown
    have lists := congrArg String.toList shown
    rw [toList_text] at lists
    have length := congrArg List.length lists
    rw [List.length_append, String.length_toList, String.length_toList, same] at length
    have bare : i.operand = "" := by
      by_contra filled
      simp [filled] at length
    rw [if_pos bare, List.append_nil] at lists
    exact ⟨String.toList_inj.mp lists, bare⟩
  · rintro ⟨rfl, bare⟩
    rw [text, if_pos bare]

/-- A text ends in a mark behind a space exactly if the mark is the operand. -/
theorem suffix_text_iff (name : ' ' ∉ i.mnemonic.toList) (operand : ' ' ∉ i.operand.toList)
    {mark : String} (filled : mark ≠ "") :
    (" " ++ mark).toList <:+ i.text.toList ↔ i.operand = mark := by
  have marked : (" " ++ mark).toList = ' ' :: mark.toList := by simp
  rw [marked, toList_text]
  constructor
  · rintro ⟨front, shown⟩
    by_cases bare : i.operand = ""
    · -- A name alone has no space at all.
      rw [if_pos bare, List.append_nil] at shown
      exact absurd (by simp [← shown]) name
    · rw [if_neg bare] at shown
      obtain ⟨-, -, same⟩ := (List.append_cons_inj_of_notMem name operand).mp shown.symm
      exact String.toList_inj.mp same
  · rintro rfl
    rw [if_neg filled]
    exact List.suffix_append _ _

end Instruction

/-! ## Reading texts to the end -/

namespace Session

variable {s : Session}

theorem reply_nextText (s : Session) :
    (s.serve .nextText).reply =
      .text ((s.cursor.instructions.head?.map Instruction.text).getD ".END") := by
  show Reply.text (((s.cursor.take 1).1.head?.map Instruction.text).getD ".END") = _
  rw [Cursor.fst_take, List.head?_take, if_neg Nat.one_ne_zero]

theorem instructions_nextText (s : Session) :
    (s.serve .nextText).session.cursor.instructions = s.cursor.instructions.tail := by
  show (s.cursor.take 1).2.instructions = _
  rw [Cursor.instructions_take, List.drop_one]

/-- Nothing but the end is answered with the end mark. -/
theorem reply_nextText_iff (s : Session) :
    (s.serve .nextText).reply = .text ".END" ↔ s.cursor.atEnd = true := by
  rw [reply_nextText, Cursor.atEnd_iff_instructions]
  cases left : s.cursor.instructions with
  | nil => exact iff_of_true rfl rfl
  | cons i is =>
    have member : i ∈ s.cursor.instructions := by simp [left]
    refine iff_of_false (fun same => ?_) (List.cons_ne_nil _ _)
    exact Cursor.text_ne_endMark member (Reply.text.inj same)

/-- A caller asks for one text after the other until it gets the end mark: the texts in front of the
mark, and the session afterwards. -/
inductive ReadsToEnd : Session → List String → Session → Prop where
  | done {s : Session} :
      (s.serve .nextText).reply = .text ".END" → ReadsToEnd s [] (s.serve .nextText).session
  | more {s last : Session} {text : String} {texts : List String} :
      (s.serve .nextText).reply = .text text → text ≠ ".END" →
      ReadsToEnd (s.serve .nextText).session texts last → ReadsToEnd s (text :: texts) last

/-- The caller comes to the end, with the texts of the instructions that were left. -/
theorem readsToEnd_iff {texts : List String} {last : Session} :
    s.ReadsToEnd texts last ↔
      texts = s.cursor.instructions.map Instruction.text ∧
        last = s.after (List.replicate (s.cursor.instructions.length + 1) .nextText) := by
  generalize left : s.cursor.instructions = is
  induction is generalizing s texts last with
  | nil =>
    have told : (s.serve .nextText).reply = .text ".END" := by
      rw [reply_nextText, left]
      rfl
    constructor
    · intro reads
      cases reads with
      | done => exact ⟨rfl, rfl⟩
      | more answered other => exact absurd (Reply.text.inj (answered.symm.trans told)) other
    · rintro ⟨rfl, rfl⟩
      exact .done told
  | cons i is ih =>
    have told : (s.serve .nextText).reply = .text i.text := by
      rw [reply_nextText, left]
      rfl
    have other : i.text ≠ ".END" := Cursor.text_ne_endMark (c := s.cursor) (by simp [left])
    have others : (s.serve .nextText).session.cursor.instructions = is := by
      rw [instructions_nextText, left, List.tail_cons]
    constructor
    · intro reads
      cases reads with
      | done ended => exact absurd (Reply.text.inj (told.symm.trans ended)) other
      | more answered _ rest =>
        obtain ⟨rfl, rfl⟩ := (ih others).mp rest
        rw [← Reply.text.inj (told.symm.trans answered)]
        exact ⟨rfl, rfl⟩
    · rintro ⟨rfl, rfl⟩
      exact .more told other ((ih others).mpr ⟨rfl, rfl⟩)

end Session

/-- Among the texts before the first end mark are all instructions, and nothing else. -/
theorem takeWhile_texts (c : Cursor) :
    c.texts.takeWhile (· ≠ ".END") = c.instructions.map Instruction.text := by
  have others : ∀ text ∈ c.instructions.map Instruction.text, decide (text ≠ ".END") = true := by
    intro text member
    obtain ⟨i, listed, rfl⟩ := List.mem_map.mp member
    exact decide_eq_true (Cursor.text_ne_endMark listed)
  rw [Cursor.texts, Listing.texts, List.takeWhile_append_of_pos others]
  simp [Listing.endMark]

/-- The text of an instruction tells its status: the marks of the texts can be mistaken neither for
each other nor for anything else.  The end mark says that a session has come to the end, and a
caller who reads texts up to the first end mark gets those of all instructions that were left. -/
theorem texts_tell_status_and_end (image : List UInt8) (start : Int) (stop : Option Int) :
    let cursor := Cursor.ofImage image start stop
    (∀ i ∈ cursor.instructions,
      i.text ≠ ".END" ∧
      (i.text = "???" ↔ i.status = .unknownOpcode) ∧
      (" ???".toList <:+ i.text.toList ↔ i.status = .illegalMode) ∧
      (" END".toList <:+ i.text.toList ↔ i.status = .truncated) ∧
      (i.status = .ok ↔ i.text ≠ ".END" ∧ i.text ≠ "???" ∧
        ¬ " ???".toList <:+ i.text.toList ∧ ¬ " END".toList <:+ i.text.toList)) ∧
    cursor.texts.takeWhile (· ≠ ".END") = cursor.instructions.map Instruction.text ∧
    ∀ earlier : List Request,
      let fresh := Session.ofImage image start stop
      let before := fresh.after earlier
      ((before.serve .nextText).reply = .text ".END" ↔ before.cursor.atEnd = true) ∧
      cursor.instructions = fresh.delivered earlier ++ before.cursor.instructions ∧
      ∀ texts last, before.ReadsToEnd texts last ↔
        texts = before.cursor.instructions.map Instruction.text ∧
          last = before.after (List.replicate (texts.length + 1) .nextText) := by
  intro cursor
  refine ⟨fun i member => ?_, takeWhile_texts cursor, fun earlier => ?_⟩
  · have other := Cursor.text_ne_endMark member
    rw [Cursor.instructions_eq_decode] at member
    obtain ⟨place, opcode, behind, rfl, -⟩ := ofBytes_of_mem_decode member
    have shows := shows_ofBytes place opcode behind
    have ends (mark : String) (filled : mark ≠ "") :=
      Instruction.suffix_text_iff shows.space_not_mem_name shows.space_not_mem_operand filled
    have unknown := (Instruction.text_eq_iff shows.length_name).trans shows.unknownOpcode_iff
    have illegal := (ends "???" (by decide)).trans shows.illegalMode_iff
    have truncated := (ends "END" (by decide)).trans shows.truncated_iff
    refine ⟨other, unknown, illegal, truncated, ?_⟩
    -- With the marks put in terms of the status, its four cases are left.
    change _ ↔ _ ≠ _ ∧ _ ≠ _ ∧ ¬ (" " ++ "???").toList <:+ _ ∧ ¬ (" " ++ "END").toList <:+ _
    rw [Ne, Ne, unknown, illegal, truncated]
    cases (Instruction.ofBytes place opcode behind).status <;> simp [other]
  · intro fresh before
    refine ⟨before.reply_nextText_iff, Session.instructions_after fresh earlier, ?_⟩
    intro texts last
    rw [Session.readsToEnd_iff]
    refine and_congr_right fun same => ?_
    rw [same, List.length_map]

/-- An unknown opcode, an illegal mode, a whole instruction and a truncated one, the first of which
is pulled by another request. -/
theorem texts_tell_status_and_end_of_marks :
    let image : List UInt8 := [0x03, 0x12, 0xEA, 0x4C, 0x00]
    let cursor := Cursor.ofImage image 0 none
    let before := (Session.ofImage image 0 none).after [.next]
    cursor.texts = ["???", "ASL ???", "NOP", "JMP END", ".END"] ∧
      (∃ i ∈ cursor.instructions, i.text = "JMP END" ∧ i.status = .truncated) ∧
      ∃ last, before.ReadsToEnd ["ASL ???", "NOP", "JMP END"] last := by
  intro image cursor before
  obtain ⟨marks, -, reading⟩ := texts_tell_status_and_end image 0 none
  have jump : Instruction.ofBytes 3 0x4C [0x00] ∈ cursor.instructions := by decide
  obtain ⟨-, -, -, truncated, -⟩ := marks _ jump
  obtain ⟨-, -, reads⟩ := reading [.next]
  exact ⟨by decide, ⟨_, jump, by decide, truncated.mp (by decide)⟩,
    _, (reads _ _).mpr ⟨by decide, rfl⟩⟩

end LinearSweep
