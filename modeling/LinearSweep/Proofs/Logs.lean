import LinearSweep.Proofs.Cutting
import LinearSweep.Proofs.Outputs
import LinearSweep.Proofs.Verbosity

/-!
# What the log adds

A run is the same whether its log is asked for or not, and only the response shows the log.  In it
stands one line for each instruction that is not whole, `forall₂_reported`, among those that the
count lets through and no others, because only these are pulled.  `respond_adds_log` says so of
whole command lines.
-/

namespace LinearSweep

open Text

/-! ## Lines about instructions -/

/-- Whether a note says that an instruction is not whole. -/
def Note.isAboutInstruction : Note → Bool
  | unknownOpcode .. | illegalMode .. | truncated .. => true
  | _ => false

/-- The line of the log about an instruction that is not whole, of a range that ends at `stop`. -/
inductive Reported (stop : Nat) (i : Instruction) : String → Prop where
  | unknownOpcode : i.status = .unknownOpcode →
      Reported stop i ("DEBUG: " ++
        s!"Unknown opcode ${String.ofList (Numeral.hex 2 i.opcode)} at offset {i.offset}"
        ++ "\n")
  | illegalMode : i.status = .illegalMode →
      Reported stop i ("DEBUG: " ++
        (s!"Illegal addressing mode for {i.mnemonic} (${String.ofList (Numeral.hex 2 i.opcode)})"
          ++ s!" at offset {i.offset}")
        ++ "\n")
  | truncated {needed available : Int} : i.status = .truncated →
      needed = Opcode.length (Opcode.byteOf i.opcode) → available = stop - i.offset →
      Reported stop i ("DEBUG: " ++
        s!"Truncated {i.mnemonic} at offset {i.offset}: needs {needed} bytes, {available} available"
        ++ "\n")

namespace Instruction

theorem note?_eq_none_iff {i : Instruction} : i.note? = none ↔ i.status = .ok := by
  unfold note?
  cases i.status <;> simp

theorem isAboutInstruction_of_note? {i : Instruction} {note : Note} (noted : i.note? = some note) :
    note.isAboutInstruction = true := by
  unfold note? at noted
  cases status : i.status <;> simp only [status, Option.some.injEq, reduceCtorEq] at noted <;>
    subst noted <;> rfl

end Instruction

/-- A truncated instruction reaches to the end of its range. -/
theorem size_of_truncated {offset : Nat} {bytes : List UInt8} {i : Instruction}
    (member : i ∈ decode offset bytes) (truncated : i.status = .truncated) :
    i.size = (offset + bytes.length : Nat) - i.offset := by
  obtain ⟨before, behind, split⟩ := List.append_of_mem member
  -- Nothing follows a truncated instruction, so it ends where the range does.
  obtain rfl := truncated_last_of_decode split truncated
  have tiles := sideBySide_decode offset bytes
  rw [split, sideBySide_append] at tiles
  obtain ⟨middle, -, place, last⟩ := tiles
  have stop : middle + i.size = (offset + bytes.length : Nat) := last
  omega

theorem needed_of_truncated {offset : Nat} {bytes : List UInt8} {i : Instruction}
    (member : i ∈ decode offset bytes) (truncated : i.status = .truncated) :
    (1 + i.mode.operandSize : Int) = Opcode.length (Opcode.byteOf i.opcode) := by
  obtain ⟨place, opcode, behind, rfl, within⟩ := ofBytes_of_mem_decode member
  have regular := ((Instruction.status_ofBytes_eq_truncated_iff within).mp truncated).1
  rw [Instruction.mode_ofBytes, Instruction.opcode_ofBytes, Opcode.byteOf_toNat,
    Opcode.length_of_ne_brk regular, Int.natCast_add, Int.natCast_one]

theorem reported_of_note? {offset : Nat} {bytes : List UInt8} {i : Instruction}
    (member : i ∈ decode offset bytes) {note : Note} (noted : i.note? = some note) :
    Reported (offset + bytes.length) i note.line := by
  unfold Instruction.note? at noted
  cases status : i.status <;> simp only [status, Option.some.injEq, reduceCtorEq] at noted <;>
    subst noted
  case unknownOpcode => exact .unknownOpcode status
  case illegalMode => exact .illegalMode status
  case truncated =>
    have needed := needed_of_truncated member status
    have available := size_of_truncated member status
    exact .truncated status needed available

/-- Instructions that are not whole have one line each, in order, and whole ones have none. -/
theorem forall₂_reported {stop : Nat} {is : List Instruction}
    (reported : ∀ i ∈ is, ∀ note, i.note? = some note → Reported stop i note.line) :
    List.Forall₂ (Reported stop) (is.filter fun i => i.status ≠ .ok)
      ((is.filterMap Instruction.note?).map Note.line) := by
  induction is with
  | nil => exact .nil
  | cons i is ih =>
    have others := ih fun j inside => reported j (List.mem_cons_of_mem i inside)
    cases noted : i.note? with
    | none =>
      have whole := Instruction.note?_eq_none_iff.mp noted
      rw [List.filterMap_cons_none noted, List.filter_cons_of_neg (by simp [whole])]
      exact others
    | some note =>
      have damaged : i.status ≠ .ok := by
        rw [Ne, ← Instruction.note?_eq_none_iff, noted]
        exact Option.some_ne_none note
      rw [List.filterMap_cons_some noted, List.filter_cons_of_pos (by simp [damaged]),
        List.map_cons]
      exact .cons (reported i List.mem_cons_self note noted) others

namespace Command

/-! ## Notes of runs -/

theorem isAboutInstruction_of_mem_load {disk : Disk} {path : RawText} {packed : Bool} {note : Note}
    (member : note ∈ (load disk path packed).notes) : note.isAboutInstruction = false := by
  unfold load at member
  dsimp only at member
  split at member
  · split at member <;> simp only [List.mem_cons, List.not_mem_nil, or_false] at member
    · obtain rfl | rfl := member <;> rfl
    · subst member
      rfl
  · cases member

theorem filter_notes_deliver (disk : Disk) (output : Option RawText) (notes : List Note)
    (result : Option String) (total : Nat) :
    (deliver disk output notes result total).notes.filter Note.isAboutInstruction =
      notes.filter Note.isAboutInstruction := by
  obtain ⟨failure, written, fails⟩ | ⟨text, -, ⟨-, goes⟩ | ⟨path, location, -, goes⟩⟩ :=
    deliver_cases disk output notes result total
  · rw [fails]
  · simp [goes, Note.isAboutInstruction]
  · simp [goes, Note.isAboutInstruction]

theorem getLast?_notes_deliver {disk : Disk} {output : Option RawText} {notes : List Note}
    {result : Option String} {total : Nat}
    (delivered : (deliver disk output notes result total).failure = none) :
    (deliver disk output notes result total).notes.getLast? = some (.total total) := by
  obtain ⟨failure, written, fails⟩ | ⟨text, -, ⟨-, goes⟩ | ⟨path, location, -, goes⟩⟩ :=
    deliver_cases disk output notes result total
  · rw [fails] at delivered
    cases delivered
  · simp [goes]
  · simp [goes]

section

variable {environment : Environment} {disk : Disk} {options : Options} {job : Job}
  {image : List UInt8}

/-- What a run notes about instructions, it notes about those that the count lets through. -/
theorem filter_notes_run (asked : readJob environment options = .ok job)
    (loaded : (load disk options.input job.settings.packed).result = .ok image)
    (filled : image ≠ [])
    (countable : ∀ count ∈ options.count, (count : Int) ≤ 0x7FFFFFFFFFFFFFFF) :
    (run environment disk options).notes.filter Note.isAboutInstruction =
      (sweep job image options.count).instructions.filterMap Instruction.note? := by
  have others : (load disk options.input job.settings.packed).notes.filter
      Note.isAboutInstruction = [] := by
    rw [List.filter_eq_nil_iff]
    intro note member
    rw [isAboutInstruction_of_mem_load member]
    exact Bool.false_ne_true
  have all : ∀ note ∈ (sweep job image options.count).instructions.filterMap Instruction.note?,
      note.isAboutInstruction = true := by
    intro note member
    obtain ⟨i, -, noted⟩ := List.mem_filterMap.mp member
    exact Instruction.isAboutInstruction_of_note? noted
  rw [run_eq_deliver asked loaded filled countable, filter_notes_deliver, List.filter_append,
    List.filter_append, others, List.filter_eq_self.mpr all]
  rfl

theorem forall₂_reported_run (asked : readJob environment options = .ok job)
    (loaded : (load disk options.input job.settings.packed).result = .ok image)
    (filled : image ≠ [])
    (countable : ∀ count ∈ options.count, (count : Int) ≤ 0x7FFFFFFFFFFFFFFF) :
    let cursor := Cursor.ofImage image job.start job.stop
    List.Forall₂ (Reported cursor.stop)
      ((sweep job image options.count).instructions.filter fun i => i.status ≠ .ok)
      (((run environment disk options).notes.filter Note.isAboutInstruction).map Note.line) := by
  intro cursor
  rw [filter_notes_run asked loaded filled countable]
  apply forall₂_reported
  intro i pulled note noted
  -- What the count lets through is a part of the whole range, whose end is the one to be named.
  rw [instructions_sweep] at pulled
  have member := List.mem_of_mem_take pulled
  rw [Cursor.instructions_eq_decode] at member
  exact reported_of_note? member noted

end

/-! ## Responses -/

/-- With the log, what is said without it stands behind the log, and a trace may follow. -/
theorem errors_with_log (outcome : Outcome) :
    ∃ trace ∈ ["", Complaint.traceLine],
      outcome.errors true =
        String.join (outcome.notes.map Note.line) ++ outcome.errors false ++ trace := by
  have silent : ∃ trace ∈ ["", Complaint.traceLine], "" = "" ++ trace := ⟨"", by simp, by simp⟩
  have told : ∃ trace ∈ ["", Complaint.traceLine],
      (outcome.failure.map (Failure.report true)).getD "" =
        (outcome.failure.map (Failure.report false)).getD "" ++ trace := by
    cases outcome.failure with
    | none => exact silent
    | some failure =>
      simp only [Option.map_some, Option.getD_some, Failure.report]
      cases failure.complaint? with
      | none => exact silent
      | some complaint =>
        refine ⟨if complaint.hasTrace then Complaint.traceLine else "", ?_, ?_⟩
        · split <;> simp
        · simp [Complaint.report]
  obtain ⟨trace, known, same⟩ := told
  refine ⟨trace, known, ?_⟩
  simp only [Outcome.errors, if_true, Bool.false_eq_true, if_false, String.empty_append, same,
    String.append_assoc]

theorem failure_of_status {outcome : Outcome} (succeeds : outcome.status = 0) :
    outcome.failure = none := by
  cases failed : outcome.failure with
  | none => rfl
  | some failure =>
    rw [Outcome.status, failed] at succeeds
    exact absurd succeeds (status_ne_zero failure)

/-- The switch for the log may stand wherever an option may.  A command line that asks for the log
as well has the same status, output and file, and says behind the log what is said without it.  If
it comes to sweep a range, there is one line in the log for each instruction in the result that is
not whole, and the last line gives the number of instructions in the result. -/
theorem respond_adds_log {disk : Disk} {arguments : List RawText} {options : Options}
    (environment : Environment) (accepted : readArguments disk arguments = .ok options) :
    (∀ front back, arguments = front ++ back → admitsOption none front = true →
      ∀ name ∈ verboseNames,
        readArguments disk (front ++ name :: back) = .ok { options with verbose := true }) ∧
    ∀ arguments', readArguments disk arguments' = .ok { options with verbose := true } →
      let quiet := respond environment disk arguments
      let verbose := respond environment disk arguments'
      let notes := (run environment disk options).notes
      verbose = { quiet with errors := verbose.errors } ∧
      verbose.disk disk = quiet.disk disk ∧
      (∃ told, ∃ trace ∈ ["", Complaint.traceLine],
        verbose.errors = String.join (notes.map Note.line) ++ told ++ trace ∧
        quiet.errors = if options.verbose then verbose.errors else told) ∧
      ∀ job image, readJob environment options = .ok job →
        (load disk options.input job.settings.packed).result = .ok image → image ≠ [] →
        (∀ count ∈ options.count, (count : Int) ≤ 0x7FFFFFFFFFFFFFFF) →
        let cursor := Cursor.ofImage image job.start job.stop
        let all := cursor.instructions
        let shown := all.take (admitted options.count all.length)
        let result := sweep job image options.count
        List.Forall₂ (Reported cursor.stop) (shown.filter fun i => i.status ≠ .ok)
          ((notes.filter Note.isAboutInstruction).map Note.line) ∧
        (verbose.status = 0 →
          result.instructions = shown ∧
          (∃ text, resultText? options job.settings image result = some text ∧
            (verbose.written.map Prod.snd).getD verbose.output =
              if options.output = none then printed text else text) ∧
          verbose.errors = String.join (notes.map Note.line) ∧
          (notes.map Note.line).getLast? =
            some s!"DEBUG: Instructions disassembled: {shown.length}\n") := by
  refine ⟨fun front back split admits name switch => ?_, fun arguments' accepted' => ?_⟩
  · subst split
    exact readArguments_insert switch admits accepted
  intro quiet verbose notes
  have ran : quiet = (run environment disk options).response options.verbose := by
    simp only [quiet, respond, accepted]
  -- A run does not look at whether the log is asked for.
  have ran' : verbose = (run environment disk options).response true := by
    simp only [verbose, respond, accepted']
    rfl
  refine ⟨by rw [ran, ran']; rfl, by rw [ran, ran']; rfl, ?_, ?_⟩
  · obtain ⟨trace, known, told⟩ := errors_with_log (run environment disk options)
    refine ⟨_, trace, known, by rw [ran']; exact told, ?_⟩
    rw [ran, ran']
    cases options.verbose <;> rfl
  · intro job image asked loaded filled countable cursor all shown result
    have pulled : result.instructions = shown :=
      instructions_sweep job image options.count
    have delivers := run_eq_deliver asked loaded filled countable
    have lines := forall₂_reported_run asked loaded filled countable
    rw [pulled] at lines
    refine ⟨lines, fun succeeds => ?_⟩
    rw [ran'] at succeeds ⊢
    have delivered : (run environment disk options).failure = none := failure_of_status succeeds
    refine ⟨pulled, ?_, ?_, ?_⟩
    · rw [delivers] at delivered
      have report := report_deliver delivered
      rw [← delivers] at report
      exact report
    · simp [Outcome.response, Outcome.errors, delivered, notes]
    · rw [delivers] at delivered
      have last := getLast?_notes_deliver delivered
      rw [← delivers, pulled] at last
      rw [List.getLast?_map, last]
      rfl

/-- A count of three keeps a jump that the range cuts off out of the result and out of the log. -/
theorem respond_adds_log_of_count :
    let image : List UInt8 := [0xEA, 0x03, 0x12, 0x4C, 0x00]
    let disk : Disk := { files := [(["r"], image)] }
    let options : Options := { input := "r", count := some 3 }
    let quiet := respond (fun _ => none) disk ["r", "-c", "3"]
    let verbose := respond (fun _ => none) disk ["r", "-v", "-c", "3"]
    let unknown := Note.unknownOpcode 0x03 1
    let illegal := Note.illegalMode "ASL" 0x12 2
    readArguments disk ["r", "-c", "3"] = .ok options ∧
      verbose = { quiet with errors := verbose.errors } ∧
      List.Forall₂ (Reported 5) [Instruction.ofBytes 1 0x03 [], Instruction.ofBytes 2 0x12 []]
        [unknown.line, illegal.line] ∧
      verbose.status = 0 ∧
      verbose.errors = String.join ([.image "r" 5, .base 0, .range 0 5, unknown, illegal,
        .total 3].map Note.line) := by
  intro image disk options quiet verbose unknown illegal
  have accepted : readArguments disk ["r", "-c", "3"] = .ok options := rfl
  obtain ⟨inserts, adds⟩ := respond_adds_log (fun _ => none) accepted
  have accepted' : readArguments disk ["r", "-v", "-c", "3"] =
      .ok { options with verbose := true } :=
    inserts ["r"] ["-c", "3"] rfl rfl "-v" (by decide)
  obtain ⟨same, -, -, sweeps⟩ := adds ["r", "-v", "-c", "3"] accepted'
  have asked : readJob (fun _ => none) options =
      .ok { settings := {}, start := 0, stop := none } := rfl
  have loaded : (load disk options.input false).result = .ok image := rfl
  have countable : ∀ count ∈ options.count, (count : Int) ≤ 0x7FFFFFFFFFFFFFFF := by decide
  obtain ⟨reported, succeeds⟩ := sweeps _ image asked loaded (by decide) countable
  have delivers := run_eq_deliver asked loaded (by decide) countable
  have notes : (run (fun _ => none) disk options).notes =
      [.image "r" 5, .base 0, .range 0 5, unknown, illegal, .total 3] := by
    rw [delivers]
    rfl
  have status : verbose.status = 0 := by
    simp only [verbose, respond, accepted']
    change (run (fun _ => none) disk options).status = 0
    rw [delivers]
    rfl
  obtain ⟨-, -, errors, -⟩ := succeeds status
  have damaged : ((Cursor.ofImage image 0 none).instructions.take 3).filter (·.status ≠ .ok) =
      [Instruction.ofBytes 1 0x03 [], Instruction.ofBytes 2 0x12 []] := by
    decide
  rw [notes] at reported errors
  rw [← damaged]
  exact ⟨accepted, same, reported, status, errors⟩

end Command

end LinearSweep
