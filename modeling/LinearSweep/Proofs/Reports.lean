import LinearSweep.Command.Run
import LinearSweep.Proofs.Characters
import LinearSweep.Proofs.Printing

/-!
# Reports of runs

A run puts its report together from a sweep that the count may cut short, `instructions_sweep`, and
decides for itself whether it came to the end, `complete_sweep`.  `run_reports_listing` says that
the outcome agrees with the listing of the whole range: the lines behind the head and the dump are
the first ones of that listing, as they are in the file or on the output.
-/

namespace LinearSweep

open Text

namespace Command

/-- What a run reports, wherever it goes: to the file that was asked for, or to the output. -/
def Outcome.report (outcome : Outcome) : String :=
  (outcome.written.map Prod.snd).getD outcome.output

/-! ## Sweeps -/

/-- How many of a number of instructions a count lets through. -/
def admitted (count : Option Nat) (total : Nat) : Nat :=
  match count with
  | none => total
  | some count => min count total

theorem cursor_sweep (job : Job) (image : List UInt8) (count : Option Nat) :
    (sweep job image count).cursor = Cursor.ofImage image job.start job.stop := rfl

theorem instructions_sweep (job : Job) (image : List UInt8) (count : Option Nat) :
    let all := (Cursor.ofImage image job.start job.stop).instructions
    (sweep job image count).instructions = all.take (admitted count all.length) := by
  intro all
  have pulled : (sweep job image count).instructions =
      all.take (count.getD (Cursor.ofImage image job.start job.stop).bytesLeft) :=
    Cursor.fst_take _ _
  rw [pulled]
  cases count with
  | none =>
    rw [Option.getD_none, admitted, List.take_length]
    exact List.take_of_length_le (Cursor.length_instructions_le _)
  | some count =>
    exact List.take_eq_take_min

theorem complete_sweep (job : Job) (image : List UInt8) (count : Option Nat) :
    let all := (Cursor.ofImage image job.start job.stop).instructions
    (sweep job image count).complete = true ↔ admitted count all.length = all.length := by
  intro all
  have left : (sweep job image count).complete = true ↔
      all.drop (count.getD (Cursor.ofImage image job.start job.stop).bytesLeft) = [] := by
    rw [← Cursor.instructions_take]
    exact Cursor.atEnd_iff_instructions
  rw [left, List.drop_eq_nil_iff]
  cases count with
  | none =>
    have bound : all.length ≤ _ := Cursor.length_instructions_le _
    simpa [admitted] using bound
  | some count =>
    simp only [Option.getD_some, admitted]
    omega

theorem isPlain_of_mem_sweep (job : Job) (image : List UInt8) (count : Option Nat) :
    ∀ i ∈ (sweep job image count).instructions, i.IsPlain := by
  intro i member
  rw [instructions_sweep] at member
  exact Cursor.isPlain_of_mem (List.mem_of_mem_take member)

/-! ## Lines -/

theorem unbroken_of_consists {text : String} (consists : Consists isVisible text) :
    '\n' ∉ text.toList :=
  consists.not_mem (by decide)

theorem printed_of_consists {text : String} (consists : Consists isVisible text) :
    printed text = text :=
  printed_of_not_mem (consists.not_mem (by decide))

theorem consists_of_mem_header (name : String) {size : Nat} {base : Int} {cursor : Cursor}
    {line : String} (member : line ∈ (header name size base cursor).tail) :
    Consists isVisible line := by
  have hex (value : Int) : Consists isVisible (String.ofList (Numeral.hex 4 value)) :=
    Numeral.consists_hex.mono fun _ => isVisible_of_isPlain
  have count : Consists isVisible (toString size) :=
    (Numeral.consists_toString_nat size).mono fun _ => isVisible_of_isPlain
  have words : ∀ word ∈ ["; Size: ", " bytes", "; Base address: $", "; Range: $", "-$", ""],
      Consists isVisible word := by
    decide
  simp only [header, List.tail_cons, List.mem_cons, List.not_mem_nil, or_false] at member
  simp only [List.forall_mem_cons] at words
  have same (text : String) : toString text = text := rfl
  obtain rfl | rfl | rfl | rfl := member <;>
    simp only [consists_append, same, words, hex, count, and_self]

/-- The lines of a report that the name of the file has no part in. -/
def bodyLines (options : Options) (settings : Settings) (s : Sweep) : List String :=
  (if options.hexDump then HexDump.lines s.cursor.rest (settings.base + s.cursor.start) else [])
    ++ s.instructions.map (Instruction.line settings.base settings.showBytes)
    ++ (if settings.marksEnd && s.complete then [Listing.endMark] else [])

theorem listingLines_eq (name : String) (options : Options) (settings : Settings)
    (image : List UInt8) (s : Sweep) :
    listingLines name options settings image s =
      header name image.length settings.base s.cursor ++ bodyLines options settings s := by
  simp only [listingLines, bodyLines, Listing.lines, List.append_assoc]

theorem consists_of_mem_bodyLines {options : Options} {settings : Settings} {s : Sweep}
    (plain : ∀ i ∈ s.instructions, i.IsPlain) {line : String}
    (member : line ∈ bodyLines options settings s) : Consists isVisible line := by
  simp only [bodyLines, List.mem_append] at member
  obtain (dump | listed) | mark := member
  · split at dump
    · exact HexDump.consists_of_mem_lines dump
    · cases dump
  · obtain ⟨i, pulled, rfl⟩ := List.mem_map.mp listed
    exact ((plain i pulled).line _ _).mono fun _ => isVisible_of_isPlain
  · split at mark
    · rw [List.mem_singleton.mp mark]
      decide
    · cases mark

theorem lines_listing {cursor : Cursor} {layout : Listing} (unmarked : layout.marksEnd = false)
    (count : Option Nat) :
    let all := cursor.instructions
    let shown := admitted count all.length
    (lines (cursor.listing layout)).take shown =
      (all.take shown).map (Instruction.line layout.base layout.showBytes) := by
  intro all shown
  have text : cursor.listing layout =
      "\n".intercalate (all.map (Instruction.line layout.base layout.showBytes)) := by
    simp [Cursor.listing, Listing.render, Listing.lines, unmarked, all]
  by_cases none : all = []
  · have zero : shown = 0 := by
      cases count <;> simp [shown, admitted, none]
    rw [zero, List.take_zero, List.take_zero, List.map_nil]
  · have unbroken : ∀ l ∈ all.map (Instruction.line layout.base layout.showBytes),
        '\n' ∉ l.toList := by
      intro l member
      obtain ⟨i, inside, rfl⟩ := List.mem_map.mp member
      exact ((Cursor.isPlain_of_mem inside).line _ _).not_mem (by decide)
    rw [text, lines_intercalate (by simpa using none) unbroken, List.map_take]

/-- The lines behind the head are the dump, the instructions that the count lets through, and the
mark. -/
theorem bodyLines_instructions (options : Options) (job : Job) (image : List UInt8) :
    let cursor := Cursor.ofImage image job.start job.stop
    let all := cursor.instructions
    let shown := admitted options.count all.length
    bodyLines options job.settings (sweep job image options.count) =
      (if options.hexDump then HexDump.lines cursor.rest (job.settings.base + cursor.start) else [])
        ++ (all.take shown).map (Instruction.line job.settings.base job.settings.showBytes)
        ++ (if job.settings.marksEnd ∧ shown = all.length then [".END"] else []) := by
  intro cursor all shown
  have mark : (job.settings.marksEnd && (sweep job image options.count).complete) = true ↔
      job.settings.marksEnd = true ∧ shown = all.length := by
    rw [Bool.and_eq_true]
    exact and_congr_right fun _ => complete_sweep job image options.count
  simp only [bodyLines, mark]
  rw [instructions_sweep, cursor_sweep]
  rfl

/-- The instructions behind the head are the first lines of the listing. -/
theorem bodyLines_sweep (options : Options) (job : Job) (image : List UInt8) :
    let cursor := Cursor.ofImage image job.start job.stop
    let total := cursor.instructions.length
    let shown := admitted options.count total
    bodyLines options job.settings (sweep job image options.count) =
      (if options.hexDump then HexDump.lines cursor.rest (job.settings.base + cursor.start) else [])
        ++ (lines (cursor.listing {
              base := job.settings.base
              showBytes := job.settings.showBytes
              marksEnd := false })).take shown
        ++ (if job.settings.marksEnd ∧ shown = total then [".END"] else []) := by
  intro cursor total shown
  rw [lines_listing rfl options.count]
  exact bodyLines_instructions options job image

/-- The lines of a listing behind the first, in which the name of the file stands. -/
def listingRest (name : String) (options : Options) (settings : Settings) (image : List UInt8)
    (s : Sweep) : String :=
  "\n".intercalate ((header name image.length settings.base s.cursor).tail
    ++ bodyLines options settings s) ++ "\n"

section

variable {name : String} {options : Options} {settings : Settings} (image : List UInt8) {s : Sweep}

theorem header_eq_cons (name : String) (size : Nat) (base : Int) (cursor : Cursor) :
    header name size base cursor =
      ("; Disassembly of " ++ name) :: (header name size base cursor).tail := rfl

theorem listingText_eq :
    listingText name options settings image s =
      "; Disassembly of " ++ name ++ "\n" ++ listingRest name options settings image s := by
  have more : (header name image.length settings.base s.cursor).tail
      ++ bodyLines options settings s ≠ [] := by
    simp [header]
  rw [listingText, listingLines_eq, listingRest, header_eq_cons, List.cons_append,
    String.intercalate_cons_of_ne_nil more, String.append_assoc, List.tail_cons]

theorem lines_listingRest (plain : ∀ i ∈ s.instructions, i.IsPlain) :
    lines (listingRest name options settings image s) =
      (header name image.length settings.base s.cursor).tail
        ++ bodyLines options settings s ++ [""] := by
  apply lines_ended (by simp [header])
  intro line member
  cases List.mem_append.mp member with
  | inl others => exact unbroken_of_consists (consists_of_mem_header _ others)
  | inr body => exact unbroken_of_consists (consists_of_mem_bodyLines plain body)

/-- The name of the file may make several lines of the first one, and has no part in the others. -/
theorem lines_listingText_of_plain (plain : ∀ i ∈ s.instructions, i.IsPlain) :
    lines (listingText name options settings image s) =
      lines ("; Disassembly of " ++ name)
        ++ (header name image.length settings.base s.cursor).tail
        ++ (bodyLines options settings s ++ [""]) := by
  rw [listingText_eq, lines_append, lines_listingRest image plain, List.append_assoc,
    List.append_assoc]

theorem lines_listingText (plain : ∀ i ∈ s.instructions, i.IsPlain)
    (named : '\n' ∉ name.toList) :
    lines (listingText name options settings image s) =
      header name image.length settings.base s.cursor
        ++ bodyLines options settings s ++ [""] := by
  have front : '\n' ∉ "; Disassembly of ".toList := by decide
  have unbroken : '\n' ∉ ("; Disassembly of " ++ name).toList := by
    rw [String.toList_append, List.mem_append, not_or]
    exact ⟨front, named⟩
  rw [lines_listingText_of_plain _ plain, lines_of_unbroken unbroken, ← List.append_assoc,
    header_eq_cons]
  rfl

end

/-- Nothing is lost behind the head of a report when it is printed. -/
theorem map_printed_bodyLines {options : Options} {settings : Settings} {s : Sweep}
    (plain : ∀ i ∈ s.instructions, i.IsPlain) :
    (bodyLines options settings s ++ [""]).map printed = bodyLines options settings s ++ [""] := by
  conv => rhs; rw [← List.map_id (bodyLines options settings s ++ [""])]
  apply List.map_congr_left
  intro line member
  apply printed_of_consists
  cases List.mem_append.mp member with
  | inl body => exact consists_of_mem_bodyLines plain body
  | inr last => simp [List.mem_singleton.mp last]

theorem lines_printed_listingText {name : String} {options : Options} {settings : Settings}
    (image : List UInt8) {s : Sweep} (plain : ∀ i ∈ s.instructions, i.IsPlain)
    (named : '\n' ∉ name.toList) :
    lines (printed (listingText name options settings image s)) =
      (header name image.length settings.base s.cursor).map printed
        ++ bodyLines options settings s ++ [""] := by
  rw [lines_printed, lines_listingText image plain named, List.append_assoc, List.map_append,
    map_printed_bodyLines plain, List.append_assoc]

theorem consists_jsonText (settings : Settings) {s : Sweep}
    (plain : ∀ i ∈ s.instructions, i.IsPlain) : Consists Json.isJsonChar (jsonText settings s) := by
  have feed : Consists Json.isJsonChar "\n" := by decide
  have records : Consists Json.isJsonChar
      (Json.render (s.instructions.map (Instruction.record settings.base))) := by
    apply Json.consists_render
    intro fields member
    obtain ⟨i, pulled, rfl⟩ := List.mem_map.mp member
    exact (plain i pulled).record settings.base
  rw [jsonText, consists_append]
  exact ⟨records, feed⟩

/-! ## Encoding -/

/-- A result can be encoded if it is in JSON or if the name of the input is text. -/
def Options.isEncodable (options : Options) : Bool :=
  options.json || (Path.fileName options.input).text?.isSome

theorem isSome_resultText? (options : Options) (settings : Settings) (image : List UInt8)
    (s : Sweep) : (resultText? options settings image s).isSome = options.isEncodable := by
  unfold resultText? Options.isEncodable
  cases options.json <;> simp

/-! ## Reports -/

section

variable {disk : Disk} {output : Option RawText} {path : RawText} {location : Location}
  {notes : List Note} {result : Option String} {total : Nat}

theorem deliver_of_misplaced {fault : PathFault}
    (misplaced : disk.place (Path.shown path) = .error fault) :
    deliver disk (some path) notes result total =
      { failure := some (.unwritable (Path.shown path) fault), notes } := by
  simp only [deliver, misplaced]

theorem deliver_of_placed (placed : disk.place (Path.shown path) = .ok location) (text : String) :
    deliver disk (some path) notes (some text) total =
      { notes := notes ++ [.written (Path.shown path), .total total]
        written := some (location, text) } := by
  simp only [deliver, placed]

/-- The file is emptied for a result that cannot be encoded. -/
theorem deliver_none_of_placed (placed : disk.place (Path.shown path) = .ok location) :
    deliver disk (some path) notes none total =
      { failure := some .unencodable, notes, written := some (location, "") } := by
  simp only [deliver, placed]

/-- A result is printed, or written to the file that was asked for, or the delivery fails. -/
theorem deliver_cases (disk : Disk) (output : Option RawText) (notes : List Note)
    (result : Option String) (total : Nat) :
    (∃ failure written, deliver disk output notes result total =
      { failure := some failure, notes, written }) ∨
    ∃ text, result = some text ∧
      (output = none ∧ deliver disk output notes result total =
          { notes := notes ++ [.total total], output := printed text } ∨
        ∃ path location, output = some path ∧ deliver disk output notes result total =
          { notes := notes ++ [.written (Path.shown path), .total total]
            written := some (location, text) }) := by
  cases output with
  | none =>
    cases result with
    | none => exact .inl ⟨_, _, rfl⟩
    | some text => exact .inr ⟨text, rfl, .inl ⟨rfl, rfl⟩⟩
  | some path =>
    cases place : disk.place (Path.shown path) with
    | error fault => exact .inl ⟨_, _, deliver_of_misplaced place⟩
    | ok location =>
      cases result with
      | none => exact .inl ⟨_, _, deliver_none_of_placed place⟩
      | some text =>
        exact .inr ⟨text, rfl, .inr ⟨path, location, rfl, deliver_of_placed place text⟩⟩

theorem report_deliver (delivered : (deliver disk output notes result total).failure = none) :
    ∃ text, result = some text ∧
      (deliver disk output notes result total).report =
        if output = none then printed text else text := by
  obtain ⟨failure, written, fails⟩ | ⟨text, same, goes⟩ :=
    deliver_cases disk output notes result total
  · rw [fails] at delivered
    cases delivered
  · refine ⟨text, same, ?_⟩
    obtain ⟨rfl, goes⟩ | ⟨path, location, rfl, goes⟩ := goes <;>
      rw [goes] <;> rfl

theorem failure_deliver
    (possible : ∀ path ∈ output, ∃ location, disk.place (Path.shown path) = .ok location)
    (encodable : result.isSome = true) :
    (deliver disk output notes result total).failure = none := by
  obtain ⟨text, rfl⟩ := Option.isSome_iff_exists.mp encodable
  cases output with
  | none => rfl
  | some path =>
    obtain ⟨location, place⟩ := possible path rfl
    rw [deliver_of_placed place]

end

/-- A run that has loaded an image comes to the delivery of its report, with everything that it has
noted on the way. -/
theorem run_eq_deliver {environment : Environment} {disk : Disk} {options : Options} {job : Job}
    {image : List UInt8} (asked : readJob environment options = .ok job)
    (loaded : (load disk options.input job.settings.packed).result = .ok image)
    (filled : image ≠ [])
    (countable : ∀ count ∈ options.count, (count : Int) ≤ 0x7FFFFFFFFFFFFFFF) :
    let s := sweep job image options.count
    run environment disk options =
      deliver disk options.output
        ((load disk options.input job.settings.packed).notes ++
          [.image (Path.shown options.input) image.length, .base job.settings.base,
            .range s.cursor.start s.cursor.stop] ++
          s.instructions.filterMap Instruction.note?)
        (resultText? options job.settings image s) s.instructions.length := by
  have nonempty : ¬ image.isEmpty = true := by simpa using filled
  have small : ¬ maxOffset < (options.count.getD 0 : Nat) := by
    cases count : options.count with
    | none => simp [maxOffset]
    | some n =>
      have bound := countable n count
      simp only [Option.getD_some, maxOffset]
      omega
  simp only [run, asked, loaded, runOn, if_neg nonempty, if_neg small]

theorem exists_run_eq_deliver {environment : Environment} {disk : Disk} {options : Options}
    {job : Job} {image : List UInt8} (asked : readJob environment options = .ok job)
    (loaded : (load disk options.input job.settings.packed).result = .ok image)
    (filled : image ≠ [])
    (countable : ∀ count ∈ options.count, (count : Int) ≤ 0x7FFFFFFFFFFFFFFF) :
    ∃ notes total, run environment disk options =
      deliver disk options.output notes
        (resultText? options job.settings image (sweep job image options.count)) total :=
  ⟨_, _, run_eq_deliver asked loaded filled countable⟩

end Command

open Command

/-- A run lists the instructions that its count lets through as the listing of the range does, and
marks the end exactly if these are all of them.  In JSON it gives the records of the same
instructions, and no mark. -/
theorem run_reports_listing {environment : Environment} {disk : Disk} {options : Options}
    {job : Job} {image : List UInt8} (asked : readJob environment options = .ok job)
    (loaded : (load disk options.input job.settings.packed).result = .ok image)
    (filled : image ≠ [])
    (countable : ∀ count ∈ options.count, (count : Int) ≤ 0x7FFFFFFFFFFFFFFF)
    (named : .char '\n' ∉ Path.fileName options.input) :
    let cursor := Cursor.ofImage image job.start job.stop
    let all := cursor.instructions
    let shown := admitted options.count all.length
    let outcome := run environment disk options
    ((∀ path ∈ options.output, ∃ location, disk.place (Path.shown path) = .ok location) →
        options.isEncodable = true → outcome.failure = none) ∧
      (outcome.failure = none →
        if options.json then
          outcome.report =
              Json.render ((all.take shown).map (Instruction.record job.settings.base)) ++ "\n" ∧
            ¬ ".END".toList <:+: outcome.report.toList
        else
          ∃ name, (Path.fileName options.input).text? = some name ∧
            lines outcome.report =
              (header name image.length job.settings.base cursor).map
                  (if options.output = none then printed else id)
                ++ (if options.hexDump then
                      HexDump.lines cursor.rest (job.settings.base + cursor.start)
                    else [])
                ++ (lines (cursor.listing {
                      base := job.settings.base
                      showBytes := job.settings.showBytes
                      marksEnd := false })).take shown
                ++ (if job.settings.marksEnd ∧ shown = all.length then [".END"] else [])
                ++ [""]) := by
  intro cursor all shown outcome
  obtain ⟨notes, total, ran⟩ := exists_run_eq_deliver asked loaded filled countable
  have pulled : (sweep job image options.count).instructions = all.take shown :=
    instructions_sweep job image options.count
  have plain := isPlain_of_mem_sweep job image options.count
  refine ⟨fun possible encodable => ?_, fun delivered => ?_⟩
  · simp only [outcome, ran]
    exact failure_deliver possible ((isSome_resultText? ..).trans encodable)
  · simp only [outcome, ran] at delivered ⊢
    obtain ⟨text, result, report⟩ := report_deliver delivered
    rw [report]
    cases format : options.json with
    | true =>
      obtain rfl : jsonText job.settings (sweep job image options.count) = text := by
        simpa [resultText?, format] using result
      have consists := consists_jsonText job.settings plain
      rw [printed_of_not_mem (consists.not_mem (by decide)), ite_self]
      refine ⟨by rw [jsonText, pulled], ?_⟩
      rintro ⟨before, behind, found⟩
      refine consists.not_mem (c := '.') (by decide) ?_
      rw [← found]
      simp
    | false =>
      rw [resultText?, format, if_neg Bool.false_ne_true, Option.map_eq_some_iff] at result
      obtain ⟨name, whole, rfl⟩ := result
      have unbroken : '\n' ∉ name.toList := RawText.not_mem_of_text? whole named
      have body := bodyLines_sweep options job image
      rw [if_neg Bool.false_ne_true]
      refine ⟨name, whole, ?_⟩
      cases options.output with
      | none =>
        rw [if_pos rfl, if_pos rfl, lines_printed_listingText image plain unbroken, body]
        simp only [List.append_assoc]
        rfl
      | some path =>
        rw [if_neg (by simp), if_neg (by simp), List.map_id, lines_listingText image plain unbroken,
          body]
        simp only [List.append_assoc]
        rfl

/-- A count of two lets through all of a range that ends within a jump. -/
theorem run_reports_truncated_range :
    let image : List UInt8 := [0xEA, 0xA9, 0x41, 0x4C, 0x00]
    let disk : Disk := { files := [(["rom.bin"], image)] }
    let options : Options :=
      { input := "rom.bin", address := some "$C000", start := some "1", count := some 2 }
    let outcome := run (fun _ => none) disk options
    readJob (fun _ => none) options =
        .ok { settings := { base := 0xC000 }, start := 1, stop := none } ∧
      (load disk options.input false).result = .ok image ∧
      image ≠ [] ∧ (∀ count ∈ options.count, (count : Int) ≤ 0x7FFFFFFFFFFFFFFF) ∧
      .char '\n' ∉ Path.fileName options.input ∧ options.isEncodable = true ∧
      outcome.failure = none ∧
      lines outcome.report =
        ["; Disassembly of rom.bin", "; Size: 5 bytes", "; Base address: $C000",
          "; Range: $0001-$0005", "", "$C001: A9 41     LDA #$41", "$C003: 4C        JMP END",
          ".END", ""] := by
  intro image disk options outcome
  have asked : readJob (fun _ => none) options =
      .ok { settings := { base := 0xC000 }, start := 1, stop := none } := rfl
  have loaded : (load disk options.input false).result = .ok image := rfl
  have filled : image ≠ [] := by decide
  have countable : ∀ count ∈ options.count, (count : Int) ≤ 0x7FFFFFFFFFFFFFFF := by decide
  have named : .char '\n' ∉ Path.fileName options.input := by decide
  have encodable : options.isEncodable = true := by decide
  obtain ⟨succeeds, reports⟩ := run_reports_listing asked loaded filled countable named
  have delivered : outcome.failure = none := succeeds (by simp [options]) encodable
  obtain ⟨name, whole, listed⟩ := reports delivered
  obtain rfl : "rom.bin" = name := by
    have text : (Path.fileName options.input).text? = some "rom.bin" := rfl
    exact Option.some.inj (text.symm.trans whole)
  refine ⟨asked, loaded, filled, countable, named, encodable, delivered, listed.trans ?_⟩
  decide +kernel

end LinearSweep
