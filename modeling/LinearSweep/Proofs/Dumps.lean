import LinearSweep.Proofs.Outputs
import LinearSweep.Proofs.Rows

/-!
# Dumps beside listings

A dump shows all bytes of a range, sixteen in a row, and can be read back by its columns, `Shows`.
In the report of a run it stands in front of the listing of the same range, so the opcode of a
listed instruction is found in it: the distance from the start of the range tells the row and the
place in the row, and the addresses of both agree, `run_dumps_what_it_lists`.
-/

namespace LinearSweep

open Numeral

namespace HexDump

/-! ## Rows -/

theorem length_rows (bytes : List UInt8) : (rows bytes).length = (bytes.length + 15) / 16 := by
  fun_induction rows bytes with
  | case1 => rfl
  | case2 byte bytes ih =>
    rw [List.length_cons, ih, List.length_drop, List.length_cons, rowLength]
    omega

theorem getElem?_rows {bytes : List UInt8} {i : Nat} (within : 16 * i < bytes.length) :
    (rows bytes)[i]? = some ((bytes.drop (16 * i)).take 16) := by
  fun_induction rows bytes generalizing i with
  | case1 => simp at within
  | case2 byte bytes ih =>
    cases i with
    | zero => rfl
    | succ i =>
      have further : 16 * (i + 1) = 15 + 16 * i + 1 := by omega
      have inside : 16 * i < (bytes.drop (rowLength - 1)).length := by
        rw [List.length_cons] at within
        rw [List.length_drop, rowLength]
        omega
      rw [List.getElem?_cons_succ, ih inside, further, List.drop_succ_cons, List.drop_drop]
      rfl

theorem length_le_of_mem_rows {bytes row : List UInt8} (member : row ∈ rows bytes) :
    row.length ≤ 16 := by
  fun_induction rows bytes with
  | case1 => cases member
  | case2 byte bytes ih =>
    cases List.mem_cons.mp member with
    | inl first =>
      rw [first, List.length_cons, List.length_take, rowLength]
      omega
    | inr later => exact ih later

/-- A byte stands in its row at the place that its distance from the first byte of the row tells. -/
theorem getElem?_row (bytes : List UInt8) (d : Nat) :
    ((bytes.drop (16 * (d / 16))).take 16)[d % 16]? = bytes[d]? := by
  rw [List.getElem?_take_of_lt (Nat.mod_lt d (by decide)), List.getElem?_drop, Nat.div_add_mod]

/-! ## Columns -/

/-- What the line of a row shows, column by column. -/
theorem toList_rowLine (address : Int) (row : List UInt8) :
    (rowLine address row).toList =
      [';', ' ', '$'] ++ hex 4 (address % addressSpace) ++ [':', ' ']
        ++ (hexBytes row).toList.rightpad 48 ' ' ++ [' '] ++ row.map shown := by
  simp [rowLine, hexAddress, pairsWidth]

/-- The address at the front of a line of a dump. -/
def addressOf (line : String) : Nat :=
  valueOf 16 ((line.toList.drop 3).take 4)

/-- The bytes in the column of pairs of a line of a dump. -/
def bytesOf (line : String) : List UInt8 :=
  readPairs ((line.toList.drop 9).take 48)

/-- Lines show bytes from an address on, and no others. -/
structure Shows (bytes : List UInt8) (base : Int) (ls : List String) : Prop where
  /-- There is a line for every sixteen bytes, and one for those that are left. -/
  count : ls.length = (bytes.length + 15) / 16
  /-- The pairs of digits are those of the bytes. -/
  recovered : ls.flatMap bytesOf = bytes
  /-- A line has an address of four digits, a column of the width of sixteen pairs, and behind it a
  character for each byte. -/
  columns : ∀ (i : Nat) (line : String), ls[i]? = some line →
    ∃ digits pairs,
      line.toList = [';', ' ', '$'] ++ digits ++ [':', ' '] ++ pairs ++ [' ']
        ++ ((bytes.drop (16 * i)).take 16).map (fun byte =>
          if 0x20 ≤ byte.toNat ∧ byte.toNat ≤ 0x7E then Char.ofNat byte.toNat else '.') ∧
      digits.length = 4 ∧ (∀ digit ∈ digits, isDigitOf 16 digit = true) ∧
      (valueOf 16 digits : Int) = (base + 16 * i) % 0x10000 ∧
      pairs.length = 48 ∧ readPairs pairs = (bytes.drop (16 * i)).take 16

/-! ## Lines of rows -/

/-- The lines of the rows of a dump, without its frame. -/
def rowLines (bytes : List UInt8) (base : Int) : List String :=
  (rows bytes).zipIdx.map fun (row, i) => rowLine (base + rowLength * i) row

theorem lines_eq (bytes : List UInt8) (base : Int) :
    lines bytes base = ["; Hex dump:", rule] ++ rowLines bytes base ++ [rule, ""] := rfl

section

variable {bytes : List UInt8} {base : Int} {i : Nat}

theorem length_rowLines (bytes : List UInt8) (base : Int) :
    (rowLines bytes base).length = (bytes.length + 15) / 16 := by
  rw [rowLines, List.length_map, List.length_zipIdx, length_rows]

theorem getElem?_rowLines (base : Int) (within : 16 * i < bytes.length) :
    (rowLines bytes base)[i]? =
      some (rowLine (base + 16 * i) ((bytes.drop (16 * i)).take 16)) := by
  rw [rowLines, List.getElem?_map, List.getElem?_zipIdx, getElem?_rows within, Nat.zero_add]
  rfl

theorem length_pairs {row : List UInt8} (short : row.length ≤ 16) :
    ((hexBytes row).toList.rightpad 48 ' ').length = 48 := by
  rw [List.length_rightpad, length_hexBytes]
  omega

theorem addressOf_rowLine (address : Int) (row : List UInt8) :
    (addressOf (rowLine address row) : Int) = address % 0x10000 := by
  have column : ((rowLine address row).toList.drop 3).take 4 = hex 4 (address % addressSpace) := by
    simp only [toList_rowLine, List.append_assoc]
    exact List.take_left' (length_hex_wrapped address)
  rw [addressOf, column, valueOf_hex_wrapped]
  rfl

theorem bytesOf_rowLine (address : Int) {row : List UInt8} (short : row.length ≤ 16) :
    bytesOf (rowLine address row) = row := by
  have front : ([';', ' ', '$'] ++ hex 4 (address % addressSpace) ++ [':', ' ']).length = 9 := by
    rw [List.length_append, List.length_append, length_hex_wrapped]
    rfl
  have column : ((rowLine address row).toList.drop 9).take 48 =
      (hexBytes row).toList.rightpad 48 ' ' := by
    rw [toList_rowLine, List.append_assoc, List.append_assoc, List.drop_left' front,
      List.take_left' (length_pairs short)]
  rw [bytesOf, column, readPairs_hexBytes]

/-- The character of a byte is its own if that is visible. -/
theorem shown_eq : shown = fun byte =>
    if 0x20 ≤ byte.toNat ∧ byte.toNat ≤ 0x7E then Char.ofNat byte.toNat else '.' := by
  funext byte
  have upper : byte.toNat < 0x7F ↔ byte.toNat ≤ 0x7E := by omega
  simp only [shown, upper]

theorem flatMap_bytesOf (bytes : List UInt8) (base : Int) :
    (rowLines bytes base).flatMap bytesOf = bytes := by
  have each : (rowLines bytes base).map bytesOf = rows bytes := by
    rw [rowLines, List.map_map]
    conv => rhs; rw [← List.zipIdx_map_fst 0 (rows bytes)]
    apply List.map_congr_left
    rintro ⟨row, i⟩ member
    have short := length_le_of_mem_rows (List.fst_mem_of_mem_zipIdx member)
    rw [Function.comp_apply]
    exact bytesOf_rowLine (base + rowLength * i) short
  rw [List.flatMap_def, each, flatten_rows]

theorem shows_rowLines (bytes : List UInt8) (base : Int) :
    Shows bytes base (rowLines bytes base) := by
  constructor
  case count => exact length_rowLines bytes base
  case recovered => exact flatMap_bytesOf bytes base
  case columns =>
    intro i line place
    have within : 16 * i < bytes.length := by
      have inside := (List.getElem?_eq_some_iff.mp place).1
      rw [length_rowLines] at inside
      omega
    rw [getElem?_rowLines base within, Option.some.injEq] at place
    have short : ((bytes.drop (16 * i)).take 16).length ≤ 16 := List.length_take_le _ _
    refine ⟨hex 4 ((base + 16 * i) % addressSpace), _, ?_, length_hex_wrapped _,
      fun _ => isDigitOf_of_mem_hex_wrapped, valueOf_hex_wrapped _, length_pairs short,
      readPairs_hexBytes _ _⟩
    rw [← place, toList_rowLine, shown_eq]

end

/-- Where a byte is found in a dump. -/
theorem exists_row {bytes : List UInt8} {d : Nat} {byte : UInt8} (base : Int)
    (place : bytes[d]? = some byte) :
    ∃ row, (lines bytes base)[2 + d / 16]? = some row ∧ (bytesOf row)[d % 16]? = some byte ∧
      (addressOf row : Int) = (base + 16 * (d / 16 : Nat)) % 0x10000 := by
  have inside : d < bytes.length := (List.getElem?_eq_some_iff.mp place).1
  have within : 16 * (d / 16) < bytes.length := by omega
  let row := (bytes.drop (16 * (d / 16))).take 16
  refine ⟨rowLine (base + 16 * (d / 16 : Nat)) row, ?_, ?_, addressOf_rowLine _ row⟩
  · -- Two lines stand in front of the rows.
    have line := getElem?_rowLines base within
    have listed : d / 16 < (rowLines bytes base).length := (List.getElem?_eq_some_iff.mp line).1
    rw [lines_eq, List.append_assoc, List.getElem?_append_right (Nat.le_add_right 2 _),
      List.getElem?_append_left (by simpa using listed)]
    simpa using line
  · rw [bytesOf_rowLine _ (List.length_take_le _ _), getElem?_row, place]

end HexDump

/-! ## Listings -/

/-- The address at the front of a line of a listing. -/
def Listing.addressOf (line : String) : Nat :=
  valueOf 16 ((line.toList.drop 1).take 4)

theorem Listing.addressOf_line (base : Int) (showBytes : Bool) (i : Instruction) :
    (addressOf (i.line base showBytes) : Int) = (base + i.offset) % 0x10000 := by
  have column : ((i.line base showBytes).toList.drop 1).take 4 = hex 4 (i.address base) := by
    have front : (i.addressText base).toList = '$' :: hex 4 (i.address base) := by
      simp [Instruction.addressText, hexAddress, Instruction.address]
    unfold Instruction.line
    split <;>
      simp only [String.toList_append, List.append_assoc, front, List.cons_append,
        List.drop_succ_cons, List.drop_zero, List.take_left' (i.length_hex_address base)]
  rw [addressOf, column, i.valueOf_hex_address base]
  rfl

/-- The opcode of an instruction stands in its range, at the place that its offset tells. -/
theorem Cursor.exists_opcode {image : List UInt8} {start : Int} {stop : Option Int}
    {i : Instruction} (member : i ∈ (ofImage image start stop).instructions) :
    let span := Span.clamp image.length start stop
    ∃ (o : Nat) (opcode : UInt8), i.offset = o ∧ span.start ≤ o ∧ i.opcode = opcode.toNat ∧
      ((image.take span.stop).drop span.start)[o - span.start]? = some opcode := by
  intro span
  rw [instructions_ofImage] at member
  have covers : CoversSpan image span _ := coversSpan_decode Span.stop_clamp_le
  obtain ⟨lower, upper⟩ := covers.sideBySide.bounds_of_mem covers.sizes member
  obtain ⟨opcode, place, code, -⟩ := covers.shown i member
  have size := (covers.sizes i member).1
  refine ⟨i.offset.toNat, opcode, by omega, by omega, code, ?_⟩
  rw [List.getElem?_drop, Nat.add_sub_cancel' (by omega), List.getElem?_take_of_lt (by omega),
    place]

/-- An instruction is found in a dump of its range: its opcode is among the bytes of a row, and the
address of the row and the place in the row give the address in the line of the listing. -/
theorem Cursor.exists_row {image : List UInt8} {start : Int} {stop : Option Int} (base : Int)
    (showBytes : Bool) {i : Instruction} (member : i ∈ (ofImage image start stop).instructions) :
    let span := Span.clamp image.length start stop
    let dump := HexDump.lines ((image.take span.stop).drop span.start) (base + span.start)
    ∃ (o : Nat) (opcode : UInt8) (row : String),
      i.offset = o ∧ span.start ≤ o ∧ i.opcode = opcode.toNat ∧
      dump[2 + (o - span.start) / 16]? = some row ∧
      (HexDump.bytesOf row)[(o - span.start) % 16]? = some opcode ∧
      (HexDump.addressOf row + (o - span.start) % 16) % 0x10000 =
        Listing.addressOf (i.line base showBytes) := by
  dsimp only
  obtain ⟨o, opcode, offset, behind, code, place⟩ := exists_opcode member
  obtain ⟨row, line, pair, address⟩ :=
    HexDump.exists_row (base + (Span.clamp image.length start stop).start) place
  refine ⟨o, opcode, row, offset, behind, code, line, pair, ?_⟩
  have shown := Listing.addressOf_line base showBytes i
  rw [offset] at shown
  -- Both addresses are the base and the offset, cut down to the address space.
  omega

namespace Command

open Text

/-- The lines of a report behind its head are the same wherever it goes and whatever the file is
called. -/
theorem exists_head_of_listing (name : String) (options : Options) (settings : Settings)
    (image : List UInt8) {s : Sweep} (plain : ∀ i ∈ s.instructions, i.IsPlain)
    (p : Prop) [Decidable p] :
    let text := listingText name options settings image s
    ∃ head, lines (if p then printed text else text) =
      head ++ (bodyLines options settings s ++ [""]) := by
  intro text
  have whole : lines text = _ := lines_listingText_of_plain image plain
  split
  · rw [lines_printed, whole, List.map_append, map_printed_bodyLines plain]
    exact ⟨_, rfl⟩
  · exact ⟨_, whole⟩

/-- The lines of a report with a dump: the dump is that of the range, and the instructions of the
range stand behind it. -/
theorem exists_lines_report {environment : Environment} {disk : Disk} {options : Options}
    (dumps : options.hexDump = true) (asText : options.json = false)
    (succeeds : (run environment disk options).failure = none) :
    ∃ job image head, readJob environment options = .ok job ∧
      (load disk options.input job.settings.packed).result = .ok image ∧
      (let span := Span.clamp image.length job.start job.stop
       let all := (Cursor.ofImage image job.start job.stop).instructions
       let shown := admitted options.count all.length
       lines (run environment disk options).report =
        head
          ++ HexDump.lines ((image.take span.stop).drop span.start)
            (job.settings.base + span.start)
          ++ (all.take shown).map (Instruction.line job.settings.base job.settings.showBytes)
          ++ (if job.settings.marksEnd ∧ shown = all.length then [".END"] else [])
          ++ [""]) := by
  obtain ⟨job, image, notes, total, asked, loaded, prepared⟩ | fails :=
    run_cases environment disk options
  · have ran := prepared options.output
    change run environment disk options = _ at ran
    rw [ran] at succeeds
    obtain ⟨text, result, report⟩ := report_deliver succeeds
    rw [resultText?, asText, if_neg Bool.false_ne_true, Option.map_eq_some_iff] at result
    obtain ⟨name, -, rfl⟩ := result
    obtain ⟨head, listed⟩ := exists_head_of_listing name options job.settings image
      (isPlain_of_mem_sweep job image options.count) (options.output = none)
    have slice : (Cursor.ofImage image job.start job.stop).rest =
        (Span.clamp image.length job.start job.stop).slice image := rfl
    refine ⟨job, image, head, asked, loaded, ?_⟩
    rw [ran, report, listed, bodyLines_instructions, if_pos dumps, slice,
      Span.slice_eq]
    simp only [List.append_assoc]
    rfl
  · exact absurd succeeds (fails options.output).1

end Command

open Command Text

/-- A dump shows its bytes and no others.  In the report of a run with a dump the dump is that of
the range, and each instruction listed behind it is found in it: the distance of its offset from the
start of the range tells the row and the place of its opcode, and from the address of the row the
place leads to its address. -/
theorem run_dumps_what_it_lists :
    (∀ (bytes : List UInt8) (base : Int), ∃ ls,
      HexDump.lines bytes base = ["; Hex dump:", HexDump.rule] ++ ls ++ [HexDump.rule, ""] ∧
        HexDump.Shows bytes base ls) ∧
    ∀ {environment : Environment} {disk : Disk} {options : Options},
      options.hexDump = true → options.json = false →
      (run environment disk options).failure = none →
      ∃ job image head, readJob environment options = .ok job ∧
        (load disk options.input job.settings.packed).result = .ok image ∧
        (let base := job.settings.base
         let span := Span.clamp image.length job.start job.stop
         let dump := HexDump.lines ((image.take span.stop).drop span.start) (base + span.start)
         let all := (Cursor.ofImage image job.start job.stop).instructions
         let shown := admitted options.count all.length
         let listed := (all.take shown).map (Instruction.line base job.settings.showBytes)
         lines (run environment disk options).report =
            head ++ dump ++ listed
              ++ (if job.settings.marksEnd ∧ shown = all.length then [".END"] else [])
              ++ [""] ∧
          ∀ (k : Nat) (line : String), listed[k]? = some line →
            ∃ (i : Instruction) (o : Nat) (opcode : UInt8) (row : String),
              all[k]? = some i ∧ i.offset = o ∧ i.opcode = opcode.toNat ∧ span.start ≤ o ∧
              dump[2 + (o - span.start) / 16]? = some row ∧
              (HexDump.bytesOf row)[(o - span.start) % 16]? = some opcode ∧
              (HexDump.addressOf row + (o - span.start) % 16) % 0x10000 =
                Listing.addressOf line) := by
  refine ⟨fun bytes base => ⟨HexDump.rowLines bytes base, rfl, HexDump.shows_rowLines bytes base⟩,
    fun dumps asText succeeds => ?_⟩
  obtain ⟨job, image, head, asked, loaded, report⟩ := exists_lines_report dumps asText succeeds
  refine ⟨job, image, head, asked, loaded, report, fun k line place => ?_⟩
  rw [List.getElem?_map, Option.map_eq_some_iff] at place
  obtain ⟨i, taken, rfl⟩ := place
  rw [List.getElem?_take] at taken
  split at taken
  next =>
    obtain ⟨o, opcode, row, offset, behind, code, found⟩ :=
      Cursor.exists_row job.settings.base job.settings.showBytes (List.mem_of_getElem? taken)
    exact ⟨i, o, opcode, row, taken, offset, code, behind, found⟩
  next => cases taken

/-- The last of seven jumps is found in the second row of the dump.  The range starts behind the
first byte of the image, and its addresses go across the end of the address space. -/
theorem run_dumps_last_jump :
    let image : List UInt8 := 0xEA :: (List.replicate 7 [0x4C, 0x00, 0x10]).flatten
    let disk : Disk := { files := [(["rom"], image)] }
    let options : Options :=
      { input := "rom", address := some "$FFF8", start := some "1", hexDump := true }
    let outcome := run (fun _ => none) disk options
    let dump := HexDump.lines (image.drop 1) 0xFFF9
    let row := "; $0009: 00 10 4C 00 10                                   ..L.."
    let last := "$000B: 4C 00 10  JMP $1000"
    options.hexDump = true ∧ options.json = false ∧ outcome.failure = none ∧
      (∃ head, lines outcome.report = head ++ dump ++
        ["$FFF9: 4C 00 10  JMP $1000", "$FFFC: 4C 00 10  JMP $1000", "$FFFF: 4C 00 10  JMP $1000",
          "$0002: 4C 00 10  JMP $1000", "$0005: 4C 00 10  JMP $1000", "$0008: 4C 00 10  JMP $1000",
          last, ".END", ""]) ∧
      dump[3]? = some row ∧ (HexDump.bytesOf row)[2]? = some 0x4C ∧
      (HexDump.addressOf row + 2) % 0x10000 = Listing.addressOf last := by
  intro image disk options outcome dump row last
  have asked : readJob (fun _ => none) options =
      .ok { settings := { base := 0xFFF8 }, start := 1, stop := none } := rfl
  have loaded : (load disk options.input false).result = .ok image := rfl
  have succeeds : outcome.failure = none := by
    obtain ⟨notes, total, ran⟩ := exists_run_eq_deliver asked loaded (by decide) (by simp [options])
    simp only [outcome, ran]
    exact failure_deliver (by simp [options]) ((isSome_resultText? ..).trans (by decide))
  obtain ⟨job, loadedImage, head, asked', loaded', report, found⟩ :=
    run_dumps_what_it_lists.2 rfl rfl succeeds
  obtain rfl : _ = job := Except.ok.inj (asked.symm.trans asked')
  obtain rfl : image = loadedImage := Except.ok.inj (loaded.symm.trans loaded')
  have span : Span.clamp image.length 1 none = { start := 1, stop := 22 } := rfl
  have jump : ((Cursor.ofImage image 1 none).instructions[6]?).map
      (fun i => (i.offset, i.opcode)) = some (19, 0x4C) := by decide +kernel
  have second : dump[3]? = some row := by decide +kernel
  dsimp only at report found
  rw [span] at report found
  obtain ⟨i, o, opcode, shown, listed, offset, code, -, line, pair, address⟩ :=
    found 6 last (by decide +kernel)
  rw [listed, Option.map_some, Option.some.injEq, Prod.mk.injEq] at jump
  obtain rfl : o = 19 := by omega
  obtain rfl : shown = row := Option.some.inj (line.symm.trans second)
  have code' : opcode.toNat = 0x4C := by omega
  obtain rfl : opcode = 0x4C := UInt8.toNat_inj.mp code'
  refine ⟨rfl, rfl, succeeds, ⟨head, report.trans ?_⟩, second, pair, address⟩
  rw [List.append_assoc, List.append_assoc]
  refine congrArg (head ++ dump ++ ·) ?_
  decide +kernel

end LinearSweep
