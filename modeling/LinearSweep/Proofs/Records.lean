import LinearSweep.Proofs.JsonReading
import LinearSweep.Proofs.Reports
import LinearSweep.Proofs.Rows

/-!
# Records of a report

An object of a report in JSON gives an account of one instruction.  From the account alone the line
of the instruction in a listing with bytes is rebuilt, `line_account`, and the parts of the account
agree with each other, `Account.Agrees`, and with the account of the next instruction,
`Account.Precedes`.  `run_reports_accounts` says that this is so for every report of a run.
-/

namespace LinearSweep

open Numeral

/-! ## Fields of a document -/

namespace Json.Document

def text? : Document → Option String
  | .text content => some content
  | _ => none

def integer? : Document → Option Int
  | .integer n => some n
  | _ => none

def texts? : Document → Option (List String)
  | .array items => items.mapM text?
  | _ => none

/-- The value of the field of an object that has a name. -/
def field? (name : String) : Document → Option Document
  | .object fields => fields.lookup name
  | _ => none

theorem texts?_array (texts : List String) : texts? (.array (texts.map .text)) = some texts := by
  have each : text? ∘ Document.text = fun text => pure (id text) := rfl
  rw [texts?, List.mapM_map, each, List.mapM_pure, List.map_id]
  rfl

end Json.Document

/-! ## Accounts -/

/-- What an object of a report says of an instruction. -/
structure Account where
  address : String
  addressInt : Int
  offset : Int
  opcode : String
  mnemonic : String
  mode : String
  operand : String
  text : String
  size : Int
  bytes : List String
  status : String
  deriving DecidableEq, Repr

namespace Account

open Json Document

def ofDocument? (object : Document) : Option Account := do
  let address ← object.field? "address" >>= text?
  let addressInt ← object.field? "address_int" >>= integer?
  let offset ← object.field? "offset" >>= integer?
  let opcode ← object.field? "opcode" >>= text?
  let mnemonic ← object.field? "mnemonic" >>= text?
  let mode ← object.field? "mode" >>= text?
  let operand ← object.field? "operand" >>= text?
  let text ← object.field? "text" >>= text?
  let size ← object.field? "size" >>= integer?
  let bytes ← object.field? "bytes" >>= texts?
  let status ← object.field? "status" >>= text?
  return { address, addressInt, offset, opcode, mnemonic, mode, operand, text, size, bytes, status }

/-- An entry of the bytes without the mark of hexadecimal numerals. -/
def unmarked (entry : String) : String :=
  String.ofList (entry.toList.erase '$')

/-- The line that a listing with bytes has for the instruction. -/
def line (a : Account) : String :=
  let bytes := " ".intercalate (a.bytes.map unmarked)
  a.address ++ ": " ++ String.ofList (bytes.toList.rightpad 8 ' ') ++ "  " ++ a.text

/-- The parts of an account agree with each other. -/
structure Agrees (a : Account) : Prop where
  /-- The address is given in four digits and as a number. -/
  address : ∃ digits, a.address = "$" ++ String.ofList digits ∧ digits.length = 4 ∧
    (∀ digit ∈ digits, isDigitOf 16 digit = true) ∧ (valueOf 16 digits : Int) = a.addressInt
  /-- All bytes are given, or the opcode alone. -/
  bytes : (a.bytes.length : Int) = if a.status = "truncated" then 1 else a.size
  text : a.text = if a.operand = "" then a.mnemonic else a.mnemonic ++ " " ++ a.operand

/-- The instruction of an account lies right in front of that of another one, also across the end of
the address space. -/
def Precedes (a next : Account) : Prop :=
  next.offset = a.offset + a.size ∧ next.addressInt = (a.addressInt + a.size) % 0x10000

end Account

namespace Instruction

/-- The account of an instruction of an image that is loaded at `base`. -/
def account (base : Int) (i : Instruction) : Account where
  address := i.addressText base
  addressInt := i.address base
  offset := i.offset
  opcode := "$" ++ String.ofList (hex 2 i.opcode)
  mnemonic := i.mnemonic
  mode := i.mode.name
  operand := i.operand
  text := i.text
  size := i.size
  bytes := i.bytes.map fun byte => "$" ++ hexByte byte
  status := i.status.name

/-- The object of an instruction gives its account. -/
theorem ofDocument?_record (base : Int) (i : Instruction) :
    Account.ofDocument? (Json.document (i.record base)) = some (i.account base) := by
  -- The fields are looked up first; what their values say is then a matter of their kinds.
  simp only [Account.ofDocument?, Json.document, record, List.map_cons, List.map_nil,
    Json.Document.field?, List.lookup_cons]
  simp [Json.Document.text?, Json.Document.integer?, Json.Value.document,
    Json.Document.texts?_array, account, -List.map_map]

theorem unmarked_hexByte (byte : UInt8) :
    Account.unmarked ("$" ++ hexByte byte) = hexByte byte := by
  have marked : ("$" ++ hexByte byte).toList = '$' :: (hexByte byte).toList := by simp
  rw [Account.unmarked, marked, List.erase_cons_head, String.ofList_toList]

/-- The line of an instruction is rebuilt from its account. -/
theorem line_account (base : Int) (i : Instruction) :
    (i.account base).line = i.line base true := by
  have bytes : (i.account base).bytes.map Account.unmarked = i.bytes.map hexByte := by
    simp [account, unmarked_hexByte]
  rw [Account.line, bytes]
  rfl

theorem name_eq_truncated_iff (status : Status) :
    status.name = "truncated" ↔ status = .truncated := by
  cases status <;> decide

/-- An instruction shows its opcode alone, or as many bytes as it takes up. -/
theorem length_bytes_eq_of_mem_decode {i : Instruction} {offset : Nat} {bytes : List UInt8}
    (member : i ∈ decode offset bytes) :
    (i.bytes.length : Int) = if i.status = .truncated then 1 else i.size := by
  obtain ⟨place, opcode, behind, rfl, within⟩ := ofBytes_of_mem_decode member
  rw [bytes_ofBytes within, size_ofBytes]
  split
  · rfl
  · rw [List.length_cons]
    omega

theorem agrees_account (base : Int) {c : Cursor} {i : Instruction} (member : i ∈ c.instructions) :
    (i.account base).Agrees := by
  constructor
  case address =>
    exact ⟨hex 4 (i.address base), rfl, i.length_hex_address base,
      fun _ => isDigitOf_of_mem_hex_address, i.valueOf_hex_address base⟩
  case bytes =>
    rw [Cursor.instructions_eq_decode] at member
    simp only [account, List.length_map, name_eq_truncated_iff]
    exact length_bytes_eq_of_mem_decode member
  case text => rfl

/-- Instructions that lie side by side precede each other in any image. -/
theorem precedes_account (base : Int) {i next : Instruction}
    (behind : next.offset = i.offset + i.size) :
    (i.account base).Precedes (next.account base) := by
  refine ⟨behind, ?_⟩
  simp only [account, address, addressSpace, behind]
  omega

end Instruction

theorem SideBySide.offset_next {start stop : Int} {is : List Instruction}
    (tiles : SideBySide start is stop) {k : Nat} {i next : Instruction}
    (here : is[k]? = some i) (there : is[k + 1]? = some next) :
    next.offset = i.offset + i.size := by
  induction is generalizing start k with
  | nil => cases here
  | cons first is ih =>
    obtain ⟨place, others⟩ := tiles
    cases k with
    | succ k => exact ih others here there
    | zero =>
      cases is with
      | nil => cases there
      | cons second is =>
        cases here
        cases there
        rw [others.1, place]

/-! ## Reports -/

namespace Command

/-- The text of a report in JSON. -/
theorem report_of_json {environment : Environment} {disk : Disk} {options : Options} {job : Job}
    {image : List UInt8} (asked : readJob environment options = .ok job)
    (loaded : (load disk options.input job.settings.packed).result = .ok image)
    (filled : image ≠ [])
    (countable : ∀ count ∈ options.count, (count : Int) ≤ 0x7FFFFFFFFFFFFFFF)
    (asJson : options.json = true)
    (possible : ∀ path ∈ options.output, ∃ location, disk.place (Path.shown path) = .ok location) :
    (run environment disk options).failure = none ∧
      (run environment disk options).report =
        Json.render ((sweep job image options.count).instructions.map
          (Instruction.record job.settings.base)) ++ "\n" := by
  obtain ⟨notes, total, ran⟩ := exists_run_eq_deliver asked loaded filled countable
  have consists := consists_jsonText job.settings (isPlain_of_mem_sweep job image options.count)
  rw [resultText?, if_pos asJson] at ran
  have succeeds : (run environment disk options).failure = none := by
    rw [ran]
    exact failure_deliver possible rfl
  rw [ran] at succeeds ⊢
  obtain ⟨text, same, report⟩ := report_deliver succeeds
  cases same
  refine ⟨succeeds, report.trans ?_⟩
  rw [Text.printed_of_not_mem (consists.not_mem (by decide)), ite_self, jsonText]

/-- A report in JSON is read as one object for each instruction that the count lets through, with
the values of its record.  Each object gives an account of its instruction, from which alone the
line of the listing is rebuilt. -/
theorem run_reports_accounts {environment : Environment} {disk : Disk} {options : Options}
    {job : Job} {image : List UInt8} (asked : readJob environment options = .ok job)
    (loaded : (load disk options.input job.settings.packed).result = .ok image)
    (filled : image ≠ [])
    (countable : ∀ count ∈ options.count, (count : Int) ≤ 0x7FFFFFFFFFFFFFFF)
    (asJson : options.json = true)
    (possible : ∀ path ∈ options.output, ∃ location, disk.place (Path.shown path) = .ok location) :
    let cursor := Cursor.ofImage image job.start job.stop
    let base := job.settings.base
    let listed := cursor.instructions.take (admitted options.count cursor.instructions.length)
    let objects := listed.map fun i => Json.document (i.record base)
    let accounts := listed.map (Instruction.account base)
    let outcome := run environment disk options
    outcome.failure = none ∧ Json.read? outcome.report = some (.array objects) ∧
      objects.mapM Account.ofDocument? = some accounts ∧
      (∀ (marksEnd : Bool) (k : Nat) (account : Account), accounts[k]? = some account →
        (Text.lines (cursor.listing { base, showBytes := true, marksEnd }))[k]? =
          some account.line) ∧
      (∀ account ∈ accounts, account.Agrees) ∧
      ∀ (k : Nat) (account next : Account), accounts[k]? = some account →
        accounts[k + 1]? = some next → account.Precedes next := by
  intro cursor base listed objects accounts outcome
  obtain ⟨succeeds, report⟩ := report_of_json asked loaded filled countable asJson possible
  have pulled : (sweep job image options.count).instructions = listed :=
    instructions_sweep job image options.count
  have entry {k : Nat} {account : Account} (here : accounts[k]? = some account) :
      ∃ i, cursor.instructions[k]? = some i ∧ i.account base = account := by
    simp only [accounts, List.getElem?_map, Option.map_eq_some_iff] at here
    obtain ⟨i, taken, same⟩ := here
    rw [List.getElem?_take] at taken
    split at taken
    next => exact ⟨i, taken, same⟩
    next => cases taken
  refine ⟨succeeds, ?_, ?_, ?_, ?_, ?_⟩
  -- The report is read as the objects.
  · rw [report, pulled, Json.read?_render, List.map_map]
    rfl
  -- Each object gives an account.
  · have each : Account.ofDocument? ∘ (fun i => Json.document (Instruction.record base i)) =
        fun i => pure (i.account base) := funext (Instruction.ofDocument?_record base)
    rw [List.mapM_map, each, List.mapM_pure]
    rfl
  -- The account gives the line.
  · intro marksEnd k account here
    obtain ⟨i, listed, rfl⟩ := entry here
    rw [Instruction.line_account]
    exact Cursor.getElem?_lines_listing listed
  -- Its parts agree with each other and with those of the next one.
  · intro account member
    obtain ⟨i, taken, rfl⟩ := List.mem_map.mp member
    exact Instruction.agrees_account base (List.mem_of_mem_take taken)
  · intro k account next here there
    obtain ⟨i, listed, rfl⟩ := entry here
    obtain ⟨j, listed', rfl⟩ := entry there
    have tiles := sideBySide_decode cursor.offset cursor.rest
    rw [← Cursor.instructions_eq_decode] at tiles
    exact Instruction.precedes_account base (tiles.offset_next listed listed')

/-- The accounts of a range across the end of the address space, with an unknown instruction and a
truncated one. -/
theorem run_reports_accounts_across_end :
    let image : List UInt8 := [0xEA, 0xA9, 0x41, 0x03, 0x8D, 0x00]
    let disk : Disk := { files := [(["rom.bin"], image)] }
    let options : Options :=
      { input := "rom.bin", address := some "$FFFE", count := some 4, json := true }
    let outcome := run (fun _ => none) disk options
    readJob (fun _ => none) options =
        .ok { settings := { base := 0xFFFE }, start := 0, stop := none } ∧
      (load disk options.input false).result = .ok image ∧ image ≠ [] ∧
      (∀ count ∈ options.count, (count : Int) ≤ 0x7FFFFFFFFFFFFFFF) ∧ options.json = true ∧
      (∀ path ∈ options.output, ∃ location, disk.place (Path.shown path) = .ok location) ∧
      outcome.failure = none ∧
      ∃ objects accounts, Json.read? outcome.report = some (.array objects) ∧
        objects.mapM Account.ofDocument? = some accounts ∧
        accounts.map Account.line =
          ["$FFFE: EA        NOP", "$FFFF: A9 41     LDA #$41", "$0001: 03        ???",
            "$0002: 8D        STA END"] ∧
        accounts.map Account.status = ["ok", "ok", "unknown_opcode", "truncated"] := by
  intro image disk options outcome
  have asked : readJob (fun _ => none) options =
      .ok { settings := { base := 0xFFFE }, start := 0, stop := none } := rfl
  have loaded : (load disk options.input false).result = .ok image := rfl
  have filled : image ≠ [] := by decide
  have countable : ∀ count ∈ options.count, (count : Int) ≤ 0x7FFFFFFFFFFFFFFF := by decide
  have possible : ∀ path ∈ options.output,
      ∃ location, disk.place (Path.shown path) = .ok location := by
    simp [options]
  obtain ⟨succeeds, reads, gives, -⟩ :=
    run_reports_accounts asked loaded filled countable rfl possible
  exact ⟨asked, loaded, filled, countable, rfl, possible, succeeds, _, _, reads, gives,
    by decide +kernel, by decide +kernel⟩

end Command

end LinearSweep
