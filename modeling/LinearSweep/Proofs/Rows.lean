import LinearSweep.Proofs.Characters
import LinearSweep.Proofs.Printing
import LinearSweep.Proofs.Tiling
import Mathlib.Data.List.Basic

/-!
# Rows of a listing

A line of a listing with bytes has its parts at fixed columns, so it can be read back: a row is what
it tells of an instruction.  `readRows_listing` says that the rows of a listing are those of its
instructions, wherever the image is loaded and whether or not the end is marked.
-/

namespace LinearSweep

open Numeral

/-! ## Pairs of digits -/

namespace Numeral

/-- Reads pairs of hexadecimal digits as bytes, with any number of spaces between them. -/
def readPairs : List Char → List UInt8
  | ' ' :: text => readPairs text
  | high :: low :: text => UInt8.ofNat (valueOf 16 [high, low]) :: readPairs text
  | _ => []

theorem length_hex_byte (byte : UInt8) : (hex 2 byte.toNat).length = 2 :=
  length_hex_of_lt (by decide) byte.toNat_lt

theorem readPairs_byte (byte : UInt8) (text : List Char) :
    readPairs ((hexByte byte).toList ++ text) = byte :: readPairs text := by
  obtain ⟨high, low, pair⟩ := List.length_eq_two.mp (length_hex_byte byte)
  have member : high ∈ hex 2 byte.toNat := by
    rw [pair]
    exact List.mem_cons_self
  have visible : high ≠ ' ' := by
    rintro rfl
    exact absurd (isDigitOf_of_mem_hex_ofNat member) (by decide)
  have value : valueOf 16 [high, low] = byte.toNat := by
    rw [← pair, valueOf_hex_ofNat]
  rw [hexByte, String.toList_ofList, pair, List.cons_append, List.cons_append, List.nil_append,
    readPairs, value, UInt8.ofNat_toNat]
  exact visible

theorem readPairs_spaces (count : Nat) : readPairs (List.replicate count ' ') = [] := by
  induction count with
  | zero => rfl
  | succ count ih => rw [List.replicate_succ, readPairs, ih]

theorem hexBytes_cons (byte : UInt8) (bytes : List UInt8) :
    (hexBytes (byte :: bytes)).toList =
      (hexByte byte).toList ++ if bytes = [] then [] else ' ' :: (hexBytes bytes).toList := by
  cases bytes with
  | nil => simp [hexBytes]
  | cons next bytes => simp [hexBytes, String.intercalate_cons_cons]

/-- Bytes that are shown are read back, however wide their column is. -/
theorem readPairs_hexBytes (bytes : List UInt8) (width : Nat) :
    readPairs ((hexBytes bytes).toList.rightpad width ' ') = bytes := by
  rw [List.rightpad]
  generalize width - _ = padding
  induction bytes with
  | nil => exact readPairs_spaces padding
  | cons byte bytes ih =>
    rw [hexBytes_cons, List.append_assoc, readPairs_byte]
    split
    · rename_i last
      rw [last, List.nil_append, readPairs_spaces]
    · rw [List.cons_append, readPairs, ih]

theorem length_hexBytes (bytes : List UInt8) :
    (hexBytes bytes).toList.length = 3 * bytes.length - 1 := by
  induction bytes with
  | nil => rfl
  | cons byte bytes ih =>
    have pair : (hexByte byte).toList.length = 2 := by
      rw [hexByte, String.toList_ofList, length_hex_byte]
    rw [hexBytes_cons, List.length_append, pair, List.length_cons]
    split
    · rename_i last
      simp [last]
    · rename_i more
      have some := List.length_pos_iff.mpr more
      rw [List.length_cons, ih]
      omega

/-! ## Addresses -/

theorem exists_wrapped (address : Int) : ∃ n < 0x10000, address % addressSpace = (n : Nat) := by
  have lower : 0 ≤ address % addressSpace := Int.emod_nonneg _ (by decide)
  have upper : address % addressSpace < 0x10000 := Int.emod_lt_of_pos _ (by decide)
  exact ⟨(address % addressSpace).toNat, by omega, by omega⟩

/-- An address has four digits, however far it lies outside of the address space. -/
theorem length_hex_wrapped (address : Int) : (hex 4 (address % addressSpace)).length = 4 := by
  obtain ⟨n, small, same⟩ := exists_wrapped address
  rw [same]
  exact length_hex_of_lt (by decide) small

theorem isDigitOf_of_mem_hex_wrapped {address : Int} {c : Char}
    (member : c ∈ hex 4 (address % addressSpace)) : isDigitOf 16 c = true := by
  obtain ⟨n, -, same⟩ := exists_wrapped address
  rw [same] at member
  exact isDigitOf_of_mem_hex_ofNat member

theorem valueOf_hex_wrapped (address : Int) :
    (valueOf 16 (hex 4 (address % addressSpace)) : Int) = address % addressSpace := by
  obtain ⟨n, -, same⟩ := exists_wrapped address
  rw [same, valueOf_hex_ofNat]

end Numeral

/-! ## Columns -/

namespace Instruction

variable {i : Instruction}

/-- The digits of an address. -/
theorem length_hex_address (base : Int) (i : Instruction) :
    (hex 4 (i.address base)).length = 4 :=
  length_hex_wrapped (base + i.offset)

theorem isDigitOf_of_mem_hex_address {base : Int} {c : Char}
    (member : c ∈ hex 4 (i.address base)) : isDigitOf 16 c = true :=
  isDigitOf_of_mem_hex_wrapped member

theorem valueOf_hex_address (base : Int) (i : Instruction) :
    (valueOf 16 (hex 4 (i.address base)) : Int) = i.address base :=
  valueOf_hex_wrapped (base + i.offset)

/-- No instruction has more bytes than the column has room for. -/
theorem length_bytes_of_mem_decode {offset : Nat} {bytes : List UInt8}
    (member : i ∈ decode offset bytes) : i.bytes.length ≤ 3 := by
  obtain ⟨place, opcode, behind, rfl, within⟩ := ofBytes_of_mem_decode member
  have bound := Opcode.length_le_three opcode
  rw [bytes_ofBytes within]
  split
  · simp
  · rw [List.length_cons]
    omega

/-- What stands in front of the bytes in a line. -/
def addressColumn (base : Int) (i : Instruction) : List Char :=
  '$' :: hex 4 (i.address base) ++ [':', ' ']

theorem toList_line (base : Int) (i : Instruction) :
    (i.line base true).toList =
      i.addressColumn base ++ (i.bytesColumn.toList ++ ([' ', ' '] ++ i.text.toList)) := by
  have address : (i.addressText base).toList = '$' :: hex 4 (i.address base) := by
    simp [addressText, hexAddress, Instruction.address]
  simp [line, address, addressColumn]

theorem length_addressColumn (base : Int) (i : Instruction) :
    (i.addressColumn base).length = 7 := by
  rw [addressColumn, List.length_append, List.length_cons, length_hex_address]
  rfl

theorem length_bytesColumn (short : i.bytes.length ≤ 3) : i.bytesColumn.toList.length = 8 := by
  rw [bytesColumn, String.toList_ofList, List.length_rightpad, length_hexBytes, bytesWidth]
  omega

theorem take_line (base : Int) (i : Instruction) :
    (i.line base true).toList.take 7 = i.addressColumn base := by
  rw [toList_line, List.take_left' (i.length_addressColumn base)]

theorem take_drop_line (base : Int) (short : i.bytes.length ≤ 3) :
    ((i.line base true).toList.drop 7).take 8 = i.bytesColumn.toList := by
  rw [toList_line, List.drop_left' (i.length_addressColumn base),
    List.take_left' (length_bytesColumn short)]

/-- The text of an instruction starts at the same column in all lines. -/
theorem drop_line (base : Int) (short : i.bytes.length ≤ 3) :
    (i.line base true).toList.drop 17 = i.text.toList := by
  have bytes : (i.bytesColumn.toList ++ [' ', ' ']).length = 10 := by
    rw [List.length_append, length_bytesColumn short]
    rfl
  have columns : 17 = 7 + 10 := rfl
  rw [columns, ← List.drop_drop, toList_line, List.drop_left' (i.length_addressColumn base),
    ← List.append_assoc, List.drop_left' bytes]

end Instruction

/-! ## Rows -/

/-- What a line of a listing with bytes tells of an instruction. -/
structure Row where
  address : Int
  bytes : List UInt8
  text : String
  deriving DecidableEq, Repr

namespace Row

/-- Reads a line by its columns. -/
def ofLine (line : String) : Row where
  address := valueOf 16 ((line.toList.drop 1).take 4)
  bytes := readPairs ((line.toList.drop 7).take 8)
  text := String.ofList (line.toList.drop 17)

end Row

/-- The row of an instruction of an image that is loaded at `base`. -/
def Instruction.row (base : Int) (i : Instruction) : Row :=
  ⟨i.address base, i.bytes, i.text⟩

theorem Row.ofLine_line {base : Int} {i : Instruction} (short : i.bytes.length ≤ 3) :
    ofLine (i.line base true) = i.row base := by
  have address : ((i.line base true).toList.drop 1).take 4 = hex 4 (i.address base) := by
    rw [Instruction.toList_line, Instruction.addressColumn, List.append_assoc, List.cons_append,
      List.drop_succ_cons, List.drop_zero, List.take_left' (i.length_hex_address base)]
  rw [ofLine, address, i.valueOf_hex_address base, Instruction.take_drop_line base short,
    Instruction.drop_line base short, Instruction.bytesColumn, String.toList_ofList,
    readPairs_hexBytes, String.ofList_toList]
  rfl

/-- Reads the lines of a listing that begin with an address. -/
def readRows (text : String) : List Row :=
  ((Text.lines text).filter (·.toList.head? = some '$')).map Row.ofLine

namespace Cursor

variable {c : Cursor}

theorem length_bytes_of_mem {i : Instruction} (member : i ∈ c.instructions) :
    i.bytes.length ≤ 3 := by
  rw [instructions_eq_decode] at member
  exact Instruction.length_bytes_of_mem_decode member

/-- The lines of a listing are those of its instructions and the mark, or one empty line. -/
theorem lines_listing_cases (c : Cursor) (layout : Listing) :
    let ls := layout.lines c.instructions ++ if layout.marksEnd then [Listing.endMark] else []
    Text.lines (c.listing layout) = if ls = [] then [""] else ls := by
  intro ls
  have text : c.listing layout = "\n".intercalate ls := rfl
  rw [text]
  split
  · rename_i none
    rw [none]
    rfl
  · rename_i filled
    apply Text.lines_intercalate filled
    intro line member
    cases List.mem_append.mp member with
    | inl listed =>
      obtain ⟨i, inside, rfl⟩ := List.mem_map.mp listed
      exact ((isPlain_of_mem inside).line _ _).not_mem (by decide)
    | inr mark =>
      split at mark
      · rw [List.mem_singleton.mp mark]
        decide
      · cases mark

theorem getElem?_lines_listing {layout : Listing} {k : Nat} {i : Instruction}
    (listed : c.instructions[k]? = some i) :
    (Text.lines (c.listing layout))[k]? = some (i.line layout.base layout.showBytes) := by
  have line : (layout.lines c.instructions)[k]? = some (i.line layout.base layout.showBytes) := by
    rw [Listing.lines, List.getElem?_map, listed]
    rfl
  have within : k < (layout.lines c.instructions).length := (List.getElem?_eq_some_iff.mp line).1
  have filled : layout.lines c.instructions ++ (if layout.marksEnd then [Listing.endMark] else [])
      ≠ [] := by
    intro empty
    rw [(List.append_eq_nil_iff.mp empty).1] at within
    cases within
  rw [lines_listing_cases, if_neg filled, List.getElem?_append_left within, line]

/-- The rows of a listing are those of its instructions. -/
theorem readRows_listing (c : Cursor) (base : Int) (marksEnd : Bool) :
    readRows (c.listing { base, marksEnd }) = c.instructions.map (Instruction.row base) := by
  let layout : Listing := { base, marksEnd }
  have addressed : ∀ line ∈ layout.lines c.instructions, line.toList.head? = some '$' := by
    intro line member
    obtain ⟨i, -, rfl⟩ := List.mem_map.mp member
    rw [Instruction.toList_line]
    rfl
  have kept : (Text.lines (c.listing layout)).filter (·.toList.head? = some '$') =
      layout.lines c.instructions := by
    rw [lines_listing_cases]
    by_cases empty : layout.lines c.instructions ++
        (if layout.marksEnd then [Listing.endMark] else []) = []
    · rw [if_pos empty, (List.append_eq_nil_iff.mp empty).1]
      rfl
    · -- The mark at the end has no address.
      rw [if_neg empty, List.filter_append, List.filter_eq_self.mpr (by simpa using addressed)]
      cases marksEnd <;> simp [layout, Listing.endMark]
  rw [readRows, kept, Listing.lines, List.map_map]
  apply List.map_congr_left
  intro i member
  exact Row.ofLine_line (length_bytes_of_mem member)

/-- The bytes of a range are those of its instructions, if none is hidden. -/
theorem flatMap_bytes_of_whole {image : List UInt8} {start : Int} {stop : Option Int}
    (whole : ¬ HidesByte (ofImage image start stop).instructions) :
    (ofImage image start stop).instructions.flatMap Instruction.bytes =
      (image.take (ofImage image start stop).stop).drop (ofImage image start stop).start := by
  have covers : CoversSpan image (Span.clamp image.length start stop) _ :=
    coversSpan_decode Span.stop_clamp_le
  rw [← instructions_ofImage] at covers
  rw [stop_ofImage]
  exact covers.allShown whole

end Cursor

/-- A listing with bytes tells the address, the bytes and the text of each instruction, wherever the
image is loaded and whether or not the end is marked, and so all bytes of the range if none of them
is hidden.  In each line the address has four digits, and the text starts at the same column. -/
theorem listing_with_bytes_reads_back (image image' : List UInt8) (start start' : Int)
    (stop stop' : Option Int) (base base' : Int) (marksEnd marksEnd' : Bool) :
    let c := Cursor.ofImage image start stop
    let d := Cursor.ofImage image' start' stop'
    let text := c.listing { base, showBytes := true, marksEnd }
    let text' := d.listing { base := base', showBytes := true, marksEnd := marksEnd' }
    (text = text' →
      c.instructions.length = d.instructions.length ∧
      (∀ (k : Nat) (i j : Instruction), c.instructions[k]? = some i → d.instructions[k]? = some j →
        (base + i.offset) % 0x10000 = (base' + j.offset) % 0x10000 ∧
          i.bytes = j.bytes ∧ i.text = j.text) ∧
      (¬ HidesByte c.instructions → ¬ HidesByte d.instructions →
        (image.take c.stop).drop c.start = (image'.take d.stop).drop d.start)) ∧
    ∀ (k : Nat) (i : Instruction), c.instructions[k]? = some i →
      ∃ line digits, (Text.lines text)[k]? = some line ∧
        line.toList.take 7 = '$' :: digits ++ [':', ' '] ∧ digits.length = 4 ∧
        (∀ digit ∈ digits, isDigitOf 16 digit = true) ∧
        valueOf 16 digits = (base + i.offset) % 0x10000 ∧
        line.toList.drop 17 = i.text.toList := by
  intro c d text text'
  refine ⟨fun same => ?_, fun k i listed => ?_⟩
  · have rows : c.instructions.map (Instruction.row base) =
        d.instructions.map (Instruction.row base') := by
      rw [← Cursor.readRows_listing c base marksEnd, ← Cursor.readRows_listing d base' marksEnd']
      exact congrArg readRows same
    refine ⟨?_, ?_, fun whole whole' => ?_⟩
    · simpa using congrArg List.length rows
    · intro k i j left right
      have row : i.row base = j.row base' := by
        have entry := congrArg (·[k]?) rows
        simpa [left, right] using entry
      rw [Instruction.row, Instruction.row, Row.mk.injEq] at row
      exact row
    · have bytes (base : Int) (is : List Instruction) :
          is.flatMap Instruction.bytes = (is.map (Instruction.row base)).flatMap Row.bytes := by
        rw [List.flatMap_map]
        rfl
      rw [← Cursor.flatMap_bytes_of_whole whole, ← Cursor.flatMap_bytes_of_whole whole',
        bytes base, rows, ← bytes base']
  · have short := Cursor.length_bytes_of_mem (List.mem_of_getElem? listed)
    exact ⟨i.line base true, hex 4 (i.address base), Cursor.getElem?_lines_listing listed,
      i.take_line base, i.length_hex_address base,
      fun _ => Instruction.isDigitOf_of_mem_hex_address, i.valueOf_hex_address base,
      Instruction.drop_line base short⟩

/-- The last three bytes of one image and the first three of another one, at the end of the address
space, which have to be the same. -/
theorem listing_reads_back_across_images :
    let c := Cursor.ofImage [0xEA, 0x8D, 0x34, 0x12] 1 none
    let d := Cursor.ofImage [0x8D, 0x34, 0x12, 0x00] (-5) (some 3)
    c.listing { base := -3 } = d.listing { base := 0x1FFFE } ∧
      c.listing { base := -3 } = "$FFFE: 8D 34 12  STA $1234\n.END" ∧
      ([0xEA, 0x8D, 0x34, 0x12].take c.stop).drop c.start =
        (([0x8D, 0x34, 0x12, 0x00] : List UInt8).take d.stop).drop d.start := by
  intro c d
  have left : c.listing { base := -3 } = "$FFFE: 8D 34 12  STA $1234\n.END" := by decide +kernel
  have right : d.listing { base := 0x1FFFE } = "$FFFE: 8D 34 12  STA $1234\n.END" := by
    decide +kernel
  have same := left.trans right.symm
  have whole : ¬ HidesByte c.instructions := by decide
  have whole' : ¬ HidesByte d.instructions := by decide
  obtain ⟨reads, -⟩ := listing_with_bytes_reads_back [0xEA, 0x8D, 0x34, 0x12]
    [0x8D, 0x34, 0x12, 0x00] 1 (-5) none (some 3) (-3) 0x1FFFE true true
  exact ⟨same, left, (reads same).2.2 whole whole'⟩

end LinearSweep
