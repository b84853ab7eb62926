import LinearSweep.Proofs.Cutting
import LinearSweep.Proofs.Delivery

/-!
# Ranges side by side

A range that is swept in two parts has the same instructions exactly if the second part starts at a
boundary.  A cut at a boundary is not within an instruction, so only one case of `CutFalls` is left.
Where the second part does not start at a boundary, the instruction that it starts with is not one
of the whole range.
-/

namespace LinearSweep

/-- Where bytes begin, their first instruction begins. -/
theorem exists_first_of_decode (offset : Nat) {bytes : List UInt8} (filled : bytes ≠ []) :
    ∃ i ∈ decode offset bytes, i.offset = offset := by
  have tiles := sideBySide_decode offset bytes
  cases first : decode offset bytes with
  | nil => exact absurd (decode_eq_nil_iff.mp first) filled
  | cons i is =>
    rw [first] at tiles
    exact ⟨i, by simp, tiles.1⟩

/-- Bytes can be decoded in two parts exactly if they end where the second part begins or an
instruction begins there. -/
theorem decode_parts_iff {offset count : Nat} {bytes : List UInt8} (within : count ≤ bytes.length) :
    decode offset (bytes.take count) ++ decode (offset + count) (bytes.drop count) =
        decode offset bytes ↔
      count = bytes.length ∨ ∃ i ∈ decode offset bytes, i.offset = (offset + count : Nat) := by
  constructor
  · intro parts
    by_cases ends : count = bytes.length
    · exact Or.inl ends
    · right
      have filled : bytes.drop count ≠ [] := by
        rw [Ne, List.drop_eq_nil_iff]
        omega
      obtain ⟨i, member, place⟩ := exists_first_of_decode (offset + count) filled
      exact ⟨i, by rw [← parts]; exact List.mem_append_right _ member, place⟩
  · intro boundary
    cases cutFalls_decode offset count bytes within with
    | between separate => exact separate.symm
    | within before x behind whole _ lower upper =>
      -- No instruction begins where `x` goes on, and the bytes do not end there either.
      exfalso
      have tiles := sideBySide_decode offset bytes
      have sizes : ∀ i ∈ decode offset bytes, 1 ≤ i.size ∧ i.size ≤ 3 :=
        fun i => size_of_mem_decode
      rw [whole] at tiles sizes boundary
      cases boundary with
      | inl ends =>
        have reach := (tiles.bounds_of_mem sizes (i := x) (by simp)).2
        omega
      | inr begins =>
        obtain ⟨i, member, place⟩ := begins
        have size := (sizes i member).1
        obtain left | same | right := tiles.apart sizes member
        · omega
        · subst same
          omega
        · omega

namespace Session

theorem over_after (image : List UInt8) (start : Int) (stop : Option Int)
    (requests : List Request) : ((ofImage image start stop).after requests).cursor.Over image :=
  after_preserves (motive := fun s => s.cursor.Over image)
    (fun _ holds => holds.take _) (Cursor.over_ofImage image start stop) requests

end Session

/-- Two ranges side by side have the instructions of the range that they make up exactly if they
meet at a boundary of it.  Where a session has got to is one: a fresh cursor that starts there has
the instructions that the session has left. -/
theorem sweep_splits_iff_boundary {image : List UInt8} {start middle stop : Nat}
    (ordered : start ≤ middle) (later : middle ≤ stop) (within : stop ≤ image.length) :
    let whole := (Cursor.ofImage image start (some stop)).instructions
    let left := (Cursor.ofImage image start (some middle)).instructions
    let right := (Cursor.ofImage image middle (some stop)).instructions
    (left ++ right = whole ↔ middle = stop ∨ ∃ i ∈ whole, i.offset = middle) ∧
      ∀ (first : Int) (last : Option Int) (requests : List Request),
        let cursor := ((Session.ofImage image first last).after requests).cursor
        (Cursor.ofImage image cursor.offset last).instructions = cursor.instructions := by
  intro whole left right
  constructor
  · obtain ⟨count, rfl⟩ := Nat.exists_eq_add_of_le ordered
    have length : ((image.take stop).drop start).length = stop - start := by
      rw [List.length_drop, List.length_take, Nat.min_eq_left within]
    have wholeDecode : whole = decode start ((image.take stop).drop start) :=
      Cursor.instructions_between (Nat.le_trans ordered later) within
    have leftDecode : left = decode start (((image.take stop).drop start).take count) := by
      rw [List.take_drop, List.take_take, Nat.min_eq_left later]
      exact Cursor.instructions_between ordered (Nat.le_trans later within)
    have rightDecode :
        right = decode (start + count) (((image.take stop).drop start).drop count) := by
      rw [List.drop_drop]
      exact Cursor.instructions_between later within
    have bound : count ≤ ((image.take stop).drop start).length := by omega
    have ends : start + count = stop ↔ count = ((image.take stop).drop start).length := by omega
    rw [wholeDecode, leftDecode, rightDecode, ends]
    exact decode_parts_iff bound
  · intro first last requests cursor
    have holds : cursor.Over image := Session.over_after image first last requests
    apply holds.instructions_restart
    · exact Session.start_le_offset_after image first last requests
    · exact Session.stop_after_ofImage image first last requests

/-- Two instructions can be swept apart, but an immediate value cannot be swept on its own. -/
theorem sweep_splits_behind_immediate :
    (0 ≤ 2 ∧ 2 ≤ 3 ∧ 0 ≤ 1 ∧ 1 ≤ 3 ∧ 3 ≤ [(0xA9 : UInt8), 0x41, 0xEA].length) ∧
      (Cursor.ofImage [0xA9, 0x41, 0xEA] 0 (some 2)).instructions ++
          (Cursor.ofImage [0xA9, 0x41, 0xEA] 2 (some 3)).instructions =
        (Cursor.ofImage [0xA9, 0x41, 0xEA] 0 (some 3)).instructions ∧
      (Cursor.ofImage [0xA9, 0x41, 0xEA] 0 (some 1)).instructions ++
          (Cursor.ofImage [0xA9, 0x41, 0xEA] 1 (some 3)).instructions ≠
        (Cursor.ofImage [0xA9, 0x41, 0xEA] 0 (some 3)).instructions := by
  have within : 3 ≤ [(0xA9 : UInt8), 0x41, 0xEA].length := Nat.le_refl 3
  have behind := (sweep_splits_iff_boundary (Nat.zero_le 2) (Nat.le_succ 2) within).1
  have inside := (sweep_splits_iff_boundary (Nat.zero_le 1) (by omega : 1 ≤ 3) within).1
  refine ⟨by decide, ?_, ?_⟩
  · exact behind.mpr (by decide)
  · exact mt inside.mp (by decide)

end LinearSweep
