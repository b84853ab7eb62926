import LinearSweep.Proofs.Tiling

/-!
# Ranges that end earlier

A range that ends earlier has the same instructions, up to the one that its end falls into.  That
one loses the bytes beyond the end, and `Instruction.cutAt` says what is left of it.  `CutFalls` has
a case for a cut between two instructions and one for a cut within an instruction, and
`cutFalls_decode` is the one induction: a cut that is not among the bytes of the first instruction
falls among the others.
-/

namespace LinearSweep

/-- What is left of an instruction if its range ends at an offset within it.  BRK is whole without
its padding; of any other instruction the operand is lost. -/
def Instruction.cutAt (stop : Int) (i : Instruction) : Instruction :=
  { i with
    operand := if i.opcode = Opcode.brkCode then "" else "END"
    size := stop - i.offset
    bytes := [Opcode.byteOf i.opcode]
    status := if i.opcode = Opcode.brkCode then .ok else .truncated }

theorem Opcode.byteOf_toNat (byte : UInt8) : byteOf byte.toNat = byte := by
  have bound := byte.toNat_lt
  have same : ((byte.toNat : Int) % 256).toNat = byte.toNat := by omega
  rw [byteOf, same, UInt8.ofNat_toNat]

/-- Cutting an instruction is reading it with fewer bytes. -/
theorem Instruction.cutAt_ofBytes {offset count : Nat} {opcode : UInt8} {behind : List UInt8}
    (within : behind.length ≤ Opcode.length opcode - 1) (fewer : count < behind.length) :
    (ofBytes offset opcode behind).cutAt (offset + 1 + count : Nat) =
      ofBytes offset opcode (behind.take count) := by
  have length : (behind.take count).length = count := by
    rw [List.length_take]
    omega
  have size : ((offset + 1 + count : Nat) : Int) - offset = 1 + (count : Int) := by omega
  have short : (behind.take count).length < Opcode.length opcode - 1 := by omega
  have cut : ofBytes offset opcode (behind.take count) = _ := ofBytes_of_short short
  rw [cut, cutAt, offset_ofBytes, opcode_ofBytes, mnemonic_ofBytes, mode_ofBytes,
    Opcode.byteOf_toNat, length, size]
  simp only [Int.natCast_inj, Operand.truncatedText]

/-! ## Where a cut falls -/

/-- A cut separates the instructions before it from those behind it, or it falls within one.  That
one is cut, and those behind it are gone. -/
inductive CutFalls (offset count : Nat) (bytes : List UInt8) : Prop where
  | between :
      decode offset bytes =
        decode offset (bytes.take count) ++ decode (offset + count) (bytes.drop count) →
      CutFalls offset count bytes
  | within (before : List Instruction) (x : Instruction) (behind : List Instruction) :
      decode offset bytes = before ++ x :: behind →
      decode offset (bytes.take count) = before ++ [x.cutAt (offset + count : Nat)] →
      x.offset < ((offset + count : Nat) : Int) →
      ((offset + count : Nat) : Int) < x.offset + x.size →
      CutFalls offset count bytes

section Step

variable {offset : Nat} {opcode : UInt8} {behind rest : List UInt8}

theorem cutFalls_zero (offset : Nat) (bytes : List UInt8) : CutFalls offset 0 bytes := by
  apply CutFalls.between
  rw [List.take_zero, decode_nil, List.nil_append, List.drop_zero, Nat.add_zero]

/-- A cut among the bytes of the first instruction. -/
theorem cutFalls_inside {count : Nat} (limit : behind.length ≤ Opcode.length opcode - 1)
    (missing : behind.length < Opcode.length opcode - 1 → rest = [])
    (inside : count < behind.length) :
    CutFalls offset (count + 1) (opcode :: (behind ++ rest)) := by
  have taken : (behind ++ rest).take count = behind.take count ++ [] := by
    rw [List.take_append_of_le_length (Nat.le_of_lt inside), List.append_nil]
  have fewer : (behind.take count).length ≤ Opcode.length opcode - 1 := by
    rw [List.length_take]
    omega
  have stop : offset + (count + 1) = offset + 1 + count := by omega
  apply CutFalls.within [] (Instruction.ofBytes offset opcode behind)
  · exact decode_append limit missing
  · rw [List.take_succ_cons, taken, decode_append fewer fun _ => rfl, decode_nil, stop,
      Instruction.cutAt_ofBytes limit inside]
    rfl
  · rw [Instruction.offset_ofBytes]
    omega
  · rw [Instruction.offset_ofBytes, Instruction.size_ofBytes]
    omega

/-- A cut behind the first instruction, which keeps all its bytes, falls where it falls among the
others. -/
theorem cutFalls_past {count : Nat} (limit : behind.length ≤ Opcode.length opcode - 1)
    (missing : behind.length < Opcode.length opcode - 1 → rest = [])
    (falls : CutFalls (offset + 1 + behind.length) count rest) :
    CutFalls offset (behind.length + count + 1) (opcode :: (behind ++ rest)) := by
  have nothing : behind.length < Opcode.length opcode - 1 → rest.take count = [] := by
    intro short
    rw [missing short, List.take_nil]
  have whole := @decode_append offset opcode behind rest limit missing
  have taken : decode offset ((opcode :: (behind ++ rest)).take (behind.length + count + 1)) =
      Instruction.ofBytes offset opcode behind ::
        decode (offset + 1 + behind.length) (rest.take count) := by
    rw [List.take_succ_cons, List.take_append, List.take_of_length_le (by omega),
      Nat.add_sub_cancel_left, decode_append limit nothing]
  have dropped : (opcode :: (behind ++ rest)).drop (behind.length + count + 1) =
      rest.drop count := by
    rw [List.drop_succ_cons, List.drop_append, List.drop_of_length_le (by omega),
      Nat.add_sub_cancel_left, List.nil_append]
  have stop : offset + (behind.length + count + 1) = offset + 1 + behind.length + count := by omega
  cases falls with
  | between separate =>
    apply CutFalls.between
    rw [whole, taken, dropped, stop, separate]
    rfl
  | within before x others first cut lower upper =>
    rw [← stop] at cut lower upper
    apply CutFalls.within (Instruction.ofBytes offset opcode behind :: before) x others _ _
      lower upper
    · rw [whole, first]
      rfl
    · rw [taken, cut]
      rfl

end Step

theorem cutFalls_decode (offset count : Nat) (bytes : List UInt8) (bound : count ≤ bytes.length) :
    CutFalls offset count bytes := by
  induction offset, bytes using decode_induction generalizing count with
  | nil offset =>
    obtain rfl : count = 0 := Nat.le_zero.mp bound
    exact cutFalls_zero offset []
  | cons offset opcode behind rest limit missing ih =>
    match count with
    | 0 => exact cutFalls_zero offset _
    | count + 1 =>
      cases Nat.lt_or_ge count behind.length with
      | inl inside => exact cutFalls_inside limit missing inside
      | inr past =>
        obtain ⟨more, rfl⟩ := Nat.exists_eq_add_of_le past
        apply cutFalls_past limit missing
        apply ih
        simp only [List.length_cons, List.length_append] at bound
        omega

/-! ## Which instructions stay -/

/-- A sweep that is not empty has an instruction that ends where it ends. -/
theorem SideBySide.exists_last {start stop : Int} {is : List Instruction}
    (tiles : SideBySide start is stop) : start = stop ∨ ∃ i ∈ is, i.offset + i.size = stop := by
  induction is generalizing start with
  | nil => exact Or.inl tiles
  | cons i is ih =>
    obtain ⟨place, others⟩ := tiles
    right
    cases ih others with
    | inl last => exact ⟨i, by simp, by rw [place, last]⟩
    | inr inside =>
      obtain ⟨j, member, last⟩ := inside
      exact ⟨j, by simp [member], last⟩

theorem filter_endsBy_append {before behind : List Instruction} {cut : Int}
    (kept : ∀ i ∈ before, i.offset + i.size ≤ cut)
    (gone : ∀ i ∈ behind, ¬ i.offset + i.size ≤ cut) :
    (before ++ behind).filter (fun i => i.offset + i.size ≤ cut) = before := by
  rw [List.filter_append, List.filter_eq_self.mpr, List.filter_eq_nil_iff.mpr, List.append_nil]
  · simpa using gone
  · simpa using kept

/-- The last instruction of an image is the only one that bytes behind the image can change. -/
theorem dropLast_decode_prefix (offset : Nat) (bytes more : List UInt8) :
    (decode offset bytes).dropLast <+: decode offset (bytes ++ more) := by
  have within : bytes.length ≤ (bytes ++ more).length := by simp
  cases cutFalls_decode offset bytes.length (bytes ++ more) within with
  | between separate =>
    rw [List.take_left] at separate
    rw [separate]
    exact (List.dropLast_prefix _).trans (List.prefix_append _ _)
  | within before x behind whole cut =>
    -- The last instruction of the image is what is left of `x`.
    rw [List.take_left] at cut
    rw [whole, cut, List.dropLast_concat]
    exact List.prefix_append _ _

/-- Bytes behind an image change at most the last instruction of a range, whatever its bounds. -/
theorem dropLast_instructions_prefix (image more : List UInt8) (start : Int) (stop : Option Int) :
    (Cursor.ofImage image start stop).instructions.dropLast <+:
      (Cursor.ofImage (image ++ more) start stop).instructions := by
  have inside : (Span.clamp image.length start stop).stop ≤ image.length := Span.stop_clamp_le
  have grow := @Span.clamp_grow image.length start stop more.length
  rw [Cursor.instructions_ofImage, Cursor.instructions_ofImage, List.length_append]
  generalize Span.clamp image.length start stop = short at inside grow ⊢
  generalize Span.clamp (image.length + more.length) start stop = long at grow ⊢
  by_cases filled : short.start < short.stop
  · obtain ⟨same, later⟩ := grow filled
    have kept : (image ++ more).take short.stop = image.take short.stop :=
      List.take_append_of_le_length inside
    have reached : image.take short.stop <+: (image ++ more).take long.stop := by
      rw [← kept]
      exact List.take_prefix_take_left later
    obtain ⟨beyond, longer⟩ := reached
    have bound : short.start ≤ (image.take short.stop).length := by
      rw [List.length_take]
      omega
    rw [same, ← longer, List.drop_append_of_le_length bound]
    exact dropLast_decode_prefix _ _ _
  · have nothing : (image.take short.stop).drop short.start = [] := by
      rw [List.drop_eq_nil_iff, List.length_take]
      omega
    rw [nothing, decode_nil]
    exact List.nil_prefix

/-- A cut between two instructions keeps those before it, and is a boundary. -/
theorem kept_of_separate {offset count : Nat} {bytes : List UInt8} (within : count ≤ bytes.length)
    (separate : decode offset bytes =
      decode offset (bytes.take count) ++ decode (offset + count) (bytes.drop count)) :
    (count = 0 ∨ ∃ i ∈ decode offset bytes, i.offset + i.size = (offset + count : Nat)) ∧
      (decode offset bytes).filter (fun i => i.offset + i.size ≤ ((offset + count : Nat) : Int)) =
        decode offset (bytes.take count) := by
  have left := sideBySide_decode offset (bytes.take count)
  have right := sideBySide_decode (offset + count) (bytes.drop count)
  rw [List.length_take, Nat.min_eq_left within] at left
  constructor
  · cases left.exists_last with
    | inl start =>
      left
      omega
    | inr last =>
      right
      obtain ⟨i, member, ends⟩ := last
      exact ⟨i, by rw [separate]; exact List.mem_append_left _ member, ends⟩
  · rw [separate]
    apply filter_endsBy_append
    · intro i member
      exact (left.bounds_of_mem (fun j => size_of_mem_decode) member).2
    · intro i member ends
      have place := (right.bounds_of_mem (fun j => size_of_mem_decode) member).1
      have size := (size_of_mem_decode member).1
      omega

/-- A cut within an instruction keeps those before it, and is not a boundary. -/
theorem kept_of_within {offset : Nat} {cut : Int} {bytes : List UInt8}
    {before behind : List Instruction} {x : Instruction}
    (whole : decode offset bytes = before ++ x :: behind) (lower : x.offset < cut)
    (upper : cut < x.offset + x.size) :
    (¬ (cut = offset ∨ ∃ i ∈ decode offset bytes, i.offset + i.size = cut)) ∧
      (∀ i, (i ∈ decode offset bytes ∧ i.offset < cut ∧ cut < i.offset + i.size) ↔ i = x) ∧
      (decode offset bytes).filter (fun i => i.offset + i.size ≤ cut) = before := by
  have tiles := sideBySide_decode offset bytes
  have sizes : ∀ i ∈ decode offset bytes, 1 ≤ i.size ∧ i.size ≤ 3 := fun i => size_of_mem_decode
  rw [whole] at tiles sizes ⊢
  have inside : x ∈ before ++ x :: behind := by simp
  refine ⟨?_, ?_, ?_⟩
  · rintro (start | ⟨i, member, last⟩)
    · have := (tiles.bounds_of_mem sizes inside).1
      omega
    · have size := (sizes i member).1
      obtain left | rfl | right := tiles.apart sizes member <;> omega
  · intro i
    constructor
    · rintro ⟨member, starts, ends⟩
      obtain left | same | right := tiles.apart sizes member
      · omega
      · exact same
      · omega
    · rintro rfl
      exact ⟨inside, lower, upper⟩
  · apply filter_endsBy_append
    · intro i member
      obtain ⟨middle, left, place, -⟩ := sideBySide_append.mp tiles
      have := (left.bounds_of_mem (fun j early => sizes j (by simp [early])) member).2
      omega
    · intro i member ends
      obtain ⟨middle, -, place, right⟩ := sideBySide_append.mp tiles
      cases List.mem_cons.mp member with
      | inl same =>
        subst same
        omega
      | inr later =>
        have size := (sizes i (by simp [later])).1
        have := (right.bounds_of_mem (fun j late => sizes j (by simp [late])) later).1
        omega

/-- Cutting a range keeps the instructions that end by the cut.  At a boundary nothing follows them;
otherwise the cut falls within exactly one instruction, and what is left of it follows them.  So
bytes behind an image never change an instruction but its last. -/
theorem sweep_of_cut_range {image : List UInt8} {start cut stop : Nat} (ordered : start ≤ cut)
    (earlier : cut ≤ stop) (within : stop ≤ image.length) :
    let long := (Cursor.ofImage image start (some stop)).instructions
    let short := (Cursor.ofImage image start (some cut)).instructions
    let kept := long.filter (fun i => i.offset + i.size ≤ (cut : Int))
    let boundary := cut = start ∨ ∃ i ∈ long, i.offset + i.size = cut
    (boundary → short = kept) ∧
      (¬ boundary →
        ∃ x, (∀ i, (i ∈ long ∧ i.offset < cut ∧ cut < i.offset + i.size) ↔ i = x) ∧
          short = kept ++ [x.cutAt cut]) ∧
      ∀ (more : List UInt8) (first : Int) (last : Option Int),
        (Cursor.ofImage image first last).instructions.dropLast <+:
          (Cursor.ofImage (image ++ more) first last).instructions := by
  intro long short kept boundary
  obtain ⟨count, rfl⟩ := Nat.exists_eq_add_of_le ordered
  have longDecode : long = decode start ((image.take stop).drop start) :=
    Cursor.instructions_between (Nat.le_trans ordered earlier) within
  have shortDecode : short = decode start (((image.take stop).drop start).take count) := by
    rw [List.take_drop, List.take_take, Nat.min_eq_left earlier]
    exact Cursor.instructions_between ordered (Nat.le_trans earlier within)
  have bound : count ≤ ((image.take stop).drop start).length := by
    rw [List.length_drop, List.length_take, Nat.min_eq_left within]
    omega
  simp only [boundary, kept, longDecode, shortDecode]
  cases cutFalls_decode start count _ bound with
  | between separate =>
    obtain ⟨isBoundary, keeps⟩ := kept_of_separate bound separate
    refine ⟨fun _ => keeps.symm, fun notBoundary => ?_, dropLast_instructions_prefix image⟩
    exact absurd (isBoundary.imp_left fun zero => by omega) notBoundary
  | within before x behind whole cut lower upper =>
    obtain ⟨notBoundary, only, keeps⟩ := kept_of_within whole lower upper
    refine ⟨fun isBoundary => ?_, fun _ => ⟨x, only, ?_⟩, dropLast_instructions_prefix image⟩
    · exact absurd (isBoundary.imp_left fun same => by omega) notBoundary
    · rw [keeps]
      exact cut

/-- A jump that loses the high byte of its target. -/
theorem sweep_of_cut_jump :
    (0 ≤ 2 ∧ 2 ≤ 3 ∧ 3 ≤ [(0x4C : UInt8), 0x34, 0x12].length) ∧
      ∃ x ∈ (Cursor.ofImage [0x4C, 0x34, 0x12] 0 (some 3)).instructions,
        x.text = "JMP $1234" ∧ (x.cutAt 2).text = "JMP END" ∧
        (Cursor.ofImage [0x4C, 0x34, 0x12] 0 (some 2)).instructions = [x.cutAt 2] := by
  have ordered : 0 ≤ 2 := Nat.zero_le 2
  have earlier : 2 ≤ 3 := Nat.le_succ 2
  have within : 3 ≤ [(0x4C : UInt8), 0x34, 0x12].length := Nat.le_refl 3
  refine ⟨⟨ordered, earlier, within⟩, ?_⟩
  obtain ⟨-, inside, -⟩ := sweep_of_cut_range ordered earlier within
  obtain ⟨x, only, short⟩ := inside (by decide)
  obtain ⟨member, -, -⟩ := (only x).mpr rfl
  have text : ∀ i ∈ (Cursor.ofImage [0x4C, 0x34, 0x12] 0 (some 3)).instructions,
      i.text = "JMP $1234" ∧ (i.cutAt 2).text = "JMP END" := by decide
  exact ⟨x, member, (text x member).1, (text x member).2, short⟩

end LinearSweep
