import LinearSweep.Proofs.Checks
import LinearSweep.Proofs.Printing
import LinearSweep.Proofs.Tokens

/-!
# Word lists in pieces

A word list can be read piece by piece if the pieces end at line feeds.  The words of a piece come
behind those of the pieces before it, and so do the positions of its faults; the first piece with a
fault decides.  The one equation behind this is `read_append_lineFeed`.  A comment at the end of a
piece is no part of it, `tokens_append_comment`.
-/

namespace LinearSweep.WordList

open Numeral

/-! ## Positions of faults -/

/-- The fault of a token, named by the position that it has behind a number of other tokens.  No
other fault names a position. -/
def Fault.moved (distance : Nat) : Fault → Fault
  | .defect (.notAWord token (some position)) =>
    .ofDefect (.notAWord token (some (distance + position)))
  | fault => fault

/-- A token is reported at its position, if the position can be written. -/
theorem ofDefect_notAWord (token : List Char) (position : Nat) :
    Fault.ofDefect (.notAWord token (some position)) =
      if position < decimalBound then .defect (.notAWord token (some position))
      else .numeral .tooLong := by
  have written : decimal position =
      if position < decimalBound then .ok (toString (position : Int)) else .error .tooLong := rfl
  by_cases short : position < decimalBound
  · rw [if_pos short] at written ⊢
    simp only [Fault.ofDefect, Defect.report, pure, Except.pure, bind, Except.bind, Report.message,
      written]
  · rw [if_neg short] at written ⊢
    simp only [Fault.ofDefect, Defect.report, pure, Except.pure, bind, Except.bind, Report.message,
      written]

theorem moved_ofDefect (token : List Char) (distance position : Nat) :
    (Fault.ofDefect (.notAWord token (some position))).moved distance =
      .ofDefect (.notAWord token (some (distance + position : Nat))) := by
  rw [ofDefect_notAWord token position]
  by_cases short : position < decimalBound
  · rw [if_pos short]
    rfl
  · -- A position that cannot be written cannot be written further behind either.
    have long : ¬ distance + position < decimalBound := by omega
    rw [if_neg short, ofDefect_notAWord, if_neg long]
    rfl

/-- A token is reported at no other position than its own. -/
theorem position_of_readWord {token reported : List Char} {i : Nat} {position : Int}
    (faulty : readWord token (some i) = .error (.defect (.notAWord reported (some position)))) :
    position = i := by
  simp only [readWord] at faulty
  split at faulty
  · rw [ofDefect_notAWord] at faulty
    split at faulty <;> cases faulty
    rfl
  · split at faulty <;> cases faulty

theorem readWord_moved (token : List Char) (distance position : Nat) :
    readWord token (some (distance + position : Nat)) =
      (readWord token (some position)).mapError (Fault.moved distance) := by
  simp only [readWord]
  split
  · exact congrArg Except.error (moved_ofDefect token distance position).symm
  · split <;> rfl

/-! ## Tokens from an index on -/

/-- Reads tokens, the first of which has an index. -/
def readTokens (first : Nat) (tokens : List (List Char)) : Except Fault (List Int) :=
  (tokens.zipIdx first).mapM fun (token, i) => readWord token (some (i : Int))

theorem read_eq (text : List Char) : read text = readTokens 0 (tokens text) := rfl

@[simp] theorem readTokens_nil {first : Nat} : readTokens first [] = .ok [] := rfl

theorem readTokens_cons (first : Nat) (token : List Char) (tokens : List (List Char)) :
    readTokens first (token :: tokens) = do
      let word ← readWord token (some first)
      let words ← readTokens (first + 1) tokens
      return word :: words := by
  rw [readTokens, List.zipIdx_cons, List.mapM_cons]
  rfl

theorem readTokens_moved (distance first : Nat) (tokens : List (List Char)) :
    readTokens (distance + first) tokens =
      (readTokens first tokens).mapError (Fault.moved distance) := by
  induction tokens generalizing first with
  | nil => rfl
  | cons token tokens ih =>
    rw [readTokens_cons, readTokens_cons, readWord_moved, Nat.add_assoc, ih]
    cases readWord token (some first) with
    | error fault => rfl
    | ok word => cases readTokens (first + 1) tokens <;> rfl

theorem readTokens_append (first : Nat) (tokens others : List (List Char)) :
    readTokens first (tokens ++ others) = do
      let words ← readTokens first tokens
      let more ← readTokens (first + tokens.length) others
      return words ++ more := by
  induction tokens generalizing first with
  | nil =>
    simp only [List.nil_append, readTokens_nil, List.length_nil, Nat.add_zero]
    cases readTokens first others <;> rfl
  | cons token tokens ih =>
    have next : first + (tokens.length + 1) = first + 1 + tokens.length := by omega
    rw [List.cons_append, readTokens_cons, readTokens_cons, ih, List.length_cons, next]
    cases readWord token (some first) with
    | error fault => rfl
    | ok word =>
      cases readTokens (first + 1) tokens with
      | error fault => rfl
      | ok words => cases readTokens (first + 1 + tokens.length) others <;> rfl

theorem length_of_readTokens {first : Nat} {tokens : List (List Char)} {words : List Int}
    (read : readTokens first tokens = .ok words) : words.length = tokens.length := by
  induction tokens generalizing first words with
  | nil =>
    cases read
    rfl
  | cons token tokens ih =>
    rw [readTokens_cons, bind_eq_ok_iff] at read
    obtain ⟨word, -, rest⟩ := read
    obtain ⟨others, tail, whole⟩ := bind_eq_ok_iff.mp rest
    cases whole
    rw [List.length_cons, List.length_cons, ih tail]

/-- A token that is reported is one of those that were read. -/
theorem exists_position_of_readTokens {first : Nat} {tokens : List (List Char)} {token : List Char}
    {position : Int}
    (faulty : readTokens first tokens = .error (.defect (.notAWord token (some position)))) :
    ∃ i : Nat, position = i ∧ i < first + tokens.length := by
  induction tokens generalizing first with
  | nil => cases faulty
  | cons other tokens ih =>
    rw [readTokens_cons] at faulty
    rw [List.length_cons]
    cases head : readWord other (some first) with
    | error fault =>
      simp only [head, bind, Except.bind, Except.error.injEq] at faulty
      subst faulty
      exact ⟨first, position_of_readWord head, by omega⟩
    | ok word =>
      cases tail : readTokens (first + 1) tokens with
      | error fault =>
        simp only [head, tail, bind, Except.bind, Except.error.injEq] at faulty
        rw [faulty] at tail
        obtain ⟨i, same, within⟩ := ih tail
        exact ⟨i, same, by omega⟩
      | ok words => simp [head, tail, bind, Except.bind, pure, Except.pure] at faulty

/-! ## Pieces of a text -/

/-- What is read of two texts with a line feed between them. -/
theorem read_append_lineFeed (text other : List Char) :
    read (text ++ '\n' :: other) = do
      let words ← read text
      let more ← (read other).mapError (Fault.moved words.length)
      return words ++ more := by
  simp only [read_eq, tokens_append_lineFeed, readTokens_append, Nat.zero_add]
  cases front : readTokens 0 (tokens text) with
  | error fault => rfl
  | ok words =>
    have moved := readTokens_moved (tokens text).length 0 (tokens other)
    rw [Nat.add_zero] at moved
    simp only [bind, Except.bind, moved, length_of_readTokens front]

/-- There are no more tokens than characters. -/
theorem length_filter_splitOnP_le (separates : Char → Bool) (line : List Char) :
    ((line.splitOnP separates).filter (!·.isEmpty)).length ≤ line.length := by
  induction line with
  | nil => simp
  | cons c line ih =>
    rw [List.splitOnP_cons_eq_if_modifyHead]
    split
    · simpa using Nat.le_succ_of_le ih
    · cases pieces : line.splitOnP separates with
      | nil => simp
      | cons piece others =>
        rw [pieces, List.filter_cons] at ih
        have fewer : (others.filter (!·.isEmpty)).length ≤ line.length := by
          split at ih
          · exact Nat.le_of_succ_le ih
          · exact ih
        simpa using fewer

theorem length_lineTokens_le (line : List Char) : (lineTokens line).length ≤ line.length :=
  Nat.le_trans (length_filter_splitOnP_le _ _) (List.takeWhile_prefix _).length_le

theorem length_tokens_le (text : List Char) : (tokens text).length ≤ text.length := by
  induction text using Text.cut_induction '\n' with
  | whole line unbroken =>
    rw [tokens_line unbroken]
    exact length_lineTokens_le line
  | cut line rest unbroken ih =>
    have front := length_lineTokens_le line
    rw [tokens_append_lineFeed, tokens_line unbroken, List.length_append, List.length_append,
      List.length_cons]
    omega

/-! ## Comments -/

/-- A comment behind a line hides itself and nothing of the line, be it in a comment or not. -/
theorem lineTokens_append_comment {mark : Char} (starts : startsComment mark = true)
    (line body : List Char) : lineTokens (line ++ mark :: body) = lineTokens line := by
  have kept : (line ++ mark :: body).takeWhile (!startsComment ·) =
      line.takeWhile (!startsComment ·) := by
    rw [List.takeWhile_append, List.takeWhile_cons_of_neg (by simp [starts]), List.append_nil]
    split
    · rename_i whole
      exact ((List.takeWhile_prefix _).eq_of_length whole).symm
    · rfl
  rw [lineTokens, lineTokens, kept]

theorem tokens_append_comment {mark : Char} {body : List Char} (starts : startsComment mark = true)
    (within : '\n' ∉ body) (text : List Char) : tokens (text ++ mark :: body) = tokens text := by
  have unmarked : '\n' ≠ mark := by
    rintro rfl
    exact absurd starts (by decide)
  induction text using Text.cut_induction '\n' with
  | whole line unbroken =>
    have longer : '\n' ∉ line ++ mark :: body := by
      simp [unbroken, unmarked, within]
    rw [tokens_line longer, tokens_line unbroken, lineTokens_append_comment starts]
  | cut line rest unbroken ih =>
    rw [List.append_assoc, List.cons_append, tokens_append_lineFeed, tokens_append_lineFeed, ih]

/-- A text and another one behind a line feed are read as the two are: the words of the other come
behind those of the first, and so do the positions at which the other has its faults, unless there
are so many words that a position cannot be written.  A comment at the end of the first text changes
nothing. -/
theorem read_in_pieces (text other : List Char) :
    let joined := text ++ '\n' :: other
    (∀ words more, read text = .ok words → read other = .ok more →
      read joined = .ok (words ++ more)) ∧
    (∀ fault, read text = .error fault → read joined = .error fault) ∧
    (∀ words token position, read text = .ok words →
      read other = .error (.defect (.notAWord token (some position))) →
        read joined = .error (.ofDefect (.notAWord token (some (words.length + position)))) ∧
        (text.length + other.length < decimalBound →
          read joined = .error (.defect (.notAWord token (some (words.length + position)))))) ∧
    (∀ words fault, read text = .ok words → read other = .error fault →
      (∀ token position, fault ≠ .defect (.notAWord token (some position))) →
        read joined = .error fault) ∧
    ∀ mark ∈ ['#', ';'], ∀ body, '\n' ∉ body →
      read (text ++ mark :: body ++ '\n' :: other) = read joined := by
  intro joined
  have whole : read joined = _ := read_append_lineFeed text other
  refine ⟨?words, ?first, ?moved, ?others, ?comment⟩
  case words =>
    intro words more front behind
    rw [whole, front, behind]
    rfl
  case first =>
    intro fault front
    rw [whole, front]
    rfl
  case moved =>
    intro words token position front behind
    have named : read joined =
        .error (.ofDefect (.notAWord token (some (words.length + position)))) := by
      rw [whole, front, behind]
      rfl
    refine ⟨named, fun short => ?_⟩
    rw [read_eq] at front behind
    obtain ⟨i, rfl, inside⟩ := exists_position_of_readTokens behind
    have count := length_of_readTokens front
    have few := length_tokens_le text
    have few' := length_tokens_le other
    rw [named, ← Int.natCast_add, ofDefect_notAWord, if_pos (by omega)]
  case others =>
    intro words fault front behind plain
    have kept : fault.moved words.length = fault := by
      unfold Fault.moved
      split
      · exact absurd rfl (plain _ _)
      · rfl
    rw [whole, front, behind]
    exact congrArg Except.error kept
  case comment =>
    intro mark known body within
    have starts : startsComment mark = true := by simpa [startsComment] using known
    have same : tokens (text ++ mark :: body ++ '\n' :: other) = tokens joined := by
      rw [tokens_append_lineFeed, tokens_append_lineFeed, tokens_append_comment starts within]
    rw [read_eq, read_eq, same]

end LinearSweep.WordList
