import LinearSweep.WordList.Layout

/-!
# Tokens line by line

The tokens of a text are those of its lines one after another, so a line feed may be added between
two texts, `tokens_append_lineFeed`.  Within a line a separator adds nothing, a comment hides what
stands behind it, and a run of other characters is a token if it ends where one of the two begins.
-/

namespace LinearSweep.WordList

/-! ## Lines -/

/-- A line ends in front of a text: it is empty or begins with a line feed. -/
def EndsLine (text : List Char) : Prop :=
  text = [] ∨ ∃ rest, text = '\n' :: rest

theorem tokens_append_lineFeed (text other : List Char) :
    tokens (text ++ '\n' :: other) = tokens text ++ tokens other := by
  rw [tokens, List.splitOnP_append_cons _ _ (by rfl), List.flatMap_append]
  rfl

@[simp] theorem tokens_nil : tokens [] = [] := rfl

theorem tokens_line {line : List Char} (within : '\n' ∉ line) : tokens line = lineTokens line := by
  have single : line.splitOnP (· == '\n') = [line] := by
    apply List.splitOnP_eq_singleton
    intro c member
    rw [beq_eq_false_iff_ne]
    rintro rfl
    exact within member
  rw [tokens, single, List.flatMap_cons, List.flatMap_nil, List.append_nil]

/-- The tokens of a text are those of its first line and those of what is left. -/
theorem tokens_line_append {line behind : List Char} (within : '\n' ∉ line)
    (ends : EndsLine behind) :
    tokens (line ++ behind) = lineTokens line ++ tokens behind := by
  obtain rfl | ⟨rest, rfl⟩ := ends
  · simp [tokens_line within]
  · have first : tokens ('\n' :: rest) = tokens rest := tokens_append_lineFeed [] rest
    rw [tokens_append_lineFeed, tokens_line within, first]

theorem exists_line (text : List Char) :
    ∃ line behind, text = line ++ behind ∧ '\n' ∉ line ∧ EndsLine behind := by
  by_cases broken : '\n' ∈ text
  · obtain ⟨line, rest, rfl, within⟩ := List.eq_append_cons_of_mem broken
    exact ⟨line, '\n' :: rest, rfl, within, .inr ⟨rest, rfl⟩⟩
  · exact ⟨text, [], (List.append_nil text).symm, broken, .inl rfl⟩

/-! ## Within a line -/

/-- A word ends in front of a text: it is empty or begins with a separator or a comment. -/
def EndsWord (text : List Char) : Prop :=
  ∀ c ∈ text.head?, isSeparator c = true ∨ startsComment c = true

theorem EndsWord.append {text other : List Char} (ends : EndsWord text)
    (otherwise : text = [] → EndsWord other) : EndsWord (text ++ other) := by
  cases text with
  | nil => exact otherwise rfl
  | cons c text => exact ends

theorem startsComment_of_isSeparator {c : Char} (separator : isSeparator c = true) :
    startsComment c = false := by
  rw [startsComment, Bool.or_eq_false_iff, decide_eq_false_iff_not, decide_eq_false_iff_not]
  constructor <;> rintro rfl <;> exact absurd separator (by decide)

@[simp] theorem lineTokens_nil : lineTokens [] = [] := rfl

theorem lineTokens_separator {c : Char} (separator : isSeparator c = true) (line : List Char) :
    lineTokens (c :: line) = lineTokens line := by
  simp [lineTokens, List.splitOnP_cons_eq_if_modifyHead, startsComment_of_isSeparator separator,
    separator]

theorem lineTokens_comment {mark : Char} (starts : startsComment mark = true) (body : List Char) :
    lineTokens (mark :: body) = [] := by
  simp [lineTokens, starts]

/-- A word is a token if no other character that may stand in one comes next. -/
theorem lineTokens_word {word line : List Char} (filled : word ≠ [])
    (inside : ∀ c ∈ word, isSeparator c = false ∧ startsComment c = false)
    (ends : EndsWord line) :
    lineTokens (word ++ line) = word :: lineTokens line := by
  have kept : ∀ c ∈ word, (!startsComment c) = true := fun c member => by
    rw [(inside c member).2]
    rfl
  have unbroken : ∀ c ∈ word, isSeparator c = false := fun c member => (inside c member).1
  have tokensOf : lineTokens (word ++ line) =
      ((word ++ line.takeWhile (!startsComment ·)).splitOnP isSeparator).filter (!·.isEmpty) := by
    rw [lineTokens, List.takeWhile_append_of_pos kept]
  have alone : (word.splitOnP isSeparator).filter (!·.isEmpty) = [word] := by
    simp [List.splitOnP_eq_singleton unbroken, filled]
  cases line with
  | nil => rw [tokensOf, List.takeWhile_nil, List.append_nil, alone, lineTokens_nil]
  | cons c rest =>
    cases ends c rfl with
    | inl separator =>
      have front : (!startsComment c) = true := by
        rw [startsComment_of_isSeparator separator]
        rfl
      rw [tokensOf, lineTokens_separator separator, lineTokens]
      simp [front, List.splitOnP_append_cons_of_forall_mem unbroken c separator, filled]
    | inr mark =>
      have hidden : (c :: rest).takeWhile (!startsComment ·) = [] := by simp [mark]
      rw [tokensOf, lineTokens_comment mark, hidden, List.append_nil, alone]

/-! ## Within a text -/

theorem tokens_separator {c : Char} (separator : isSeparator c = true) (text : List Char) :
    tokens (c :: text) = tokens text := by
  by_cases lineFeed : c = '\n'
  · rw [lineFeed]
    exact tokens_append_lineFeed [] text
  · obtain ⟨line, behind, rfl, within, ends⟩ := exists_line text
    have longer : '\n' ∉ c :: line := by simp [within, Ne.symm lineFeed]
    rw [← List.cons_append, tokens_line_append longer ends, tokens_line_append within ends,
      lineTokens_separator separator]

theorem tokens_comment {mark : Char} {body behind : List Char} (starts : startsComment mark = true)
    (within : '\n' ∉ body) (ends : EndsLine behind) :
    tokens (mark :: body ++ behind) = tokens behind := by
  have line : '\n' ∉ mark :: body := by
    rw [List.mem_cons, not_or]
    refine ⟨?_, within⟩
    rintro rfl
    exact absurd starts (by decide)
  rw [tokens_line_append line ends, lineTokens_comment starts, List.nil_append]

theorem tokens_word {word text : List Char} (filled : word ≠ [])
    (inside : ∀ c ∈ word, isSeparator c = false ∧ startsComment c = false)
    (ends : EndsWord text) :
    tokens (word ++ text) = word :: tokens text := by
  obtain ⟨line, behind, rfl, within, stop⟩ := exists_line text
  have longer : '\n' ∉ word ++ line := by
    rw [List.mem_append, not_or]
    refine ⟨fun member => ?_, within⟩
    exact absurd (inside _ member).1 (by decide)
  have next : EndsWord line := by
    cases line with
    | nil => simp [EndsWord]
    | cons c line => exact ends
  rw [← List.append_assoc, tokens_line_append longer stop, tokens_line_append within stop,
    lineTokens_word filled inside next, List.cons_append]

/-! ## Characters of tokens -/

theorem separates_of_mem_splitOnP {separates : Char → Bool} {line piece : List Char}
    (member : piece ∈ line.splitOnP separates) : ∀ c ∈ piece, separates c = false := by
  induction line generalizing piece with
  | nil =>
    rw [List.splitOnP_nil, List.mem_singleton] at member
    rw [member]
    exact List.forall_mem_nil _
  | cons c line ih =>
    rw [List.splitOnP_cons_eq_if_modifyHead] at member
    split at member
    next =>
      cases List.mem_cons.mp member with
      | inl first =>
        rw [first]
        exact List.forall_mem_nil _
      | inr later => exact ih later
    next inside =>
      obtain ⟨first, others, pieces⟩ :=
        List.exists_cons_of_ne_nil (List.splitOnP_ne_nil separates line)
      rw [pieces] at member ih
      cases List.mem_cons.mp member with
      | inl longer =>
        rw [longer, List.forall_mem_cons]
        exact ⟨by simpa using inside, ih List.mem_cons_self⟩
      | inr later => exact ih (List.mem_cons_of_mem _ later)

theorem isSeparator_of_mem_tokens {text token : List Char} (member : token ∈ tokens text) :
    ∀ c ∈ token, isSeparator c = false := by
  rw [tokens, List.mem_flatMap] at member
  obtain ⟨line, -, member⟩ := member
  exact separates_of_mem_splitOnP (List.mem_filter.mp member).1

end LinearSweep.WordList
