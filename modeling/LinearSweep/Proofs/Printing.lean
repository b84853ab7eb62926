import LinearSweep.Text.ControlSequence

/-!
# Printing line by line

A line feed cannot stand in a control sequence, so what is printed of a text is what is printed of
its lines, `lines_printed`.
-/

namespace LinearSweep.Text

/-! ## Cuts -/

/-- Induction over the pieces of a text between the occurrences of a character. -/
theorem cut_induction (mark : Char) {motive : List Char → Prop}
    (whole : ∀ text, mark ∉ text → motive text)
    (cut : ∀ front rest, mark ∉ front → motive rest → motive (front ++ mark :: rest))
    (text : List Char) : motive text := by
  by_cases found : mark ∈ text
  · obtain ⟨front, rest, rfl, free⟩ := List.eq_append_cons_of_mem found
    exact cut front rest free (cut_induction mark whole cut rest)
  · exact whole text found
termination_by text.length
decreasing_by
  subst_vars
  simp only [List.length_append, List.length_cons]
  omega

/-! ## Lines -/

/-- The lines of a text.  What stands behind the last line feed is a line too, even if it is
empty. -/
def lines (text : String) : List String :=
  (text.toList.splitOn '\n').map String.ofList

theorem lines_intercalate {ls : List String} (filled : ls ≠ [])
    (unbroken : ∀ l ∈ ls, '\n' ∉ l.toList) : lines ("\n".intercalate ls) = ls := by
  have lists : ∀ l ∈ ls.map String.toList, '\n' ∉ l := by
    simpa using unbroken
  rw [lines, String.toList_intercalate]
  change (List.splitOn '\n' (['\n'].intercalate _)).map _ = _
  rw [List.splitOn_intercalate '\n' lists (by simpa using filled)]
  simp [Function.comp_def]

theorem lines_of_unbroken {text : String} (unbroken : '\n' ∉ text.toList) :
    lines text = [text] := by
  have alone : "\n".intercalate [text] = text := by simp
  conv => lhs; rw [← alone]
  exact lines_intercalate (List.cons_ne_nil _ _) (by simpa using unbroken)

/-- The lines of two texts with a line feed between them are the lines of both. -/
theorem lines_append (text other : String) :
    lines (text ++ "\n" ++ other) = lines text ++ lines other := by
  have apart : (text ++ "\n" ++ other).toList = text.toList ++ '\n' :: other.toList := by simp
  rw [lines, apart, List.splitOn_append_cons_self, List.map_append]
  rfl

/-- A text whose lines all end with a line feed has an empty line at its end. -/
theorem lines_ended {ls : List String} (filled : ls ≠ [])
    (unbroken : ∀ l ∈ ls, '\n' ∉ l.toList) : lines ("\n".intercalate ls ++ "\n") = ls ++ [""] := by
  have ended : "\n".intercalate ls ++ "\n" = "\n".intercalate (ls ++ [""]) := by
    rw [String.intercalate_append_of_ne_nil filled (by simp)]
    simp
  rw [ended]
  apply lines_intercalate (by simp)
  intro l member
  cases List.mem_append.mp member with
  | inl inside => exact unbroken l inside
  | inr last => simp [List.mem_singleton.mp last]

/-! ## Control sequences -/

theorem afterSequence?_append (text other : List Char) :
    afterSequence? (text ++ '\n' :: other) = (afterSequence? text).map (· ++ '\n' :: other) := by
  match text with
  | [] => rfl
  | c :: text =>
    by_cases bracket : c = '['
    · subst bracket
      simp only [afterSequence?, List.cons_append, List.dropWhile_append]
      cases text.dropWhile isParameterChar with
      | nil =>
        have feed : ('\n' :: other).dropWhile isParameterChar = '\n' :: other := rfl
        simp [feed]
      | cons letter text => by_cases alpha : letter.isAlpha = true <;> simp [alpha]
    · have plain (text : List Char) : afterSequence? (c :: text) = none := by
        unfold afterSequence?
        split
        · exact absurd (by simp_all) bracket
        · rfl
      simp [plain]

theorem withoutSequence_append (text other : List Char) :
    withoutSequence (text ++ '\n' :: other) = withoutSequence text ++ '\n' :: other := by
  rw [withoutSequence, withoutSequence, afterSequence?_append]
  cases afterSequence? text <;> rfl

/-- What is printed of a text, if `front` is printed of what comes before its first escape
character. -/
def printedFrom (front : List Char → List Char) (text : List Char) : List Char :=
  match text.splitOn escapeChar with
  | [] => []
  | first :: others => front first ++ others.flatMap withoutSequence

theorem withoutSequences_eq : withoutSequences = printedFrom id := rfl

theorem printedFrom_of_not_mem {front : List Char → List Char} {text : List Char}
    (free : escapeChar ∉ text) : printedFrom front text = front text := by
  simp [printedFrom, List.splitOn_eq_singleton free]

theorem printedFrom_append {front : List Char → List Char} {text : List Char}
    (free : escapeChar ∉ text) (other : List Char) :
    printedFrom front (text ++ escapeChar :: other) =
      front text ++ printedFrom withoutSequence other := by
  have behind : printedFrom withoutSequence other =
      (other.splitOn escapeChar).flatMap withoutSequence := by
    rw [printedFrom]
    cases other.splitOn escapeChar <;> rfl
  rw [behind, printedFrom, List.splitOn_append_cons_self_of_not_mem free]

theorem printedFrom_lineFeed {front : List Char → List Char}
    (kept : ∀ text other, front (text ++ '\n' :: other) = front text ++ '\n' :: other)
    (text other : List Char) :
    printedFrom front (text ++ '\n' :: other) =
      printedFrom front text ++ '\n' :: withoutSequences other := by
  induction text using cut_induction escapeChar generalizing front with
  | whole text free =>
    have longer {line : List Char} (free' : escapeChar ∉ line) :
        escapeChar ∉ text ++ '\n' :: line := by
      rw [List.mem_append, List.mem_cons, not_or, not_or]
      exact ⟨free, by decide, free'⟩
    rw [withoutSequences_eq, printedFrom_of_not_mem free]
    by_cases later : escapeChar ∈ other
    · obtain ⟨line, rest, rfl, free'⟩ := List.eq_append_cons_of_mem later
      rw [← List.cons_append, ← List.append_assoc, printedFrom_append (longer free'), kept,
        printedFrom_append free', List.append_assoc, List.cons_append]
      rfl
    · rw [printedFrom_of_not_mem (longer later), kept, printedFrom_of_not_mem later]
      rfl
  | cut before rest free ih =>
    -- What stands behind the first escape character is printed in the other way.
    rw [List.append_assoc, List.cons_append, printedFrom_append free, printedFrom_append free,
      ih withoutSequence_append, List.append_assoc]

/-- The lines of a text are printed on their own. -/
theorem withoutSequences_lineFeed (text other : List Char) :
    withoutSequences (text ++ '\n' :: other) =
      withoutSequences text ++ '\n' :: withoutSequences other :=
  printedFrom_lineFeed (fun _ _ => rfl) text other

theorem mem_of_afterSequence? {text rest : List Char} (complete : afterSequence? text = some rest)
    {c : Char} (member : c ∈ rest) : c ∈ text := by
  unfold afterSequence? at complete
  split at complete
  · rename_i text
    split at complete
    · rename_i letter behind eq
      split at complete
      · cases complete
        have dropped : c ∈ text.dropWhile isParameterChar := by simp [eq, member]
        exact List.mem_cons_of_mem _ ((List.dropWhile_sublist _).subset dropped)
      · cases complete
    · cases complete
  · cases complete

theorem mem_withoutSequence {text : List Char} {c : Char} (member : c ∈ withoutSequence text) :
    c = escapeChar ∨ c ∈ text := by
  rw [withoutSequence] at member
  cases behind : afterSequence? text with
  | none => simpa [behind] using member
  | some rest =>
    rw [behind] at member
    exact .inr (mem_of_afterSequence? behind member)

theorem mem_printedFrom {front : List Char → List Char} {text : List Char} {c : Char}
    (within : ∀ text, c ∈ front text → c = escapeChar ∨ c ∈ text)
    (member : c ∈ printedFrom front text) : c = escapeChar ∨ c ∈ text := by
  induction text using cut_induction escapeChar generalizing front with
  | whole text free =>
    rw [printedFrom_of_not_mem free] at member
    exact within text member
  | cut before rest free ih =>
    rw [printedFrom_append free] at member
    rw [List.mem_append, List.mem_cons]
    cases List.mem_append.mp member with
    | inl first => exact (within before first).imp_right .inl
    | inr behind =>
      exact (ih (fun _ => mem_withoutSequence) behind).imp_right fun found => .inr (.inr found)

theorem unbroken_withoutSequences {text : List Char} (unbroken : '\n' ∉ text) :
    '\n' ∉ withoutSequences text := by
  intro member
  rw [withoutSequences_eq] at member
  cases mem_printedFrom (fun _ => .inr) member with
  | inl escape => exact absurd escape (by decide)
  | inr found => exact unbroken found

theorem splitOn_withoutSequences (text : List Char) :
    (withoutSequences text).splitOn '\n' = (text.splitOn '\n').map withoutSequences := by
  induction text using cut_induction '\n' with
  | whole line unbroken =>
    rw [List.splitOn_eq_singleton unbroken,
      List.splitOn_eq_singleton (unbroken_withoutSequences unbroken)]
    rfl
  | cut line rest unbroken ih =>
    rw [withoutSequences_lineFeed,
      List.splitOn_append_cons_self_of_not_mem (unbroken_withoutSequences unbroken),
      List.splitOn_append_cons_self_of_not_mem unbroken, List.map_cons, ih]

/-- What is printed of a text is what is printed of its lines. -/
theorem lines_printed (text : String) : lines (printed text) = (lines text).map printed := by
  simp [lines, printed, splitOn_withoutSequences, Function.comp_def]

end LinearSweep.Text
