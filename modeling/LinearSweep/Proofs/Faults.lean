import LinearSweep.Proofs.WordChecks

/-!
# Faults of word lists

Reading a text and unpacking numbers both go from the front to the back and stop at the first fault.
For a text it is a token that is no literal, reported with its index, or a decimal literal that is
too long to be read.  For numbers it is one that is no word, reported with its index and its value
if these can be written.  Neither fails in any other way: `read_stops_at_first_fault` and
`unpack_stops_at_first_misfit`.
-/

namespace LinearSweep.WordList

open Numeral Command

/-! ## Tokens of a text without comments -/

/-- A text without its comments; `hidden` says whether it begins inside of one. -/
def withoutComments (hidden : Bool) : List Char → List Char
  | [] => []
  | c :: text =>
    if c = '\n' then c :: withoutComments false text
    else if hidden || startsComment c then withoutComments true text
    else c :: withoutComments false text

/-- What stands between the separators of a text without its comments, if it is not empty. -/
def pieces (text : List Char) : List (List Char) :=
  ((withoutComments false text).splitOnP isSeparator).filter (!·.isEmpty)

/-- Of a line remains what stands in front of its comment. -/
theorem withoutComments_line {line behind : List Char} (unbroken : '\n' ∉ line)
    (ends : EndsLine behind) (hidden : Bool) :
    withoutComments hidden (line ++ behind) =
      (if hidden then [] else line.takeWhile (!startsComment ·))
        ++ withoutComments false behind := by
  induction line generalizing hidden with
  | nil =>
    have front : (if hidden then [] else List.takeWhile (!startsComment ·) []) = [] := by
      cases hidden <;> rfl
    rw [front]
    obtain rfl | ⟨rest, rfl⟩ := ends <;> rfl
  | cons c line ih =>
    rw [List.mem_cons, not_or] at unbroken
    have inside : ¬ c = '\n' := fun same => unbroken.1 same.symm
    rw [List.cons_append, withoutComments, if_neg inside, ih unbroken.2, ih unbroken.2]
    cases hidden with
    | true => rfl
    | false => cases starts : startsComment c <;> simp [starts]

/-- The tokens of a text are the pieces of what remains without its comments. -/
theorem tokens_eq_pieces (text : List Char) : tokens text = pieces text := by
  unfold pieces
  induction text using Text.cut_induction '\n' with
  | whole line unbroken =>
    have kept := withoutComments_line unbroken (.inl rfl) false
    rw [List.append_nil] at kept
    rw [tokens_line unbroken, kept]
    simp [lineTokens, withoutComments]
  | cut line rest unbroken ih =>
    have feed : withoutComments false ('\n' :: rest) = '\n' :: withoutComments false rest := rfl
    rw [tokens_append_lineFeed, tokens_line unbroken, ih,
      withoutComments_line unbroken (.inr ⟨rest, rfl⟩), feed,
      List.splitOnP_append_cons _ _ (by rfl), List.filter_append]
    rfl

/-! ## Tokens that are read -/

/-- A token is a decimal or hexadecimal literal with or without a sign. -/
def IsLiteral (token : List Char) : Prop :=
  ∃ s : Spelling, s.text = token

/-- A token is a decimal literal with too many digits. -/
def IsLong (token : List Char) : Prop :=
  ∃ s : Spelling, s.text = token ∧ s.isLong = true

theorem spells_iff {token : List Char} :
    (∃ number, Spells token number) ↔ IsLiteral token ∧ ¬ IsLong token := by
  constructor
  · rintro ⟨number, s, spelled, short, -⟩
    refine ⟨⟨s, spelled⟩, ?_⟩
    rintro ⟨t, same, long⟩
    rw [Spelling.isLong_eq_of_text_eq (same.trans spelled.symm), short] at long
    cases long
  · rintro ⟨⟨s, spelled⟩, short⟩
    exact ⟨s.value, s, spelled, by simpa using fun long => short ⟨s, spelled, long⟩, rfl⟩

/-- A token that is not read is no literal, or one that is too long. -/
theorem fault_of_readWord {token : List Char} {i : Nat} {fault : Fault}
    (clean : dropLineFeed token = token) (faulty : readWord token (some i) = .error fault) :
    ¬ IsLiteral token ∧ fault = .ofDefect (.notAWord token (some i)) ∨
      ∃ s : Spelling, s.text = token ∧ s.isLong = true ∧
        fault = .numeral (.tooManyDigits s.digits.length) := by
  by_cases literal : IsLiteral token
  · right
    obtain ⟨s, spelled⟩ := literal
    rw [readWord_of_spelling (spelled.trans clean.symm)] at faulty
    split at faulty
    next long =>
      cases faulty
      exact ⟨s, spelled, long, rfl⟩
    next => cases faulty
  · left
    have unspelled : ∀ s : Spelling, s.text ≠ dropLineFeed token := by
      rw [clean]
      exact not_exists.mp literal
    rw [readWord_of_not_spelled unspelled] at faulty
    exact ⟨literal, (Except.error.inj faulty).symm⟩

/-- Reading comes to the end of the tokens, or stops at one behind others that can all be read. -/
theorem readTokens_cases {tokens : List (List Char)}
    (clean : ∀ token ∈ tokens, dropLineFeed token = token) (first : Nat) :
    (∃ words, readTokens first tokens = .ok words ∧
      ∀ token ∈ tokens, IsLiteral token ∧ ¬ IsLong token) ∨
    ∃ front token behind fault, tokens = front ++ token :: behind ∧
      (∀ earlier ∈ front, IsLiteral earlier ∧ ¬ IsLong earlier) ∧
      readWord token (some (first + front.length : Nat)) = .error fault ∧
      readTokens first tokens = .error fault := by
  induction tokens generalizing first with
  | nil => exact .inl ⟨[], rfl, List.forall_mem_nil _⟩
  | cons token tokens ih =>
    rw [List.forall_mem_cons] at clean
    rw [readTokens_cons]
    cases head : readWord token (some first) with
    | error fault => exact .inr ⟨[], token, tokens, fault, rfl, List.forall_mem_nil _, head, rfl⟩
    | ok word =>
      rw [readWord_eq_ok_iff, clean.1] at head
      have sound := spells_iff.mp ⟨word, head⟩
      obtain ⟨words, tail, others⟩ | ⟨front, other, behind, fault, split, others, faulty, tail⟩ :=
        ih clean.2 (first + 1)
      · rw [tail]
        exact .inl ⟨word :: words, rfl, List.forall_mem_cons.mpr ⟨sound, others⟩⟩
      · have place : first + 1 + front.length = first + (token :: front).length := by
          rw [List.length_cons]
          omega
        rw [place] at faulty
        rw [tail, split]
        exact .inr ⟨token :: front, other, behind, fault, rfl,
          List.forall_mem_cons.mpr ⟨sound, others⟩, faulty, rfl⟩

/-! ## Reading -/

/-- Reading a text gives a number for each of its tokens if all of them are literals and none is too
long.  Otherwise the first token that is not so decides on the fault: one that is no literal is
reported with its index, and one that is too long cannot be read.  If none is too long, and there
are so few characters that every index can be written, only the first token that is no literal is at
fault. -/
theorem read_stops_at_first_fault (text : List Char) :
    ((∃ words, read text = .ok words ∧ List.Forall₂ Spells (pieces text) words) ∨
      ∃ (i : Nat) (token : List Char), (pieces text)[i]? = some token ∧
        (∀ earlier ∈ (pieces text).take i, IsLiteral earlier ∧ ¬ IsLong earlier) ∧
        (¬ IsLiteral token ∧ read text = .error (.ofDefect (.notAWord token (some i))) ∨
          ∃ s : Spelling, s.text = token ∧ s.isLong = true ∧
            read text = .error (.numeral (.tooManyDigits s.digits.length)))) ∧
    ((∀ token ∈ pieces text, ¬ IsLong token) → text.length < decimalBound →
      ((∀ token ∈ pieces text, IsLiteral token) ∧
          ∃ words, read text = .ok words ∧ List.Forall₂ Spells (pieces text) words) ∨
        ∃ (i : Nat) (token : List Char) (report : Report), (pieces text)[i]? = some token ∧
          ¬ IsLiteral token ∧ (∀ earlier ∈ (pieces text).take i, IsLiteral earlier) ∧
          read text = .error (.defect (.notAWord token (some i))) ∧
          (Defect.notAWord token (some i)).report = .ok report ∧ report.position = some i) := by
  have clean : ∀ token ∈ tokens text, dropLineFeed token = token :=
    fun token member => dropLineFeed_of_mem_tokens member
  have few : (tokens text).length ≤ text.length := length_tokens_le text
  rw [read_eq, ← tokens_eq_pieces]
  generalize tokens text = ts at clean few
  obtain ⟨words, read, sound⟩ | ⟨front, token, behind, fault, rfl, sound, faulty, read⟩ :=
    readTokens_cases clean 0
  · have spells := spells_of_readTokens clean read
    exact ⟨.inl ⟨words, read, spells⟩,
      fun _ _ => .inl ⟨fun token member => (sound token member).1, words, read, spells⟩⟩
  · rw [read]
    rw [Nat.zero_add] at faulty
    have found : (front ++ token :: behind)[front.length]? = some token := by simp
    have earlier : (front ++ token :: behind).take front.length = front := List.take_left' rfl
    have member : token ∈ front ++ token :: behind := by simp
    obtain ⟨unspelled, same⟩ | ⟨s, spelled, long, same⟩ :=
      fault_of_readWord (clean token member) faulty
    · rw [same]
      refine ⟨.inr ⟨front.length, token, found, by rwa [earlier], .inl ⟨unspelled, rfl⟩⟩,
        fun _ short => .inr ⟨front.length, token, _, found, unspelled, ?_, ?_, rfl, rfl⟩⟩
      · rw [earlier]
        exact fun other inside => (sound other inside).1
      · have near : front.length < decimalBound := by
          simp only [List.length_append, List.length_cons] at few
          omega
        rw [ofDefect_notAWord, if_pos near]
    · rw [same]
      exact ⟨.inr ⟨front.length, token, found, by rwa [earlier], .inr ⟨s, spelled, long, rfl⟩⟩,
        fun short _ => absurd ⟨s, spelled, long⟩ (short token member)⟩

/-- A text whose only token is a literal may have a fault, and one that names no index. -/
theorem read_of_long_zero :
    let text := List.replicate 4301 '0'
    pieces text = [text] ∧ IsLiteral text ∧
      read text = .error (.numeral (.tooManyDigits 4301)) := by
  intro text
  have zero : ∀ c ∈ text, c = '0' := fun c member => (List.mem_replicate.mp member).2
  have count : text.length = 4301 := List.length_replicate
  generalize text = digits at zero count
  let s : Spelling := {
    sign := .none
    mark := .none
    digits
    filled := List.ne_nil_of_length_eq_add_one count
    known := fun c member => by rw [zero c member]; decide }
  have long : s.isLong = true := by
    rw [s.isLong_iff]
    exact ⟨rfl, by rw [count]; decide⟩
  have single : tokens digits = [digits] := s.tokens_text
  have clean : dropLineFeed digits = digits :=
    dropLineFeed_of_mem_tokens (single ▸ List.mem_singleton_self digits)
  have spelled : s.text = dropLineFeed digits := clean.symm
  refine ⟨by rw [← tokens_eq_pieces, single], ⟨s, rfl⟩, ?_⟩
  rw [read_eq, single, readTokens_cons, readWord_of_spelling spelled, if_pos long, ← count]
  rfl

/-! ## Unpacking -/

/-- A number is one of those that 32 bits can stand for in two's complement. -/
def IsWord (number : Int) : Prop :=
  -0x80000000 ≤ number ∧ number ≤ 0x7FFFFFFF

theorem fits_iff {number : Int} : fits number = true ↔ IsWord number := by
  rw [fits, Bool.and_eq_true, decide_eq_true_eq, decide_eq_true_eq]
  rfl

/-- Unpacking goes through if all numbers are words, and stops at the first that is none. -/
theorem unpack_cases (numbers : List Int) :
    (unpack numbers = .ok (numbers.flatMap wordBytes) ∧ ∀ number ∈ numbers, IsWord number) ∨
    ∃ i number, numbers[i]? = some number ∧ ¬ IsWord number ∧
      (∀ earlier ∈ numbers.take i, IsWord earlier) ∧
      unpack numbers = .error (.ofDefect (.outOfRange number i)) := by
  unfold unpack
  split
  next number i found =>
    obtain ⟨unfit, j, within, here, before⟩ := List.find?_eq_some_iff_getElem.mp found
    rw [List.getElem_zipIdx, Nat.zero_add, Prod.mk.injEq] at here
    obtain ⟨rfl, rfl⟩ := here
    rw [List.length_zipIdx] at within
    refine .inr ⟨j, numbers[j], List.getElem?_eq_getElem within, ?_, fun earlier member => ?_, rfl⟩
    · rw [← fits_iff]
      simpa using unfit
    · obtain ⟨k, inside, rfl⟩ := List.mem_take_iff_getElem.mp member
      have passed := before k (by omega)
      rw [List.getElem_zipIdx] at passed
      exact fits_iff.mp (by simpa using passed)
  next found =>
    refine .inl ⟨rfl, fun number member => ?_⟩
    obtain ⟨i, place⟩ := List.mem_iff_getElem?.mp member
    have listed := List.mk_mem_zipIdx_iff_getElem?.mpr place
    have passed := List.find?_eq_none.mp found (number, i) listed
    exact fits_iff.mp (by simpa using passed)

/-- What is said of a number that is no word. -/
def misfitMessage (number : Int) (i : Nat) : String :=
  s!"error: word {i}: value {number} does not fit in a signed 32-bit word\n"
    ++ "hint: words must be in the range -2147483648..2147483647"

theorem report_outOfRange {number : Int} {i : Nat} (short : number.natAbs < decimalBound)
    (near : i < decimalBound) :
    ∃ report, (Defect.outOfRange number i).report = .ok report ∧ report.position = some (i : Int) ∧
      report.message = .ok (misfitMessage number i) := by
  have value : decimal number = .ok (toString number) := decimal_eq_ok_iff.mpr ⟨short, rfl⟩
  have position : decimal i = .ok (toString i) := decimal_eq_ok_iff.mpr ⟨near, rfl⟩
  rw [Defect.report, value]
  refine ⟨_, rfl, rfl, ?_⟩
  have hint : s!"words must be in the range {minWord}..{maxWord}" =
      "words must be in the range -2147483648..2147483647" := rfl
  have text : "error: " ++ s!"word {i}: "
        ++ s!"value {toString number} does not fit in a signed 32-bit word"
        ++ "\nhint: words must be in the range -2147483648..2147483647" =
      misfitMessage number i := by
    unfold misfitMessage
    apply String.ext
    simp [toString]
  simp only [Report.message, position, bind, Except.bind, pure, Except.pure, hint]
  exact congrArg Except.ok text

/-- Unpacking numbers fails exactly if one of them is no word.  The first that is none decides on
the fault, which is reported with its index and its value if both can be written. -/
theorem unpack_stops_at_first_misfit (numbers : List Int) :
    ((unpack numbers = .ok (numbers.flatMap wordBytes) ∧ ∀ number ∈ numbers, IsWord number) ∨
      ∃ (i : Nat) (number : Int), numbers[i]? = some number ∧ ¬ IsWord number ∧
        (∀ earlier ∈ numbers.take i, IsWord earlier) ∧
        unpack numbers = .error (
          if number.natAbs < decimalBound ∧ i < decimalBound then .defect (.outOfRange number i)
          else .numeral .tooLong)) ∧
    ((∀ number ∈ numbers, number.natAbs < decimalBound) → numbers.length ≤ decimalBound →
      ((∃ defect, unpack numbers = .error (.defect defect)) ↔ ∃ number ∈ numbers, ¬ IsWord number) ∧
      ∀ fault, unpack numbers = .error fault →
        ∃ (i : Nat) (number : Int) (report : Report), numbers[i]? = some number ∧ ¬ IsWord number ∧
          (∀ earlier ∈ numbers.take i, IsWord earlier) ∧
          fault = .defect (.outOfRange number i) ∧
          (Defect.outOfRange number i).report = .ok report ∧ report.position = some (i : Int) ∧
          report.message = .ok (misfitMessage number i)) := by
  obtain ⟨unpacked, words⟩ | ⟨i, number, place, misfit, earlier, faulty⟩ :=
    unpack_cases numbers
  · refine ⟨.inl ⟨unpacked, words⟩, fun _ _ => ⟨?_, fun fault faulty => ?_⟩⟩
    · refine iff_of_false ?_ ?_
      · rintro ⟨defect, faulty⟩
        cases unpacked.symm.trans faulty
      · rintro ⟨number, member, misfit⟩
        exact misfit (words number member)
    · cases unpacked.symm.trans faulty
  · rw [ofDefect_outOfRange] at faulty
    have member : number ∈ numbers := List.mem_of_getElem? place
    have inside : i < numbers.length := (List.getElem?_eq_some_iff.mp place).1
    refine ⟨.inr ⟨i, number, place, misfit, earlier, faulty⟩, fun short few => ?_⟩
    have near : i < decimalBound := Nat.lt_of_lt_of_le inside few
    obtain ⟨report, worded, position, message⟩ := report_outOfRange (short number member) near
    rw [if_pos ⟨short number member, near⟩] at faulty
    refine ⟨iff_of_true ⟨_, faulty⟩ ⟨number, member, misfit⟩, fun fault same => ?_⟩
    rw [faulty] at same
    exact ⟨i, number, report, place, misfit, earlier, (Except.error.inj same).symm, worded,
      position, message⟩

/-- A number that is no word is not reported if its value cannot be written. -/
theorem unpack_of_unwritable_number :
    ¬ IsWord decimalBound ∧ unpack [(decimalBound : Int)] = .error (.numeral .tooLong) := by
  have large : 0x7FFFFFFF < decimalBound := by decide +kernel
  have misfit : ¬ IsWord decimalBound := by
    rintro ⟨-, upper⟩
    omega
  have unwritable : ¬ ((decimalBound : Int).natAbs < decimalBound ∧ 0 < decimalBound) := by
    rw [Int.natAbs_natCast]
    exact fun both => absurd both.1 (Nat.lt_irrefl _)
  obtain ⟨-, words⟩ | ⟨i, number, place, -, -, faulty⟩ := unpack_cases [(decimalBound : Int)]
  · exact absurd (words _ (List.mem_singleton_self _)) misfit
  · obtain ⟨inside, same⟩ := List.getElem?_eq_some_iff.mp place
    obtain rfl : i = 0 := Nat.lt_one_iff.mp inside
    rw [List.getElem_singleton] at same
    rw [faulty, ofDefect_outOfRange, ← same, if_neg unwritable]
    exact ⟨misfit, rfl⟩

end LinearSweep.WordList
