import LinearSweep.Command.Response
import LinearSweep.Proofs.Checks
import LinearSweep.Proofs.Joining
import LinearSweep.Proofs.Literals
import Mathlib.Data.List.Forall2

/-!
# Checks of word lists

What is checked of a file that is to hold a word list, with the status that a failure leads to: that
it holds text, that each token is an integer literal, and then that each of them writes a word.  The
decimal numerals that have to be read or written on the way must be short as well, which is no part
of the description of the command.  `follows_unpackFile` says that these are the checks that
unpacking makes, and `decides_inputChecks` that the others are enough if all numerals are short.
-/

namespace LinearSweep.Command

open Numeral WordList

/-! ## Endings -/

/-- How a run ends. -/
inductive Ending where
  | exit (status : Nat)
  | brokenOff
  deriving DecidableEq, Repr

def Response.ending (response : Response) : Ending :=
  if response.brokenOff then .brokenOff else .exit response.status

def Failure.ending (failure : Failure) : Ending :=
  if failure.breaksOff then .brokenOff else .exit failure.status

/-! ## Checks -/

/-- A token must be an integer literal. -/
def literalCheck (token : List Char) : Check Ending where
  fails := ∀ s : Spelling, s.text ≠ token
  ending := .exit 1

/-- A literal must write a word. -/
def rangeCheck (token : List Char) : Check Ending where
  fails := ∃ s : Spelling, s.text = token ∧ fits s.value = false
  ending := .exit 1

/-- What is checked of a token.  The index of a token that is no literal is reported, so it must
have a decimal numeral; and a decimal literal must not be too long to be read. -/
def tokenChecks (token : List Char) (i : Nat) : List (Check Ending) := [
  { fails := (literalCheck token).fails ∧ i < decimalBound, ending := .exit 1 },
  { fails := (literalCheck token).fails, ending := .exit 3 },
  { fails := ∃ s : Spelling, s.text = token ∧ s.isLong, ending := .exit 3 }]

/-- What is checked of a literal.  The value of one that writes no word is reported with its index,
so both must have decimal numerals. -/
def wordChecks (token : List Char) (i : Nat) : List (Check Ending) := [
  { fails := ∃ s : Spelling, s.text = token ∧ fits s.value = false
      ∧ s.value.natAbs < decimalBound ∧ i < decimalBound
    ending := .exit 1 },
  { fails := (rangeCheck token).fails, ending := .exit 3 }]

/-- The tokens of a file that holds text. -/
def fileTokens? (content : List UInt8) : Option (List (List Char)) :=
  (String.fromUTF8? content.toByteArray).map fun text => tokens (unifyLineEnds text.toList)

/-- What is checked of the content of a file.  All tokens are checked before any word is. -/
def inputChecks (packed : Bool) (tokenChecks wordChecks : List Char → Nat → List (Check Ending))
    (content : List UInt8) : List (Check Ending) :=
  if packed then
    match fileTokens? content with
    | none => [{ fails := True, ending := .exit 1 }]
    | some tokens =>
      tokens.zipIdx.flatMap (fun (token, i) => tokenChecks token i)
        ++ tokens.zipIdx.flatMap (fun (token, i) => wordChecks token i)
  else []

/-- All decimal numerals in a word list, and in reports of its faults, are short enough to be read
or written. -/
def HasShortNumerals (content : List UInt8) : Prop :=
  ∀ tokens, fileTokens? content = some tokens → ∀ token i, (token, i) ∈ tokens.zipIdx →
    i < decimalBound
      ∧ ∀ s : Spelling, s.text = token → s.isLong = false ∧ s.value.natAbs < decimalBound

/-! ## Endings of faults -/

/-- A defect that can be worded is one of the image. -/
theorem ending_defect {defect : Defect} (worded : Fault.ofDefect defect = .defect defect) :
    (Failure.packed (.defect defect)).ending = .exit 1 := by
  unfold Fault.ofDefect at worded
  split at worded
  next text reported =>
    simp only [Failure.ending, Failure.breaksOff, Failure.status, Failure.complaint?,
      Failure.complaintOfPacked, reported]
    rfl
  next => cases worded

theorem ending_numeral (error : NumeralError) :
    (Failure.packed (.numeral error)).ending = .exit 3 :=
  rfl

theorem ofDefect_outOfRange (value : Int) (i : Nat) :
    Fault.ofDefect (.outOfRange value i) =
      if value.natAbs < decimalBound ∧ i < decimalBound then .defect (.outOfRange value i)
      else .numeral .tooLong := by
  have number : decimal value =
      if value.natAbs < decimalBound then .ok (toString value) else .error .tooLong := rfl
  have position : decimal i =
      if i < decimalBound then .ok (toString (i : Int)) else .error .tooLong := rfl
  by_cases short : value.natAbs < decimalBound
  · rw [if_pos short] at number
    by_cases near : i < decimalBound
    · rw [if_pos near] at position
      rw [if_pos ⟨short, near⟩]
      simp only [Fault.ofDefect, Defect.report, number, pure, Except.pure, bind, Except.bind,
        Report.message, position]
    · rw [if_neg near] at position
      rw [if_neg fun both => near both.2]
      simp only [Fault.ofDefect, Defect.report, number, pure, Except.pure, bind, Except.bind,
        Report.message, position]
  · rw [if_neg short] at number
    rw [if_neg fun both => short both.1]
    simp only [Fault.ofDefect, Defect.report, number, bind, Except.bind]

/-! ## Unpacking -/

theorem follows_readWord {token : List Char} (clean : dropLineFeed token = token) (i : Nat) :
    Follows (fun fault => (Failure.packed fault).ending) (tokenChecks token i)
      (readWord token (some (i : Int))) := by
  by_cases spelled : ∃ s : Spelling, s.text = token
  · obtain ⟨s, spelled⟩ := spelled
    have literal : ¬ ∀ s : Spelling, s.text ≠ token := fun none => none s spelled
    rw [readWord_of_spelling (spelled.trans clean.symm)]
    split
    next long =>
      exact .passes (fun none => literal none.1) (.passes literal (.fails ⟨s, spelled, long⟩))
    next short =>
      refine .passes (fun none => literal none.1) (.passes literal (.passes ?_ .nil))
      rintro ⟨t, same, long⟩
      exact short (Spelling.isLong_eq_of_text_eq (spelled.trans same.symm) ▸ long)
  · have unspelled := not_exists.mp spelled
    have unspelledClean : ∀ s : Spelling, s.text ≠ dropLineFeed token := by rwa [clean]
    -- How the defect is reported depends on whether its position can be written.
    have worded := ofDefect_notAWord token i
    rw [readWord_of_not_spelled unspelledClean]
    change Decides _ (some (Failure.packed (.ofDefect _)).ending)
    by_cases near : i < decimalBound
    · rw [if_pos near] at worded
      rw [worded, ending_defect worded]
      exact .fails ⟨unspelled, near⟩
    · rw [if_neg near] at worded
      rw [worded, ending_numeral]
      exact .passes (fun far => near far.2) (.fails unspelled)

theorem fails_rangeCheck_iff {s : Spelling} : (rangeCheck s.text).fails ↔ fits s.value = false := by
  refine ⟨?_, fun outside => ⟨s, rfl, outside⟩⟩
  -- Another spelling of the same token writes the same number.
  rintro ⟨t, same, outside⟩
  rwa [← Spelling.value_eq_of_text_eq same]

theorem decides_of_fits {s : Spelling} (within : fits s.value = true) (i : Nat) :
    Decides (wordChecks s.text i) none := by
  have passes : ¬ (rangeCheck s.text).fails := by
    rw [fails_rangeCheck_iff, within]
    exact Bool.noConfusion
  refine .passes ?_ (.passes passes .nil)
  rintro ⟨t, same, outside, -⟩
  exact passes ⟨t, same, outside⟩

theorem decides_of_not_fits {s : Spelling} (outside : fits s.value = false) (i : Nat) :
    Decides (wordChecks s.text i)
      (some (Failure.packed (.ofDefect (.outOfRange s.value i))).ending) := by
  have worded := ofDefect_outOfRange s.value i
  by_cases short : s.value.natAbs < decimalBound ∧ i < decimalBound
  · rw [if_pos short] at worded
    rw [worded, ending_defect worded]
    exact .fails ⟨s, rfl, outside, short⟩
  · rw [if_neg short] at worded
    rw [worded, ending_numeral]
    refine .passes ?_ (.fails ⟨s, rfl, outside⟩)
    rintro ⟨t, same, -, other⟩
    rw [Spelling.value_eq_of_text_eq same] at other
    exact short other

/-- Tokens that were read are checked as words, from an index on. -/
theorem decides_words {tokens : List (List Char)} {words : List Int}
    (spells : List.Forall₂ Spells tokens words) (first : Nat) :
    Decides ((tokens.zipIdx first).flatMap fun (token, i) => wordChecks token i)
      (((words.zipIdx first).find? fun (word, _) => !fits word).map
        fun (word, i) => (Failure.packed (.ofDefect (.outOfRange word i))).ending) := by
  induction spells generalizing first with
  | nil => exact .nil
  | cons spells _ ih =>
    obtain ⟨s, rfl, -, rfl⟩ := spells
    rw [List.zipIdx_cons, List.zipIdx_cons, List.flatMap_cons, List.find?_cons]
    dsimp only
    cases within : fits s.value with
    | true => exact (decides_of_fits within first).append_of_none (ih (first + 1))
    | false => exact (decides_of_not_fits within first).append_of_some

theorem follows_unpack {tokens : List (List Char)} {words : List Int}
    (spells : List.Forall₂ Spells tokens words) :
    Follows (fun fault => (Failure.packed fault).ending)
      (tokens.zipIdx.flatMap fun (token, i) => wordChecks token i) (unpack words) := by
  have decides := decides_words spells 0
  unfold unpack
  split
  next word i found =>
    rw [found] at decides
    exact decides
  next found =>
    rw [found] at decides
    exact decides

/-- What was read from tokens is what they spell. -/
theorem spells_of_readTokens {tokens : List (List Char)} {words : List Int} {first : Nat}
    (clean : ∀ token ∈ tokens, dropLineFeed token = token)
    (read : readTokens first tokens = .ok words) : List.Forall₂ Spells tokens words := by
  induction tokens generalizing first words with
  | nil =>
    cases read
    exact .nil
  | cons token tokens ih =>
    rw [List.forall_mem_cons] at clean
    rw [readTokens_cons, bind_eq_ok_iff] at read
    obtain ⟨word, head, rest⟩ := read
    obtain ⟨others, tail, whole⟩ := bind_eq_ok_iff.mp rest
    cases whole
    rw [readWord_eq_ok_iff, clean.1] at head
    exact .cons head (ih clean.2 tail)

theorem follows_readTokens {tokens : List (List Char)}
    (clean : ∀ token ∈ tokens, dropLineFeed token = token) :
    Follows (fun fault => (Failure.packed fault).ending)
      (tokens.zipIdx.flatMap fun (token, i) => tokenChecks token i) (readTokens 0 tokens) := by
  refine Follows.mapM ?_
  rintro ⟨token, i⟩ member
  exact follows_readWord (clean token (List.fst_mem_of_mem_zipIdx member)) i

/-- A file that holds text is read token by token. -/
theorem readBytes_of_fileTokens? {content : List UInt8} {tokens : List (List Char)}
    (holds : fileTokens? content = some tokens) : readBytes content = readTokens 0 tokens := by
  obtain ⟨text, decoded, rfl⟩ := Option.map_eq_some_iff.mp holds
  rw [readBytes, decoded]
  exact read_eq _

theorem readBytes_of_not_text {content : List UInt8} (unread : fileTokens? content = none) :
    readBytes content = .error (.defect .notText) := by
  rw [readBytes, Option.map_eq_none_iff.mp unread]
  rfl

theorem clean_of_fileTokens? {content : List UInt8} {tokens : List (List Char)}
    (holds : fileTokens? content = some tokens) :
    ∀ token ∈ tokens, dropLineFeed token = token := by
  obtain ⟨text, -, rfl⟩ := Option.map_eq_some_iff.mp holds
  exact fun token member => dropLineFeed_of_mem_tokens member

theorem follows_unpackFile (content : List UInt8) :
    Follows Failure.ending (inputChecks true tokenChecks wordChecks content)
      (unpackFile content) := by
  unfold inputChecks unpackFile
  rw [if_pos rfl]
  cases holds : fileTokens? content with
  | none =>
    rw [readBytes_of_not_text holds]
    exact .fails trivial
  | some tokens =>
    have clean := clean_of_fileTokens? holds
    rw [readBytes_of_fileTokens? holds]
    refine Follows.bind (Follows.mapError (follows_readTokens clean)) fun words read => ?_
    have spells := spells_of_readTokens clean (mapError_eq_ok_iff.mp read)
    have unpacks : Follows Failure.ending _ ((unpack words).mapError .packed) :=
      .mapError (follows_unpack spells)
    exact unpacks.map (words, ·)

theorem eq_nil_of_unpack {words : List Int} {image : List UInt8}
    (unpacked : unpack words = .ok image) : image = [] ↔ words = [] := by
  unfold unpack at unpacked
  split at unpacked
  · cases unpacked
  · cases unpacked
    cases words with
    | nil => exact iff_of_true rfl rfl
    | cons word words => exact iff_of_false (List.cons_ne_nil _ _) (List.cons_ne_nil _ _)

/-- An image of words is empty if there are no words. -/
theorem eq_nil_of_unpackFile {content image : List UInt8} {words : List Int}
    (unpacked : unpackFile content = .ok (words, image)) :
    image = [] ↔ fileTokens? content = some [] := by
  rw [unpackFile, bind_eq_ok_iff] at unpacked
  obtain ⟨others, read, rest⟩ := unpacked
  obtain ⟨bytes, unpack, whole⟩ := bind_eq_ok_iff.mp rest
  cases whole
  rw [mapError_eq_ok_iff] at read unpack
  cases holds : fileTokens? content with
  | none =>
    rw [readBytes_of_not_text holds] at read
    cases read
  | some tokens =>
    rw [readBytes_of_fileTokens? holds] at read
    rw [eq_nil_of_unpack unpack, Option.some_inj, ← List.length_eq_zero_iff,
      length_of_readTokens read, List.length_eq_zero_iff]

/-! ## Short numerals -/

theorem decides_literalCheck {token : List Char} {i : Nat} {ending : Option Ending}
    (near : i < decimalBound) (short : ∀ s : Spelling, s.text = token → s.isLong = false)
    (decides : Decides (tokenChecks token i) ending) : Decides [literalCheck token] ending := by
  cases decides with
  | fails failed => exact .fails failed.1
  | passes reported later =>
    cases later with
    | fails failed => exact absurd ⟨failed, near⟩ reported
    | passes passed later =>
      cases later with
      | fails failed =>
        obtain ⟨s, spelled, long⟩ := failed
        rw [short s spelled] at long
        cases long
      | passes _ later =>
        cases later
        exact .passes passed .nil

theorem decides_rangeCheck {token : List Char} {i : Nat} {ending : Option Ending}
    (near : i < decimalBound)
    (short : ∀ s : Spelling, s.text = token → s.value.natAbs < decimalBound)
    (decides : Decides (wordChecks token i) ending) : Decides [rangeCheck token] ending := by
  cases decides with
  | fails failed =>
    obtain ⟨s, spelled, outside, -⟩ := failed
    exact .fails ⟨s, spelled, outside⟩
  | passes reported later =>
    cases later with
    | fails failed =>
      obtain ⟨s, spelled, outside⟩ := failed
      exact absurd ⟨s, spelled, outside, short s spelled, near⟩ reported
    | passes passed later =>
      cases later
      exact .passes passed .nil

theorem decides_inputChecks {packed : Bool} {content : List UInt8} {ending : Option Ending}
    (short : packed = true → HasShortNumerals content)
    (decides : Decides (inputChecks packed tokenChecks wordChecks content) ending) :
    Decides (inputChecks packed (fun token _ => [literalCheck token])
      (fun token _ => [rangeCheck token]) content) ending := by
  unfold inputChecks at decides ⊢
  cases packed with
  | false => exact decides
  | true =>
    rw [if_pos rfl] at decides ⊢
    cases holds : fileTokens? content with
    | none =>
      rw [holds] at decides
      exact decides
    | some tokens =>
      rw [holds] at decides
      have bound := short rfl tokens holds
      refine Decides.append_mono (Decides.flatMap_mono ?_) (Decides.flatMap_mono ?_) decides
      · rintro ⟨token, i⟩ member ending
        obtain ⟨near, short⟩ := bound token i member
        exact decides_literalCheck near fun s spelled => (short s spelled).1
      · rintro ⟨token, i⟩ member ending
        obtain ⟨near, short⟩ := bound token i member
        exact decides_rangeCheck near fun s spelled => (short s spelled).2

end LinearSweep.Command
