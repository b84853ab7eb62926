import LinearSweep.Proofs.Defaults
import LinearSweep.Proofs.Loading
import LinearSweep.Proofs.Reports
import LinearSweep.Proofs.WordChecks

/-!
# Statuses

The checks of a run in the order in which they are made, each with the status that its failure leads
to.  The settings and the options come first, then the content of the input, and the file for the
result comes last.  That the count can be counted to is checked as well, and that the result can be
encoded, although neither is part of the description of the command.  `respond_follows_checks` says
that these are all the checks there are, and that they are made in this order.
-/

namespace LinearSweep.Command

open Numeral WordList

/-! ## Checks -/

/-- A text is a number between zero and `upper`. -/
def IsNumber (upper : Int) (text : RawText) : Prop :=
  ∃ number, Address.ofRaw? text = some number ∧ 0 ≤ number ∧ number ≤ upper

def IsTruth (text : RawText) : Prop :=
  ∃ truth, Settings.truth? text = some truth

/-- An empty base address counts as not set. -/
def IsBase (text : RawText) : Prop :=
  text = [] ∨ IsNumber Settings.maxBase text

def settingChecks (environment : Environment) : List (Check Ending) := [
  .ofGiven (environment Settings.baseVariable) IsBase (.exit 1),
  .ofGiven (environment Settings.bytesVariable) IsTruth (.exit 1),
  .ofGiven (environment Settings.endVariable) IsTruth (.exit 1),
  .ofGiven (environment Settings.packedVariable) IsTruth (.exit 1)]

def optionChecks (options : Options) : List (Check Ending) := [
  .ofGiven options.address (IsNumber Settings.maxBase) (.exit 2),
  .ofGiven options.start (IsNumber maxOffset) (.exit 2),
  .ofGiven options.stop (IsNumber maxOffset) (.exit 2)]

/-- Whether the input is taken for a word list. -/
def packedInEffect (environment : Environment) (options : Options) : Bool :=
  (environment Settings.packedVariable).any (Settings.truth? · = some true)
    || options.packed

/-- The image must not be empty. -/
def filledCheck (packed : Bool) (content : List UInt8) : Check Ending where
  fails := if packed then fileTokens? content = some [] else content = []
  ending := .exit 2

/-- The count must be one that can be counted to. -/
def countCheck (count : Option Nat) : Check Ending :=
  .ofGiven count (fun n => (n : Int) ≤ maxOffset) .brokenOff

/-- The file for the result must be one that can be written. -/
def outputCheck (disk : Disk) (output : Option RawText) : Check Ending :=
  .ofGiven output (fun path => ∃ location, disk.place (Path.shown path) = .ok location) (.exit 2)

/-- The result must be one that can be encoded. -/
def encodingCheck (options : Options) : Check Ending where
  fails := options.isEncodable = false
  ending := .brokenOff

/-- The checks of a run on a file, in order. -/
def checks (environment : Environment) (disk : Disk) (options : Options) (content : List UInt8) :
    List (Check Ending) :=
  let packed := packedInEffect environment options
  settingChecks environment ++ optionChecks options
    ++ (inputChecks packed tokenChecks wordChecks content
      ++ [filledCheck packed content, countCheck options.count, outputCheck disk options.output,
        encodingCheck options])

/-- The checks that a run is described by. -/
def describedChecks (environment : Environment) (disk : Disk) (options : Options)
    (content : List UInt8) : List (Check Ending) :=
  let packed := packedInEffect environment options
  settingChecks environment ++ optionChecks options
    ++ (inputChecks packed (fun token _ => [literalCheck token]) (fun token _ => [rangeCheck token])
        content
      ++ [filledCheck packed content, outputCheck disk options.output])

/-! ## Settings -/

theorem follows_readBase (environment : Environment) :
    Follows (fun _ => Ending.exit 1)
      [.ofGiven (environment Settings.baseVariable) IsBase (.exit 1)]
      (Settings.readBase environment) := by
  unfold Settings.readBase
  cases environment Settings.baseVariable with
  | none => exact .passes Check.not_fails_none .nil
  | some value =>
    split
    next none => cases none
    next empty =>
      cases empty
      exact .passes (Check.not_fails_of_valid (.inl rfl)) .nil
    next text filled same =>
      cases same
      split
      next unread =>
        refine .fails (Check.fails_of_invalid ?_)
        rintro (rfl | ⟨base, read, -⟩)
        · exact filled rfl
        · cases unread.symm.trans read
      next base read =>
        split
        next within =>
          exact .passes (Check.not_fails_of_valid (.inr ⟨base, read, within⟩)) .nil
        next outside =>
          refine .fails (Check.fails_of_invalid ?_)
          rintro (rfl | ⟨other, same, within⟩)
          · exact filled rfl
          · cases read.symm.trans same
            exact outside within

theorem follows_readTruth (environment : Environment) (name : String) (default : Bool) :
    Follows (fun _ => Ending.exit 1) [.ofGiven (environment name) IsTruth (.exit 1)]
      (Settings.readTruth environment name default) := by
  unfold Settings.readTruth
  cases environment name with
  | none => exact .passes Check.not_fails_none .nil
  | some value =>
    dsimp only
    split
    next truth read => exact .passes (Check.not_fails_of_valid ⟨truth, read⟩) .nil
    next unread =>
      refine .fails (Check.fails_of_invalid ?_)
      rintro ⟨truth, read⟩
      cases unread.symm.trans read

theorem follows_settings (environment : Environment) :
    Follows (fun _ => Ending.exit 1) (settingChecks environment) (Settings.read environment) := by
  refine (follows_readBase environment).bind fun base _ => ?_
  refine (follows_readTruth environment Settings.bytesVariable true).bind fun showBytes _ => ?_
  refine (follows_readTruth environment Settings.endVariable true).bind fun marksEnd _ => ?_
  refine (follows_readTruth environment Settings.packedVariable false).bind fun packed _ => ?_
  exact .nil

/-! ## Options -/

theorem decimal_of_small {n : Int} (small : n.natAbs < 10 ^ 20) : decimal n = .ok (toString n) := by
  have bound : 10 ^ 20 ≤ decimalBound := by decide +kernel
  exact decimal_eq_ok_iff.mpr ⟨Nat.lt_of_lt_of_le small bound, rfl⟩

theorem ending_number {upper : Int} {text : RawText} {fault : NumberFault} (name : String)
    (small : upper.natAbs < 10 ^ 20) (faulty : readNumber upper text = .error fault) :
    (Failure.number name fault).ending = .exit 2 := by
  have worded : ∃ detail, fault.detail = .ok detail := by
    unfold readNumber at faulty
    split at faulty
    · cases faulty
      exact ⟨_, rfl⟩
    · split at faulty
      · cases faulty
      · cases faulty
        rw [NumberFault.detail, decimal_of_small small]
        exact ⟨_, rfl⟩
  obtain ⟨detail, worded⟩ := worded
  simp only [Failure.ending, Failure.breaksOff, Failure.status, Failure.complaint?, worded]
  rfl

theorem isNumber_iff {upper : Int} {text : RawText} :
    IsNumber upper text ↔ ∃ number, readNumber upper text = .ok number := by
  unfold IsNumber readNumber
  constructor
  · rintro ⟨number, read, within⟩
    rw [read]
    exact ⟨number, if_pos within⟩
  · rintro ⟨number, read⟩
    split at read
    · cases read
    next other same =>
      split at read
      next within =>
        cases read
        exact ⟨number, same, within⟩
      next => cases read

theorem follows_readNumberOption {upper : Int} (small : upper.natAbs < 10 ^ 20) (name : String)
    (text : Option RawText) :
    Follows Failure.ending [.ofGiven text (IsNumber upper) (.exit 2)]
      (readNumberOption name upper text) := by
  unfold readNumberOption
  cases text with
  | none => exact .passes Check.not_fails_none .nil
  | some value =>
    rw [Option.mapM_some]
    refine Follows.map ?_ some
    cases read : readNumber upper value with
    | ok number =>
      exact .passes (Check.not_fails_of_valid (isNumber_iff.mpr ⟨number, read⟩)) .nil
    | error fault =>
      rw [Except.mapError, Follows, ending_number name small read]
      refine .fails (Check.fails_of_invalid fun valid => ?_)
      obtain ⟨number, same⟩ := isNumber_iff.mp valid
      cases read.symm.trans same

theorem follows_readJob (environment : Environment) (options : Options) :
    Follows Failure.ending (settingChecks environment ++ optionChecks options)
      (readJob environment options) := by
  have settings : Follows Failure.ending (settingChecks environment)
      ((Settings.read environment).mapError .setting) :=
    .mapError (follows_settings environment)
  refine settings.bind fun settings _ => ?_
  refine (follows_readNumberOption (by decide) "--address" options.address).bind fun base _ => ?_
  refine (follows_readNumberOption (by decide) "--start" options.start).bind fun start _ => ?_
  have small : maxOffset.natAbs < 10 ^ 20 := by decide
  refine (follows_readNumberOption small "--end" options.stop).bind fun stop _ => ?_
  exact .nil

theorem packed_of_readTruth {environment : Environment} {packed : Bool}
    (set : Settings.readTruth environment Settings.packedVariable false = .ok packed) :
    packed = (environment Settings.packedVariable).any (Settings.truth? · = some true) := by
  unfold Settings.readTruth at set
  split at set
  next unset =>
    cases set
    rw [unset]
    rfl
  next value given =>
    split at set
    next truth read =>
      cases set
      rw [given]
      simp [read]
    next => cases set

theorem packed_of_readJob {environment : Environment} {options : Options} {job : Job}
    (asked : readJob environment options = .ok job) :
    job.settings.packed = packedInEffect environment options := by
  obtain ⟨settings, set, asked⟩ := bind_eq_ok_iff.mp asked
  obtain ⟨base, -, asked⟩ := bind_eq_ok_iff.mp asked
  obtain ⟨start, -, asked⟩ := bind_eq_ok_iff.mp asked
  obtain ⟨stop, -, asked⟩ := bind_eq_ok_iff.mp asked
  cases asked
  -- Nothing but the variable and the switch decides on it, whatever else was read.
  rw [mapError_eq_ok_iff, Settings.read_eq_ok_iff] at set
  rw [packedInEffect, ← packed_of_readTruth set.2.2.2]

/-! ## Runs -/

theorem result_load {disk : Disk} {path : RawText} {content : List UInt8}
    (readable : disk.read (Path.shown path) = .ok content) (packed : Bool) :
    (load disk path packed).result =
      if packed then (unpackFile content).map Prod.snd else .ok content := by
  cases packed with
  | false => simp [load, readable, Except.mapError]
  | true =>
    simp only [load, readable, Except.mapError, bind, Except.bind, if_true]
    cases unpackFile content <;> rfl

theorem follows_load {disk : Disk} {path : RawText} {content : List UInt8}
    (readable : disk.read (Path.shown path) = .ok content) (packed : Bool) :
    Follows Failure.ending (inputChecks packed tokenChecks wordChecks content)
      (load disk path packed).result := by
  rw [result_load readable]
  cases packed with
  | false => exact .nil
  | true => exact (follows_unpackFile content).map Prod.snd

theorem eq_nil_of_load {disk : Disk} {path : RawText} {content image : List UInt8} {packed : Bool}
    (readable : disk.read (Path.shown path) = .ok content)
    (loaded : (load disk path packed).result = .ok image) :
    image = [] ↔ (filledCheck packed content).fails := by
  rw [result_load readable] at loaded
  cases packed with
  | false =>
    cases loaded
    exact Iff.rfl
  | true =>
    cases unpacked : unpackFile content with
    | error failure =>
      rw [unpacked] at loaded
      cases loaded
    | ok file =>
      rw [unpacked] at loaded
      cases loaded
      exact eq_nil_of_unpackFile unpacked

theorem decides_deliver {options : Options} {result : Option String}
    (encodes : result.isSome = options.isEncodable) (disk : Disk) (notes : List Note)
    (total : Nat) :
    Decides [outputCheck disk options.output, encodingCheck options]
      ((deliver disk options.output notes result total).failure.map Failure.ending) := by
  have encoding : Decides [encodingCheck options]
      (if result.isSome then none else some .brokenOff) := by
    rw [encodes]
    cases encodable : options.isEncodable with
    | false => exact .fails encodable
    | true => exact .passes (fun broken => Bool.noConfusion (encodable.symm.trans broken)) .nil
  cases options.output with
  | none =>
    refine .passes Check.not_fails_none ?_
    cases result <;> exact encoding
  | some path =>
    cases placed : disk.place (Path.shown path) with
    | error fault =>
      rw [deliver_of_misplaced placed]
      refine .fails (Check.fails_of_invalid ?_)
      rintro ⟨location, possible⟩
      cases placed.symm.trans possible
    | ok location =>
      refine .passes (Check.not_fails_of_valid ⟨location, placed⟩) ?_
      cases result with
      | none =>
        rw [deliver_none_of_placed placed]
        exact encoding
      | some text =>
        rw [deliver_of_placed placed]
        exact encoding

theorem countCheck_fails_iff {count : Option Nat} :
    (countCheck count).fails ↔ maxOffset < (count.getD 0 : Nat) := by
  cases count with
  | none => exact iff_of_false Check.not_fails_none (by decide)
  | some n => simp [countCheck, Check.ofGiven]

theorem decides_runOn {options : Options} {content image : List UInt8} {packed : Bool}
    (empty : image = [] ↔ (filledCheck packed content).fails) (disk : Disk) (job : Job)
    (notes : List Note) :
    Decides [filledCheck packed content, countCheck options.count,
        outputCheck disk options.output, encodingCheck options]
      ((runOn disk options job notes image).failure.map Failure.ending) := by
  rw [← List.isEmpty_iff] at empty
  unfold runOn
  split
  next none => exact .fails (empty.mp none)
  next some =>
    refine .passes (fun none => some (empty.mpr none)) ?_
    dsimp only
    split
    next uncountable => exact .fails (countCheck_fails_iff.mpr uncountable)
    next countable =>
      exact .passes (fun uncountable => countable (countCheck_fails_iff.mp uncountable))
        (decides_deliver (isSome_resultText? ..) disk _ _)

/-- A run makes the checks, in their order. -/
theorem decides_run {disk : Disk} {options : Options} {content : List UInt8}
    (readable : disk.read (Path.shown options.input) = .ok content) (environment : Environment) :
    Decides (checks environment disk options content)
      ((run environment disk options).failure.map Failure.ending) := by
  have asks := follows_readJob environment options
  unfold run checks
  cases asked : readJob environment options with
  | error failure =>
    rw [asked] at asks
    exact Decides.append_of_some asks
  | ok job =>
    rw [asked] at asks
    -- The checks of the settings and the options are over, and the image is loaded next.
    refine Decides.append_of_none asks ?_
    have loads := follows_load readable job.settings.packed
    dsimp only
    rw [← packed_of_readJob asked]
    cases loaded : (load disk options.input job.settings.packed).result with
    | error failure =>
      rw [loaded] at loads
      exact Decides.append_of_some loads
    | ok image =>
      rw [loaded] at loads
      exact Decides.append_of_none loads
        (decides_runOn (eq_nil_of_load readable loaded) disk job _)

theorem ending_response (verbose : Bool) (outcome : Outcome) :
    (outcome.response verbose).ending =
      (outcome.failure.map Failure.ending).getD (.exit 0) := by
  cases failed : outcome.failure with
  | none => simp [Outcome.response, Response.ending, Outcome.status, failed]
  | some failure =>
    simp [Outcome.response, Response.ending, Outcome.status, Failure.ending, failed]

/-- If all numerals are short, the count can be counted to and the result can be encoded, the checks
that the command is described by decide. -/
theorem decides_describedChecks {environment : Environment} {disk : Disk} {options : Options}
    {content : List UInt8} {ending : Option Ending}
    (short : packedInEffect environment options = true → HasShortNumerals content)
    (countable : ∀ count ∈ options.count, (count : Int) ≤ maxOffset)
    (encodable : options.isEncodable = true)
    (decides : Decides (checks environment disk options content) ending) :
    Decides (describedChecks environment disk options content) ending := by
  have small : ¬ (countCheck options.count).fails := by
    rintro ⟨count, given, large⟩
    exact large (countable count given)
  have whole : ¬ (encodingCheck options).fails := fun broken =>
    Bool.noConfusion (encodable.symm.trans broken)
  -- Two checks are dropped: the one behind that for an empty image, and the last one.
  refine Decides.append_mono id
    (Decides.append_mono (decides_inputChecks short) fun later => ?_) decides
  cases later with
  | fails failed => exact .fails failed
  | passes filled later =>
    refine .passes filled ?_
    cases later with
    | fails failed => exact absurd failed small
    | passes _ later =>
      cases later with
      | fails failed => exact .fails failed
      | passes placed later =>
        cases later with
        | fails failed => exact absurd failed whole
        | passes _ later => exact .passes placed later

theorem ending_respond {environment : Environment} {disk : Disk} {arguments : List RawText}
    {options : Options} {content : List UInt8} {ending : Option Ending}
    (accepted : readArguments disk arguments = .ok options)
    (readable : disk.read (Path.shown options.input) = .ok content)
    (decides : Decides (checks environment disk options content) ending) :
    (respond environment disk arguments).ending = ending.getD (.exit 0) := by
  rw [respond, accepted, decides.unique (decides_run readable environment)]
  exact ending_response options.verbose _

/-- The checks of a run decide how it ends, and the status is zero if all of them pass.  If all
numerals are short, the count can be counted to and the result can be encoded, these are the checks
that the command is described by: then it ends neither with a status of three nor without a word. -/
theorem respond_follows_checks {disk : Disk} {arguments : List RawText} {options : Options}
    {content : List UInt8} (environment : Environment)
    (accepted : readArguments disk arguments = .ok options)
    (readable : disk.read (Path.shown options.input) = .ok content) :
    ∃ ending, (respond environment disk arguments).ending = ending.getD (.exit 0)
      ∧ Decides (checks environment disk options content) ending
      ∧ ((packedInEffect environment options = true → HasShortNumerals content) →
          (∀ count ∈ options.count, (count : Int) ≤ maxOffset) → options.isEncodable = true →
          Decides (describedChecks environment disk options content) ending) := by
  have decides := decides_run readable environment
  exact ⟨_, ending_respond accepted readable decides, decides, fun short countable encodable =>
    decides_describedChecks short countable encodable decides⟩

/-- Without variables and numbers the other checks decide. -/
theorem decides_unset {input : RawText} {output : Option RawText} {count : Option Nat}
    {packed : Bool} {others : List (Check Ending)} {ending : Option Ending}
    (decides : Decides others ending) :
    Decides
      (settingChecks (fun _ => none) ++ optionChecks { input, output, count, packed } ++ others)
      ending := by
  have unset {valid : RawText → Prop} {ending : Ending} :
      ¬ (Check.ofGiven none valid ending).fails := Check.not_fails_none
  refine .passes unset (.passes unset (.passes unset (.passes unset ?_)))
  exact .passes unset (.passes unset (.passes unset decides))

/-- A file for the result that cannot be written is found out last. -/
theorem respond_without_directory :
    let disk : Disk := { files := [(["rom.bin"], [0xEA])] }
    let options : Options := { input := "rom.bin", output := some "out/rom.asm" }
    readArguments disk ["rom.bin", "--output", "out/rom.asm"] = .ok options
    ∧ disk.read (Path.shown options.input) = .ok [0xEA]
    ∧ Decides (describedChecks (fun _ => none) disk options [0xEA]) (some (.exit 2))
    ∧ (respond (fun _ => none) disk ["rom.bin", "--output", "out/rom.asm"]).ending = .exit 2 := by
  intro disk options
  have accepted : readArguments disk ["rom.bin", "--output", "out/rom.asm"] = .ok options := rfl
  have readable : disk.read (Path.shown options.input) = .ok [0xEA] := rfl
  have absent : disk.place (Path.shown "out/rom.asm") = .error .absent := rfl
  have impossible : ¬ ∃ location, disk.place (Path.shown "out/rom.asm") = .ok location := by
    rw [absent]
    rintro ⟨location, placed⟩
    cases placed
  have expected : Decides (describedChecks (fun _ => none) disk options [0xEA])
      (some (.exit 2)) :=
    decides_unset (.passes (List.cons_ne_nil _ _) (.fails (Check.fails_of_invalid impossible)))
  obtain ⟨ending, ends, -, decides⟩ := respond_follows_checks (fun _ => none) accepted readable
  have raw : packedInEffect (fun _ => none) options = true → HasShortNumerals [0xEA] :=
    fun packed => absurd packed Bool.false_ne_true
  have small : ∀ count ∈ options.count, (count : Int) ≤ maxOffset :=
    fun count given => absurd given (Option.not_mem_none count)
  rw [(decides raw small (by decide)).unique expected] at ends
  exact ⟨accepted, readable, expected, ends⟩

/-! ## Endings beyond the description -/

/-- A count that passes every check that the command is described by may still break it off. -/
theorem respond_breaks_off_at_large_count :
    let disk : Disk := { files := [(["rom.bin"], [0xEA])] }
    let options : Options := { input := "rom.bin", count := some 9223372036854775808 }
    readArguments disk ["rom.bin", "--count", "9223372036854775808"] = .ok options
    ∧ disk.read (Path.shown options.input) = .ok [0xEA]
    ∧ Decides (describedChecks (fun _ => none) disk options [0xEA]) none
    ∧ (respond (fun _ => none) disk ["rom.bin", "--count", "9223372036854775808"]).ending =
        .brokenOff := by
  intro disk options
  have accepted : readArguments disk ["rom.bin", "--count", "9223372036854775808"] =
      .ok options := rfl
  have readable : disk.read (Path.shown options.input) = .ok [0xEA] := rfl
  have filled : ¬ (filledCheck false [0xEA]).fails := List.cons_ne_nil _ _
  have expected : Decides (describedChecks (fun _ => none) disk options [0xEA]) none :=
    decides_unset (.passes filled (.passes Check.not_fails_none .nil))
  have actual : Decides (checks (fun _ => none) disk options [0xEA]) (some .brokenOff) :=
    decides_unset (.passes filled (.fails (Check.fails_of_invalid (by decide))))
  exact ⟨accepted, readable, expected, ending_respond accepted readable actual⟩

theorem fileTokens?_text (s : Spelling) :
    fileTokens? (String.ofList s.text).toUTF8.toList = some [s.text] := by
  have kept : unifyLineEnds s.text = s.text :=
    unifyLineEnds_of_not_mem fun member => absurd (s.isWordChar_of_mem member) (by decide)
  rw [fileTokens?, toByteArray_toList, fromUTF8?_toUTF8, Option.map_some, String.toList_ofList,
    kept, s.tokens_text]

/-- The checks of a file whose only token is a literal. -/
theorem inputChecks_text (tokenChecks wordChecks : List Char → Nat → List (Check Ending))
    (s : Spelling) :
    inputChecks true tokenChecks wordChecks (String.ofList s.text).toUTF8.toList =
      tokenChecks s.text 0 ++ wordChecks s.text 0 := by
  rw [inputChecks, if_pos rfl, fileTokens?_text]
  simp

theorem decides_text (s : Spelling) :
    Decides [literalCheck s.text, rangeCheck s.text]
      (if fits s.value then none else some (.exit 1)) := by
  refine .passes (fun none => none s rfl) ?_
  split
  next within =>
    refine .passes (fun fails => ?_) .nil
    rw [fails_rangeCheck_iff, within] at fails
    cases fails
  next outside => exact .fails (fails_rangeCheck_iff.mpr (eq_false_of_ne_true outside))

theorem fits_of_unwritable {number : Int} (unwritten : decimalBound ≤ number.natAbs) :
    fits number = false := by
  have large : 0x80000000 < decimalBound := by decide +kernel
  rw [fits, Bool.and_eq_false_iff, decide_eq_false_iff_not, decide_eq_false_iff_not, minWord,
    maxWord]
  omega

theorem decides_long_text {s : Spelling}
    (long : s.isLong = true ∨ decimalBound ≤ s.value.natAbs) :
    Decides (tokenChecks s.text 0 ++ wordChecks s.text 0) (some (.exit 3)) := by
  have clean : dropLineFeed s.text = s.text := by
    have member : s.text ∈ tokens s.text := by
      rw [s.tokens_text]
      exact List.mem_singleton_self s.text
    exact dropLineFeed_of_mem_tokens member
  have reads := follows_readWord clean 0
  rw [readWord_of_spelling clean.symm] at reads
  split at reads
  next => exact Decides.append_of_some reads
  next short =>
    have unwritten := long.resolve_left short
    have verdict := decides_of_not_fits (fits_of_unwritable unwritten) 0
    rw [ofDefect_outOfRange, if_neg fun both => absurd both.1 (Nat.not_lt.mpr unwritten)] at verdict
    exact Decides.append_of_none reads verdict

/-- A literal that needs too long a decimal numeral, to be read or to be reported, makes the command
fail with a status that no check has that it is described by. -/
theorem respond_fails_at_long_numeral {s : Spelling}
    (long : s.isLong = true ∨ decimalBound ≤ s.value.natAbs) :
    let content := (String.ofList s.text).toUTF8.toList
    let disk : Disk := { files := [(["rom.txt"], content)] }
    let options : Options := { input := "rom.txt", packed := true }
    readArguments disk ["rom.txt", "--packed"] = .ok options
    ∧ disk.read (Path.shown options.input) = .ok content
    ∧ Decides (describedChecks (fun _ => none) disk options content)
        (if fits s.value then none else some (.exit 1))
    ∧ (respond (fun _ => none) disk ["rom.txt", "--packed"]).ending = .exit 3 := by
  intro content disk options
  have accepted : readArguments disk ["rom.txt", "--packed"] = .ok options := rfl
  have readable : disk.read (Path.shown options.input) = .ok content := rfl
  have packed : packedInEffect (fun _ => none) options = true := rfl
  have filled : ¬ (filledCheck true content).fails := by
    intro empty
    cases (fileTokens?_text s).symm.trans empty
  have expected : Decides (describedChecks (fun _ => none) disk options content)
      (if fits s.value then none else some (.exit 1)) := by
    refine decides_unset ?_
    rw [packed, inputChecks_text]
    exact (decides_text s).append_passing (.passes filled (.passes Check.not_fails_none .nil))
  have actual : Decides (checks (fun _ => none) disk options content) (some (.exit 3)) := by
    refine decides_unset ?_
    rw [packed, inputChecks_text]
    exact (decides_long_text long).append_of_some
  exact ⟨accepted, readable, expected, ending_respond accepted readable actual⟩

/-- A one with a long row of hexadecimal zeros behind it is no word, and too large to be reported. -/
theorem respond_fails_at_long_hexadecimal :
    let text := ['0', 'x', '1'] ++ List.replicate 3600 '0'
    let content := (String.ofList text).toUTF8.toList
    let disk : Disk := { files := [(["rom.txt"], content)] }
    let options : Options := { input := "rom.txt", packed := true }
    readArguments disk ["rom.txt", "--packed"] = .ok options
    ∧ disk.read (Path.shown options.input) = .ok content
    ∧ Decides (describedChecks (fun _ => none) disk options content) (some (.exit 1))
    ∧ (respond (fun _ => none) disk ["rom.txt", "--packed"]).ending = .exit 3 := by
  intro text
  let s : Spelling := {
    sign := .none
    mark := .lowerX
    digits := '1' :: List.replicate 3600 '0'
    filled := List.cons_ne_nil _ _
    known := by
      intro c member
      obtain rfl | zero := List.mem_cons.mp member
      · rfl
      · rw [(List.mem_replicate.mp zero).2]
        rfl }
  have large : decimalBound ≤ s.value.natAbs := by decide +kernel
  have outside : fits s.value = false := fits_of_unwritable large
  have fails := respond_fails_at_long_numeral (.inr large)
  rw [outside] at fails
  exact fails

end LinearSweep.Command
