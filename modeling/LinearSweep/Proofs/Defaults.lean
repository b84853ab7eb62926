import LinearSweep.Command.Response
import LinearSweep.Proofs.Addresses
import LinearSweep.Proofs.Checks

/-!
# The environment as a source of defaults

Whatever the environment asks for could have been asked for by options.  `defaults` are the options
that ask for it, as far as a command line does not ask for something else.  They are plain: none of
them halts the command or can be refused, so that the options read from a command line with them in
front are those read without them, with the settings filled in, `readArguments_append`.  A run with
the settings filled in reads the same job without the environment, `run_withDefaults`.
-/

namespace LinearSweep

open Numeral

/-! ## Variables -/

namespace Settings

variable {environment bare : Environment} {settings : Settings}

/-- Settings are read if each of the variables is. -/
theorem read_eq_ok_iff : read environment = .ok settings ↔
    readBase environment = .ok settings.base
      ∧ readTruth environment bytesVariable true = .ok settings.showBytes
      ∧ readTruth environment endVariable true = .ok settings.marksEnd
      ∧ readTruth environment packedVariable false = .ok settings.packed := by
  constructor
  · intro set
    obtain ⟨base, baseRead, set⟩ := bind_eq_ok_iff.mp set
    obtain ⟨showBytes, bytesRead, set⟩ := bind_eq_ok_iff.mp set
    obtain ⟨marksEnd, markRead, set⟩ := bind_eq_ok_iff.mp set
    obtain ⟨packed, packedRead, set⟩ := bind_eq_ok_iff.mp set
    cases set
    exact ⟨baseRead, bytesRead, markRead, packedRead⟩
  · rintro ⟨baseRead, bytesRead, markRead, packedRead⟩
    rw [read, baseRead]
    simp only [bind, Except.bind, bytesRead, markRead, packedRead]
    rfl

theorem read_of_unset (unset : ∀ name, name.startsWith "DISASM6502_" → bare name = none) :
    read bare = .ok {} := by
  rw [read_eq_ok_iff]
  unfold readBase readTruth
  rw [unset baseVariable (by decide +kernel), unset bytesVariable (by decide +kernel),
    unset endVariable (by decide +kernel), unset packedVariable (by decide +kernel)]
  exact ⟨rfl, rfl, rfl, rfl⟩

/-- The base address is shown by four digits. -/
theorem base_of_readBase {base : Int} (set : readBase environment = .ok base) :
    0 ≤ base ∧ base ≤ maxBase := by
  unfold readBase at set
  split at set
  · cases set
    decide
  · cases set
    decide
  · split at set
    · cases set
    · split at set
      · cases set
        assumption
      · cases set

/-- What another base address changes, if every variable can be read. -/
theorem read_update {text : RawText} (set : read environment = .ok settings) :
    read (Function.update environment baseVariable (some text)) =
      (readBase (Function.update environment baseVariable (some text))).map
        fun base => { settings with base } := by
  obtain ⟨-, bytes, mark, packed⟩ := read_eq_ok_iff.mp set
  have kept {name : String} (other : name ≠ baseVariable) (default : Bool) :
      readTruth (Function.update environment baseVariable (some text)) name default =
        readTruth environment name default := by
    rw [readTruth, Function.update_of_ne other]
    rfl
  unfold read
  rw [kept (by decide), kept (by decide), kept (by decide), bytes, mark, packed]
  cases readBase (Function.update environment baseVariable (some text)) <;> rfl

end Settings

namespace Command

/-- A base address is read from the environment as it is read from an option. -/
theorem readBase_update (environment : Environment) {text : RawText} (filled : text ≠ "") :
    Settings.readBase (Function.update environment Settings.baseVariable (some text)) =
      (readNumber Settings.maxBase text).mapError fun
        | .notANumber _ =>
          ⟨Settings.baseVariable, text, "an address (0x/$ hex or decimal)"⟩
        | .outOfRange _ => ⟨Settings.baseVariable, text, "an address in 0x0000-0xFFFF"⟩ := by
  unfold Settings.readBase readNumber
  rw [Function.update_self]
  split
  next none => cases none
  next empty => exact absurd (Option.some.inj empty) filled
  next value _ _ same =>
    cases same
    cases Address.ofRaw? text with
    | none => rfl
    | some base =>
      dsimp only
      split <;> rfl

/-! ## Settings as options -/

/-- Options with the settings in the place of what was not asked for. -/
def Options.withDefaults (settings : Settings) (options : Options) : Options :=
  { options with
    address := options.address.or (some (hexAddress settings.base))
    packed := options.packed || settings.packed
    noBytes := options.noBytes || !settings.showBytes
    noEndMark := options.noEndMark || !settings.marksEnd }

/-- What is to be given for the settings.  An address that was given wins over that of the settings,
and the other settings are not taken back by anything that was given. -/
def defaults (settings : Settings) (address : Option RawText) : List Given :=
  (if address.isNone then [.value .address (hexAddress settings.base)] else [])
    ++ (if settings.packed then [.switch .packed] else [])
    ++ (if !settings.showBytes then [.switch .noBytes] else [])
    ++ (if !settings.marksEnd then [.switch .noEndMark] else [])

/-- The arguments by which an option is given. -/
def Given.arguments : Given → List RawText
  | .switch .packed => ["--packed"]
  | .switch .hexDump => ["--hex"]
  | .switch .noBytes => ["--no-bytes"]
  | .switch .noEndMark => ["--no-end-marker"]
  | .switch .json => ["--json"]
  | .switch .verbose => ["--verbose"]
  | .switch .version => ["--version"]
  | .switch .help => ["--help"]
  | .value .output text => ["--output", text]
  | .value .address text => ["--address", text]
  | .value .start text => ["--start", text]
  | .value .stop text => ["--end", text]
  | .value .count text => ["--count", text]

/-! ## First pass -/

/-- A scan with more options in front. -/
def Scan.behind (given : List Given) (s : Scan) : Scan :=
  { s with options := given ++ s.options }

theorem scan_option {argument : RawText} {given : List Given} {pending : Pending}
    (option : argument ≠ "--" ∧ isOption argument = true)
    (read : readOption argument = .ok (given, pending)) (arguments : List RawText) :
    scan none (argument :: arguments) = (scan pending arguments).map (Scan.behind given) := by
  rw [scan, if_neg option.1, if_pos option.2, read]
  simp only [bind, Except.bind]
  cases scan pending arguments <;> rfl

theorem scan_value (parameter : Parameter) (name text : RawText) (arguments : List RawText) :
    scan (some (parameter, name)) (text :: arguments) =
      (scan none arguments).map (Scan.behind [.value parameter text]) := by
  rw [scan]
  cases scan none arguments <;> rfl

/-- The arguments that give an option are scanned as that option. -/
theorem scan_given (given : Given) (arguments : List RawText) :
    scan none (given.arguments ++ arguments) =
      (scan none arguments).map (Scan.behind [given]) := by
  cases given with
  | switch switch => cases switch <;> exact scan_option (by decide) rfl arguments
  | value parameter text =>
    have front {name : RawText} (option : name ≠ "--" ∧ isOption name = true)
        (read : readOption name = .ok ([], some (parameter, name))) :
        scan none (name :: text :: arguments) =
          (scan none arguments).map (Scan.behind [.value parameter text]) := by
      rw [scan_option option read, scan_value]
      cases scan none arguments <;> rfl
    cases parameter <;> exact front (by decide) rfl

theorem scan_append (given : List Given) (arguments : List RawText) :
    scan none (given.flatMap Given.arguments ++ arguments) =
      (scan none arguments).map (Scan.behind given) := by
  induction given with
  | nil =>
    rw [List.flatMap_nil, List.nil_append]
    cases scan none arguments <;> rfl
  | cons first given ih =>
    rw [List.flatMap_cons, List.append_assoc, scan_given, ih]
    cases scan none arguments <;> rfl

/-! ## Second pass -/

/-- An option that settings can stand for. -/
def Given.IsDefault : Given → Prop
  | .value .address _ | .switch .packed | .switch .noBytes | .switch .noEndMark => True
  | _ => False

theorem isDefault_of_mem_defaults {settings : Settings} {address : Option RawText} {given : Given}
    (member : given ∈ defaults settings address) : given.IsDefault := by
  have only {asked : Bool} {option : Given} (plain : option.IsDefault)
      (member : given ∈ if asked then [option] else []) : given.IsDefault := by
    split at member
    · rwa [List.mem_singleton.mp member]
    · cases member
  simp only [defaults, List.mem_append] at member
  obtain ((asked | asked) | asked) | asked := member <;> exact only (by trivial) asked

namespace Scan

variable {given : List Given} {s : Scan}

theorem operands_behind : (s.behind given).operands = s.operands := rfl

theorem has_behind (switch : Switch) :
    (s.behind given).has switch = (s.has switch || given.contains (.switch switch)) := by
  rw [has, behind, has, List.contains_append, Bool.or_comm]

/-- The value that was given last counts. -/
theorem value?_behind (parameter : Parameter) :
    (s.behind given).value? parameter =
      (s.value? parameter).or (value? { options := given } parameter) := by
  rw [value?, behind, List.reverse_append, List.findSome?_append]
  rfl

theorem value?_behind_of_isDefault (plain : ∀ option ∈ given, option.IsDefault)
    {parameter : Parameter} (other : parameter ≠ .address) :
    (s.behind given).value? parameter = s.value? parameter := by
  have none : value? { options := given } parameter = none := by
    rw [value?, List.findSome?_eq_none_iff]
    intro option member
    have known := plain option (List.mem_reverse.mp member)
    cases option with
    | switch => rfl
    | value parameter' text =>
      cases parameter' with
      | address => exact if_neg other.symm
      | output | start | stop | count => cases known
  rw [value?_behind, none, Option.or_none]

end Scan

theorem halt?_append {given : List Given} (plain : ∀ option ∈ given, option.IsDefault)
    (options : List Given) : halt? (given ++ options) = halt? options := by
  have none : halt? given = none := by
    rw [halt?, List.findSome?_eq_none_iff]
    intro option member
    have known := plain option member
    cases option with
    | value => rfl
    | switch switch =>
      cases switch with
      | version | help => cases known
      | packed | hexDump | noBytes | noEndMark | json | verbose => rfl
  rw [halt?, List.findSome?_append]
  exact congrArg (·.or (halt? options)) none

/-- Nothing can be wrong with a default. -/
theorem forM_checkGiven_behind {given : List Given} {s : Scan} {disk : Disk}
    (plain : ∀ option ∈ given, option.IsDefault) :
    (s.behind given).options.forM (checkGiven disk (s.behind given)) =
      s.options.forM (checkGiven disk s) := by
  have same : checkGiven disk (s.behind given) = checkGiven disk s := by
    funext option
    unfold checkGiven
    rw [Scan.value?_behind_of_isDefault plain (by decide),
      Scan.value?_behind_of_isDefault plain (by decide)]
  -- The options in front are no counts and no outputs, so there is nothing to check in them.
  have passes : forM given (checkGiven disk s) = .ok () := by
    clear same
    induction given with
    | nil => rfl
    | cons option given ih =>
      have first : checkGiven disk s option = .ok () := by
        have known := plain option List.mem_cons_self
        cases option with
        | switch => rfl
        | value parameter text =>
          cases parameter with
          | address => rfl
          | output | start | stop | count => cases known
      rw [List.forM_cons, first]
      exact ih fun option member => plain option (List.mem_cons_of_mem _ member)
  rw [same]
  change forM (given ++ s.options) (checkGiven disk s) = forM s.options (checkGiven disk s)
  rw [List.forM_append, passes]
  rfl

/-- Options in front of others change nothing but the defaults. -/
theorem options?_behind {given : List Given} {s : Scan} {disk : Disk}
    (plain : ∀ option ∈ given, option.IsDefault) :
    (s.behind given).options? disk = (s.options? disk).map fun options => { options with
      address := options.address.or (Scan.value? { options := given } .address)
      packed := options.packed || given.contains (.switch .packed)
      noBytes := options.noBytes || given.contains (.switch .noBytes)
      noEndMark := options.noEndMark || given.contains (.switch .noEndMark) } := by
  have absent {switch : Switch} (other : ¬ Given.IsDefault (.switch switch)) :
      given.contains (.switch switch) = false := by
    rw [← Bool.not_eq_true, List.contains_iff_mem]
    exact fun member => other (plain _ member)
  have hexDump : given.contains (.switch .hexDump) = false := absent id
  have json : given.contains (.switch .json) = false := absent id
  have verbose : given.contains (.switch .verbose) = false := absent id
  unfold Scan.options?
  rw [forM_checkGiven_behind plain]
  simp only [Scan.value?_behind_of_isDefault plain (by decide : Parameter.count ≠ .address),
    Scan.value?_behind_of_isDefault plain (by decide : Parameter.output ≠ .address),
    Scan.value?_behind_of_isDefault plain (by decide : Parameter.start ≠ .address),
    Scan.value?_behind_of_isDefault plain (by decide : Parameter.stop ≠ .address),
    Scan.value?_behind, Scan.has_behind, Scan.operands_behind, hexDump, json, verbose,
    Bool.or_false]
  cases s.options.forM (checkGiven disk s) with
  | error => rfl
  | ok =>
    cases (s.value? .count).mapM readCount with
    | error => rfl
    | ok => cases readInput disk s.operands <;> rfl

theorem contains_defaults (settings : Settings) (address : Option RawText) (switch : Switch) :
    (defaults settings address).contains (.switch switch) = match switch with
      | .packed => settings.packed
      | .noBytes => !settings.showBytes
      | .noEndMark => !settings.marksEnd
      | _ => false := by
  obtain ⟨base, showBytes, marksEnd, packed⟩ := settings
  cases address <;> cases showBytes <;> cases marksEnd <;> cases packed <;> cases switch <;> rfl

theorem or_value?_defaults (settings : Settings) (address : Option RawText) :
    address.or (Scan.value? { options := defaults settings address } .address) =
      address.or (some (hexAddress settings.base)) := by
  obtain ⟨base, showBytes, marksEnd, packed⟩ := settings
  cases address <;> cases showBytes <;> cases marksEnd <;> cases packed <;> rfl

theorem address_of_options? {s : Scan} {disk : Disk} {options : Options}
    (checked : s.options? disk = .ok options) : options.address = s.value? .address := by
  obtain ⟨-, -, checked⟩ := bind_eq_ok_iff.mp checked
  obtain ⟨count, -, checked⟩ := bind_eq_ok_iff.mp checked
  obtain ⟨input, -, checked⟩ := bind_eq_ok_iff.mp checked
  cases checked
  rfl

theorem options?_behind_defaults (settings : Settings) (s : Scan) (disk : Disk) :
    (s.behind (defaults settings (s.value? .address))).options? disk =
      (s.options? disk).map (Options.withDefaults settings) := by
  rw [options?_behind fun _ => isDefault_of_mem_defaults]
  cases checked : s.options? disk with
  | error => rfl
  | ok options =>
    simp only [Except.map, contains_defaults, address_of_options? checked, or_value?_defaults,
      Options.withDefaults]

/-- The address that a command line asks for, as it was typed. -/
def typedAddress? (arguments : List RawText) : Option RawText :=
  match scan none arguments with
  | .ok s => s.value? .address
  | .error _ => none

theorem readArguments_append (settings : Settings) (disk : Disk) (arguments : List RawText) :
    readArguments disk
        ((defaults settings (typedAddress? arguments)).flatMap Given.arguments ++ arguments) =
      (readArguments disk arguments).map (Options.withDefaults settings) := by
  unfold readArguments typedAddress?
  rw [scan_append]
  cases scan none arguments with
  | error => rfl
  | ok s =>
    simp only [Except.map, Except.mapError, bind, Except.bind]
    have halts : halt? (s.behind (defaults settings (s.value? .address))).options =
        halt? s.options :=
      halt?_append (fun _ => isDefault_of_mem_defaults) s.options
    rw [halts, options?_behind_defaults]
    cases halt? s.options with
    | some => rfl
    | none => cases s.options? disk <;> rfl

/-! ## Runs -/

section

variable {environment bare : Environment} {settings : Settings}

theorem readNumber_hexAddress {base : Int} (within : 0 ≤ base ∧ base ≤ Settings.maxBase) :
    readNumber Settings.maxBase (hexAddress base) = .ok base := by
  have small : base < addressSpace := Int.lt_of_le_of_lt within.2 (by decide)
  rw [readNumber, Address.ofRaw?_ofString, Address.read_hexAddress within.1 small]
  exact if_pos within

/-- The shown base address is read in the place of an address that was not given. -/
theorem readNumberOption_or {base : Int} (within : 0 ≤ base ∧ base ≤ Settings.maxBase)
    (address : Option RawText) :
    readNumberOption "--address" Settings.maxBase (address.or (some (hexAddress base))) =
      (readNumberOption "--address" Settings.maxBase address).map fun given =>
        some (given.getD base) := by
  unfold readNumberOption
  cases address with
  | none =>
    rw [Option.none_or, Option.mapM_some, readNumber_hexAddress within]
    rfl
  | some text =>
    rw [Option.some_or, Option.mapM_some]
    cases readNumber Settings.maxBase text <;> rfl

theorem readJob_withDefaults (set : Settings.read environment = .ok settings)
    (unset : Settings.read bare = .ok {}) (options : Options) :
    readJob environment options = readJob bare (options.withDefaults settings) := by
  unfold readJob
  rw [set, unset]
  -- The address that was filled in is read, and nothing else of the options is checked here.
  simp only [Options.withDefaults,
    readNumberOption_or (Settings.base_of_readBase (Settings.read_eq_ok_iff.mp set).1)]
  cases readNumberOption "--address" Settings.maxBase options.address with
  | error => rfl
  | ok =>
    cases readNumberOption "--start" maxOffset options.start with
    | error => rfl
    | ok =>
      cases readNumberOption "--end" maxOffset options.stop with
      | error => rfl
      | ok =>
        simp [bind, Except.bind, Except.map, Except.mapError, pure, Except.pure,
          Bool.and_comm, Bool.or_comm]

theorem run_withDefaults (set : Settings.read environment = .ok settings)
    (unset : Settings.read bare = .ok {}) (disk : Disk) (options : Options) :
    run environment disk options = run bare disk (options.withDefaults settings) := by
  unfold run
  rw [readJob_withDefaults set unset]
  rfl

/-- The environment gives nothing but defaults: what is done under an environment that can be read
is done without it once the options that ask for the same are put in front, and a base address is
read from it, or is not, as from an option. -/
theorem environment_gives_defaults (set : Settings.read environment = .ok settings)
    (unset : ∀ name, name.startsWith "DISASM6502_" → bare name = none) :
    (∀ disk arguments, respond environment disk arguments =
      respond bare disk
        ((defaults settings (typedAddress? arguments)).flatMap Given.arguments ++ arguments))
    ∧ (∀ disk options, run environment disk options =
        run bare disk (options.withDefaults settings))
    ∧ ∀ text : RawText, text ≠ "" →
      let changed := Function.update environment Settings.baseVariable (some text)
      let option := readNumberOption "--address" Settings.maxBase (some text)
      (∀ base, (Settings.read changed).map Settings.base = .ok base ↔ option = .ok (some base))
      ∧ ((∃ fault, Settings.read changed = .error fault)
        ↔ ∃ fault, option = .error (.number "--address" fault)) := by
  have none := Settings.read_of_unset unset
  refine ⟨fun disk arguments => ?_, run_withDefaults set none, fun text filled => ?_⟩
  · unfold respond
    rw [readArguments_append]
    cases readArguments disk arguments with
    | error => rfl
    | ok options =>
      dsimp only [Except.map]
      rw [run_withDefaults set none]
      rfl
  · intro changed option
    have typed : option = ((readNumber Settings.maxBase text).mapError
        (.number "--address")).map some := by
      unfold option readNumberOption
      rw [Option.mapM_some]
      cases readNumber Settings.maxBase text <;> rfl
    rw [typed, Settings.read_update set, readBase_update environment filled]
    cases readNumber Settings.maxBase text with
    | error fault => cases fault <;> simp [Except.map, Except.mapError]
    | ok number => simp [Except.map, Except.mapError]

end

/-- An address of zero that was given is not taken for one that was not. -/
theorem environment_gives_address_unless_given :
    let environment : Environment := fun
      | "DISASM6502_BASE_ADDRESS" => some " $C000"
      | "DISASM6502_SHOW_BYTES" => some "off"
      | "DISASM6502_PACKED" => some "Yes"
      | _ => none
    Settings.read environment = .ok { base := 0xC000, showBytes := false, packed := true }
    ∧ ∀ disk,
        respond environment disk ["rom.txt"] = respond (fun _ => none) disk
          ["--address", "$C000", "--packed", "--no-bytes", "rom.txt"]
        ∧ respond environment disk ["rom.txt", "-a", "0"] = respond (fun _ => none) disk
          ["--packed", "--no-bytes", "rom.txt", "-a", "0"] := by
  intro environment
  have set : Settings.read environment =
      .ok { base := 0xC000, showBytes := false, packed := true } := rfl
  have same := (environment_gives_defaults set fun _ _ => rfl).1
  refine ⟨set, fun disk => ⟨?_, ?_⟩⟩
  · have response := same disk ["rom.txt"]
    rwa [show typedAddress? ["rom.txt"] = none from rfl] at response
  · have response := same disk ["rom.txt", "-a", "0"]
    rwa [show typedAddress? ["rom.txt", "-a", "0"] = some "0" from rfl] at response

end Command

end LinearSweep
