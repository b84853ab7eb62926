import LinearSweep.Proofs.Defaults

/-!
# Asking for the log

The switch that asks for the log may stand wherever an option may, `admitsOption`.  In both passes
over the arguments it is one more option and nothing else: the first keeps all others in order
around it, `scan_insert`, and the second finds nothing to check in it, `options?_of_addsVerbose`.
So the options read with it are those read without it, except that they ask for the log,
`readArguments_insert`.
-/

namespace LinearSweep.Command

/-! ## First pass -/

/-- The names of the switch. -/
def verboseNames : List RawText := ["-v", "--verbose"]

/-- Whether an option may follow arguments: no parameter waits for its value, and the options have
not been ended. -/
def admitsOption : Pending → List RawText → Bool
  | none, [] => true
  | some _, [] => false
  | some _, _ :: arguments => admitsOption none arguments
  | none, argument :: arguments =>
    if argument = "--" then false
    else if isOption argument then
      match readOption argument with
      | .ok (_, pending) => admitsOption pending arguments
      | .error _ => false
    else admitsOption none arguments

/-- The second scan has the switch for the log among its options and is like the first otherwise. -/
structure Scan.AddsVerbose (s s' : Scan) : Prop where
  options : ∃ front back, s.options = front ++ back ∧
    s'.options = front ++ .switch .verbose :: back
  operands : s'.operands = s.operands

theorem Scan.AddsVerbose.behind {s s' : Scan} (adds : s.AddsVerbose s') (given : List Given) :
    (s.behind given).AddsVerbose (s'.behind given) := by
  obtain ⟨⟨front, back, plain, more⟩, operands⟩ := adds
  refine ⟨⟨given ++ front, back, ?_, ?_⟩, operands⟩
  · rw [Scan.behind, plain, List.append_assoc]
  · rw [Scan.behind, more, List.append_assoc]

theorem map_eq_ok_iff {ε α β : Type} {result : Except ε α} {f : α → β} {b : β} :
    result.map f = .ok b ↔ ∃ a, result = .ok a ∧ f a = b := by
  cases result <;> simp [Except.map]

theorem scan_operand {argument : RawText} (started : argument ≠ "--")
    (operand : ¬ isOption argument = true) (arguments : List RawText) :
    scan none (argument :: arguments) =
      (scan none arguments).map fun s => { s with operands := argument :: s.operands } := by
  rw [scan, if_neg started, if_neg operand]
  cases scan none arguments <;> rfl

/-- The switch is scanned as itself wherever it may stand. -/
theorem scan_insert {name : RawText} (switch : name ∈ verboseNames) {pending : Pending}
    {front : List RawText} (admits : admitsOption pending front = true) (back : List RawText)
    {s : Scan} (scanned : scan pending (front ++ back) = .ok s) :
    ∃ s', scan pending (front ++ name :: back) = .ok s' ∧ s.AddsVerbose s' := by
  fun_induction admitsOption pending front generalizing s with
  | case1 =>
    have read : scan none (name :: back) =
        (scan none back).map (Scan.behind [.switch .verbose]) := by
      simp only [verboseNames, List.mem_cons, List.not_mem_nil, or_false] at switch
      obtain rfl | rfl := switch <;> exact scan_option (by decide) rfl back
    rw [List.nil_append] at scanned ⊢
    rw [read, scanned]
    exact ⟨_, rfl, ⟨[], s.options, rfl, rfl⟩, rfl⟩
  | case2 => cases admits
  | case3 parameter text arguments ih =>
    obtain ⟨parameter, shown⟩ := parameter
    rw [List.cons_append, scan_value, map_eq_ok_iff] at scanned
    obtain ⟨t, later, rfl⟩ := scanned
    obtain ⟨t', later', adds⟩ := ih admits later
    rw [List.cons_append, scan_value, later']
    exact ⟨_, rfl, adds.behind _⟩
  | case4 => cases admits
  | case5 argument arguments started option given pending read ih =>
    rw [List.cons_append, scan_option ⟨started, option⟩ read, map_eq_ok_iff] at scanned
    obtain ⟨t, later, rfl⟩ := scanned
    obtain ⟨t', later', adds⟩ := ih admits later
    rw [List.cons_append, scan_option ⟨started, option⟩ read, later']
    exact ⟨_, rfl, adds.behind _⟩
  | case6 => cases admits
  | case7 argument arguments started operand ih =>
    rw [List.cons_append, scan_operand started operand, map_eq_ok_iff] at scanned
    obtain ⟨t, later, rfl⟩ := scanned
    obtain ⟨t', later', adds⟩ := ih admits later
    rw [List.cons_append, scan_operand started operand, later']
    exact ⟨_, rfl, adds.options, congrArg (argument :: ·) adds.operands⟩

/-! ## Second pass -/

section

variable {s s' : Scan}

theorem value?_of_addsVerbose (adds : s.AddsVerbose s') (parameter : Parameter) :
    s'.value? parameter = s.value? parameter := by
  obtain ⟨front, back, plain, more⟩ := adds.options
  simp [Scan.value?, plain, more, List.findSome?_append]

theorem has_of_addsVerbose (adds : s.AddsVerbose s') (switch : Switch) :
    s'.has switch = (s.has switch || switch = .verbose) := by
  obtain ⟨front, back, plain, more⟩ := adds.options
  have same : (Given.switch switch == .switch .verbose) = decide (switch = .verbose) := by
    cases switch <;> rfl
  simp only [Scan.has, plain, more, List.contains_append, List.contains_cons, same]
  cases front.contains (.switch switch) <;> simp [Bool.or_comm]

theorem halt?_of_addsVerbose (adds : s.AddsVerbose s') : halt? s'.options = halt? s.options := by
  obtain ⟨front, back, plain, more⟩ := adds.options
  simp [halt?, plain, more, List.findSome?_append]

theorem forM_checkGiven_of_addsVerbose (adds : s.AddsVerbose s') (disk : Disk) :
    s'.options.forM (checkGiven disk s') = s.options.forM (checkGiven disk s) := by
  have same : checkGiven disk s' = checkGiven disk s := by
    funext option
    unfold checkGiven
    rw [value?_of_addsVerbose adds, value?_of_addsVerbose adds]
  obtain ⟨front, back, plain, more⟩ := adds.options
  rw [same, plain, more]
  change forM (front ++ .switch .verbose :: back) (checkGiven disk s) =
    forM (front ++ back) (checkGiven disk s)
  rw [List.forM_append, List.forM_append, List.forM_cons]
  rfl

/-- The switch changes nothing that is asked for but the log. -/
theorem options?_of_addsVerbose (adds : s.AddsVerbose s') (disk : Disk) :
    s'.options? disk = (s.options? disk).map fun options => { options with verbose := true } := by
  unfold Scan.options?
  rw [forM_checkGiven_of_addsVerbose adds]
  simp only [value?_of_addsVerbose adds, has_of_addsVerbose adds, adds.operands]
  cases s.options.forM (checkGiven disk s) with
  | error => rfl
  | ok =>
    cases (s.value? .count).mapM readCount with
    | error => rfl
    | ok =>
      cases readInput disk s.operands <;>
        simp [bind, Except.bind, Except.map, pure, Except.pure]

end

theorem readArguments_eq_ok_iff {disk : Disk} {arguments : List RawText} {options : Options} :
    readArguments disk arguments = .ok options ↔
      ∃ s, scan none arguments = .ok s ∧ halt? s.options = none ∧
        s.options? disk = .ok options := by
  unfold readArguments
  rw [bind_eq_ok_iff]
  refine exists_congr fun s => and_congr mapError_eq_ok_iff ?_
  cases halt? s.options with
  | some halt => exact iff_of_false (by simp) (by simp)
  | none => simpa using mapError_eq_ok_iff

/-- A command line that asks for the log as well is read with the same options otherwise. -/
theorem readArguments_insert {disk : Disk} {front back : List RawText} {options : Options}
    {name : RawText} (switch : name ∈ verboseNames)
    (admits : admitsOption none front = true)
    (accepted : readArguments disk (front ++ back) = .ok options) :
    readArguments disk (front ++ name :: back) = .ok { options with verbose := true } := by
  obtain ⟨s, scanned, goes, read⟩ := readArguments_eq_ok_iff.mp accepted
  obtain ⟨s', scanned', adds⟩ := scan_insert switch admits back scanned
  refine readArguments_eq_ok_iff.mpr ⟨s', scanned', ?_, ?_⟩
  · rw [halt?_of_addsVerbose adds, goes]
  · rw [options?_of_addsVerbose adds, read]
    rfl

end LinearSweep.Command
