import LinearSweep.Proofs.Loading
import LinearSweep.Proofs.Reports
import LinearSweep.Proofs.Statuses

/-!
# Outputs

A run puts all of its result in one place, or it puts nothing anywhere.  `run_cases` says why: where
the result goes plays no part until the result is there, and nothing is put anywhere before.
`respond_all_or_nothing` says it of a whole command line.
-/

namespace LinearSweep

/-! ## Disks -/

namespace Disk

variable {disk : Disk} {location place : Location} {content : List UInt8}

theorem isDirectory_write (directory : disk.isDirectory place = true) :
    (disk.write location content).isDirectory place = true := by
  simp only [isDirectory, write, Bool.or_eq_true] at directory ⊢
  obtain above | inside := directory
  · exact .inl above
  · right
    obtain ⟨file, member, within⟩ := List.any_eq_true.mp inside
    rw [List.any_cons, Bool.or_eq_true, List.any_eq_true]
    by_cases same : file.1 = location
    · left
      rw [← same]
      exact within
    · exact .inr ⟨file, List.mem_filter.mpr ⟨member, decide_eq_true same⟩, within⟩

theorem isDirectory_of_enter {component : RawText}
    (entered : disk.enter place component = .ok location) : disk.isDirectory place = true := by
  unfold enter at entered
  split at entered
  next => cases entered
  next directory => simpa using directory

theorem enter_write {component : RawText} {next : Location}
    (entered : disk.enter place component = .ok next) :
    (disk.write location content).enter place component = .ok next := by
  have directory := isDirectory_of_enter entered
  unfold enter at entered ⊢
  rw [directory] at entered
  rw [isDirectory_write directory]
  exact entered

theorem isDirectory_of_follow {component : RawText} {components : List RawText} {last : Location}
    (followed : disk.follow place (component :: components) = .ok last) :
    disk.isDirectory place = true := by
  cases components with
  | nil => exact isDirectory_of_enter followed
  | cons =>
    obtain ⟨next, entered, -⟩ := bind_eq_ok_iff.mp followed
    exact isDirectory_of_enter entered

/-- A path that can be followed can still be followed when a file has been written. -/
theorem follow_write {components : List RawText} {last : Location}
    (followed : disk.follow place components = .ok last) :
    (disk.write location content).follow place components = .ok last := by
  induction components generalizing place with
  | nil => exact followed
  | cons component components ih =>
    cases components with
    | nil => exact enter_write followed
    | cons other components =>
      obtain ⟨next, entered, rest⟩ := bind_eq_ok_iff.mp followed
      split at rest
      next =>
        -- What is followed by another component is a directory, and stays one.
        have directory := isDirectory_of_follow rest
        refine bind_eq_ok_iff.mpr ⟨next, enter_write entered, ?_⟩
        rw [occupied, isDirectory_write directory, Bool.true_or, if_pos rfl]
        exact ih rest
      next => cases rest

theorem locate_write {path : RawText} (located : disk.locate path = .ok place) :
    (disk.write location content).locate path = .ok place := by
  unfold locate at located ⊢
  split at located
  next => cases located
  next filled =>
    split at located
    next => cases located
    next short =>
      rw [if_neg filled, if_neg short]
      exact follow_write located

/-- What has been written under a path is read under it. -/
theorem read_write_of_place {path : RawText} (placed : disk.place path = .ok location) :
    (disk.write location content).read path = .ok content := by
  obtain ⟨place, located, outside⟩ := bind_eq_ok_iff.mp placed
  split at outside
  next => cases outside
  next =>
    cases outside
    have found : (disk.write location content).find path = .ok location := by
      refine bind_eq_ok_iff.mpr ⟨location, locate_write located, ?_⟩
      rw [occupied, content?_write_self, Option.isSome_some, Bool.or_true, if_pos rfl]
      rfl
    refine bind_eq_ok_iff.mpr ⟨location, found, ?_⟩
    rw [content?_write_self]
    rfl

end Disk

namespace Text

theorem toList_toUTF8_inj {first second : String} :
    first.toUTF8.toList = second.toUTF8.toList ↔ first = second := by
  refine ⟨fun same => ?_, congrArg (String.toUTF8 · |>.toList)⟩
  have bytes : first.toUTF8 = second.toUTF8 := by
    rw [← WordList.toByteArray_toList first.toUTF8, same, WordList.toByteArray_toList]
  rw [← Option.some_inj, ← WordList.fromUTF8?_toUTF8, bytes, WordList.fromUTF8?_toUTF8]

theorem withoutSequences_append {front : List Char} (free : escapeChar ∉ front)
    (text : List Char) : withoutSequences (front ++ text) = front ++ withoutSequences text := by
  rw [withoutSequences_eq]
  by_cases found : escapeChar ∈ text
  · obtain ⟨before, rest, rfl, free'⟩ := List.eq_append_cons_of_mem found
    have longer : escapeChar ∉ front ++ before := by
      rw [List.mem_append, not_or]
      exact ⟨free, free'⟩
    rw [← List.append_assoc, printedFrom_append longer, printedFrom_append free']
    exact List.append_assoc _ _ _
  · have longer : escapeChar ∉ front ++ text := by
      rw [List.mem_append, not_or]
      exact ⟨free, found⟩
    rw [printedFrom_of_not_mem longer, printedFrom_of_not_mem found]
    rfl

/-- A line that begins without an escape character is printed as it is if what follows is. -/
theorem printed_line {front rest : String} (name : String) (free : escapeChar ∉ front.toList)
    (kept : escapeChar ∉ rest.toList) :
    printed (front ++ name ++ "\n" ++ rest) = front ++ name ++ "\n" ++ rest ↔
      printed name = name := by
  have text : (front ++ name ++ "\n" ++ rest).toList =
      front.toList ++ (name.toList ++ '\n' :: rest.toList) := by simp
  have shown : (printed (front ++ name ++ "\n" ++ rest)).toList =
      front.toList ++ ((printed name).toList ++ '\n' :: rest.toList) := by
    rw [printed, String.toList_ofList, text, withoutSequences_append free,
      withoutSequences_lineFeed, withoutSequences_of_not_mem kept, printed, String.toList_ofList]
  rw [← String.toList_inj, shown, text, List.append_cancel_left_eq, List.append_cancel_right_eq,
    String.toList_inj]

end Text

open Text

namespace Command

/-! ## Results -/

/-- A run comes to a result, wherever it puts it. -/
def HasResult (environment : Environment) (disk : Disk) (options : Options) (result : String) :
    Prop :=
  ∃ job image, readJob environment options = .ok job ∧
    (load disk options.input job.settings.packed).result = .ok image ∧
    resultText? options job.settings image (sweep job image options.count) = some result

theorem consists_listingRest {name : String} {options : Options} {settings : Settings}
    (image : List UInt8) {s : Sweep} (plain : ∀ i ∈ s.instructions, i.IsPlain) :
    Consists (fun c => c ≠ escapeChar) (listingRest name options settings image s) := by
  rw [listingRest, consists_append]
  refine ⟨consists_intercalate (by decide) fun line member => ?_, by decide⟩
  have visible : Consists isVisible line := by
    cases List.mem_append.mp member with
    | inl head => exact consists_of_mem_header _ head
    | inr body => exact consists_of_mem_bodyLines plain body
  refine visible.mono fun c visible => decide_eq_true ?_
  rintro rfl
  exact absurd visible (by decide)

/-- Printing a result loses something only if it is a listing, and the name of the file, which is
in its first line, loses something. -/
theorem printed_result_iff {environment : Environment} {disk : Disk} {options : Options}
    {result : String} (comes : HasResult environment disk options result) :
    printed result = result ↔
      options.json = true ∨
        ∃ name, (Path.fileName options.input).text? = some name ∧ printed name = name := by
  obtain ⟨job, image, -, -, text⟩ := comes
  have plain := isPlain_of_mem_sweep job image options.count
  unfold resultText? at text
  cases format : options.json with
  | true =>
    rw [if_pos format] at text
    obtain rfl := Option.some.inj text
    have consists := consists_jsonText job.settings plain
    exact iff_of_true (printed_of_not_mem (consists.not_mem (by decide))) (.inl rfl)
  | false =>
    rw [format, if_neg Bool.false_ne_true, Option.map_eq_some_iff] at text
    obtain ⟨name, whole, rfl⟩ := text
    rw [listingText_eq, printed_line _ (by decide)]
    · simp [whole]
    · exact (consists_listingRest image plain).not_mem (by decide)

/-! ## Outcomes -/

/-- A run fails and leaves everything as it was. -/
def Outcome.Fails (outcome : Outcome) : Prop :=
  outcome.failure ≠ none ∧ outcome.output = "" ∧ outcome.written = none

theorem fails_of_failure {failure : Failure} {notes : List Note} :
    ({ failure := some failure, notes } : Outcome).Fails :=
  ⟨Option.some_ne_none failure, rfl, rfl⟩

/-- Where a result goes plays no part before it is there. -/
theorem run_cases (environment : Environment) (disk : Disk) (options : Options) :
    (∃ job image notes total, readJob environment options = .ok job ∧
      (load disk options.input job.settings.packed).result = .ok image ∧
      ∀ output, run environment disk { options with output } =
        deliver disk output notes
          (resultText? options job.settings image (sweep job image options.count)) total) ∨
    ∀ output, (run environment disk { options with output }).Fails := by
  have asked (output : Option RawText) :
      readJob environment { options with output } = readJob environment options := rfl
  -- Each failure in front of the delivery is the same wherever the result is to go.
  unfold run
  simp only [asked]
  cases job? : readJob environment options with
  | error failure => exact .inr fun _ => fails_of_failure
  | ok job =>
    dsimp only
    cases loaded : (load disk options.input job.settings.packed).result with
    | error failure => exact .inr fun _ => fails_of_failure
    | ok image =>
      dsimp only
      unfold runOn
      by_cases empty : image.isEmpty = true
      · simp only [if_pos empty]
        exact .inr fun _ => fails_of_failure
      · simp only [if_neg empty]
        by_cases large : maxOffset < (options.count.getD 0 : Nat)
        · simp only [if_pos large]
          exact .inr fun _ => fails_of_failure
        · simp only [if_neg large]
          exact .inl ⟨job, image, _, _, rfl, loaded, fun _ => rfl⟩

theorem status_ne_zero (failure : Failure) : failure.status ≠ 0 := by
  rw [Failure.status]
  cases failure.complaint? with
  | none => exact Nat.one_ne_zero
  | some complaint => cases complaint <;> exact Nat.succ_ne_zero _

theorem ending_of_failure {outcome : Outcome} (fails : outcome.failure ≠ none) (verbose : Bool) :
    (outcome.response verbose).ending ≠ .exit 0 := by
  obtain ⟨failure, failed⟩ := Option.ne_none_iff_exists'.mp fails
  rw [ending_response, failed, Option.map_some, Option.getD_some, Failure.ending]
  split
  · exact Ending.noConfusion
  · exact fun same => status_ne_zero failure (Ending.exit.inj same)

theorem Outcome.Fails.leaves {outcome : Outcome} (fails : outcome.Fails) (verbose : Bool)
    (disk : Disk) :
    let response := outcome.response verbose
    response.ending ≠ .exit 0 ∧ response.output = "" ∧ response.disk disk = disk := by
  refine ⟨ending_of_failure fails.1 verbose, fails.2.1, ?_⟩
  rw [Response.disk, Outcome.response]
  simp only [fails.2.2]

/-- What a run comes to is printed, or written to the one file that was asked for. -/
theorem response_deliver (disk : Disk) (output : Option RawText) (notes : List Note)
    (text : String) (total : Nat) (verbose : Bool) :
    (deliver disk output notes (some text) total).Fails ∨
      let response := (deliver disk output notes (some text) total).response verbose
      let after := response.disk disk
      response.ending = .exit 0 ∧
        match output with
        | none => response.output = printed text ∧ after = disk
        | some path =>
          response.output = "" ∧ after.read (Path.shown path) = .ok text.toUTF8.toList ∧
          ∃ location, disk.place (Path.shown path) = .ok location ∧
            (∀ other, other ≠ location → after.content? other = disk.content? other) ∧
            after.directories = disk.directories := by
  cases output with
  | none => exact .inr ⟨rfl, rfl, rfl⟩
  | some path =>
    cases placed : disk.place (Path.shown path) with
    | error fault =>
      left
      rw [deliver_of_misplaced placed]
      exact fails_of_failure
    | ok location =>
      right
      simp only [deliver_of_placed placed]
      exact ⟨rfl, rfl, Disk.read_write_of_place placed, location, placed,
        fun _ => Disk.content?_write_of_ne, rfl⟩

/-- What cannot be encoded is not delivered, unless that fails already for want of a place. -/
theorem deliver_none (disk : Disk) (output : Option RawText) (notes : List Note) (total : Nat) :
    (deliver disk output notes none total).failure = some .unencodable ∨
      (deliver disk output notes none total).Fails := by
  cases output with
  | none => exact .inl rfl
  | some path =>
    cases placed : disk.place (Path.shown path) with
    | error fault =>
      right
      rw [deliver_of_misplaced placed]
      exact fails_of_failure
    | ok location =>
      left
      rw [deliver_none_of_placed placed]

/-- If a run succeeds, all of its result is in one place: on the standard output without its control
sequences, or as it is in the file that was asked for, and nothing else is touched.  The same run
without such a file prints the same result.  Nothing is lost by that, unless the result is a listing
and the name of the input has control sequences.  If a run does not succeed, and not because its
result cannot be encoded, it leaves everything as it was. -/
theorem respond_all_or_nothing {disk : Disk} {arguments : List RawText} {options : Options}
    (environment : Environment) (accepted : readArguments disk arguments = .ok options) :
    let response := respond environment disk arguments
    let after := response.disk disk
    (response.ending = .exit 0 →
      ∃ result, HasResult environment disk options result ∧
        (printed result = result ↔
          options.json = true ∨
            ∃ name, (Path.fileName options.input).text? = some name ∧ printed name = name) ∧
        match options.output with
        | none => response.output = printed result ∧ after = disk
        | some path =>
          let plain := (run environment disk { options with output := none }).response
            options.verbose
          response.output = "" ∧ after.read (Path.shown path) = .ok result.toUTF8.toList ∧
            (∃ location, disk.place (Path.shown path) = .ok location ∧
              (∀ other, other ≠ location → after.content? other = disk.content? other) ∧
              after.directories = disk.directories) ∧
            plain.ending = .exit 0 ∧ plain.output = printed result) ∧
    (response.ending ≠ .exit 0 →
      options.isEncodable = true ∨
          (run environment disk options).failure ≠ some .unencodable →
        response.output = "" ∧ after = disk) := by
  intro response after
  have ran : response = (run environment disk options).response options.verbose := by
    simp only [response, respond, accepted]
  simp only [after]
  rw [ran]
  obtain ⟨job, image, notes, total, asked, loaded, prepared⟩ | fails :=
    run_cases environment disk options
  · have encodes := isSome_resultText? options job.settings image (sweep job image options.count)
    have same := prepared options.output
    change run environment disk options = _ at same
    cases text : resultText? options job.settings image (sweep job image options.count) with
    | none =>
      rw [text] at same encodes
      rw [same, ← encodes]
      obtain broken | fails := deliver_none disk options.output notes total
      · refine ⟨fun succeeds => absurd succeeds (ending_of_failure ?_ _), fun _ possible => ?_⟩
        · rw [broken]
          exact Option.some_ne_none Failure.unencodable
        · obtain encodable | other := possible
          · exact absurd encodable Bool.false_ne_true
          · exact absurd broken other
      · obtain ⟨ends, leaves⟩ := fails.leaves options.verbose disk
        exact ⟨fun succeeds => absurd succeeds ends, fun _ _ => leaves⟩
    | some result =>
      rw [text] at prepared same
      have comes : HasResult environment disk options result := ⟨job, image, asked, loaded, text⟩
      rw [same]
      obtain fails | ⟨succeeds, delivered⟩ :=
        response_deliver disk options.output notes result total options.verbose
      · obtain ⟨ends, leaves⟩ := fails.leaves options.verbose disk
        exact ⟨fun succeeds => absurd succeeds ends, fun _ _ => leaves⟩
      · refine ⟨fun _ => ⟨result, comes, printed_result_iff comes, ?_⟩,
          fun failed => absurd succeeds failed⟩
        cases output : options.output with
        | none =>
          rw [output] at delivered
          exact delivered
        | some path =>
          rw [output] at delivered
          obtain ⟨silent, written, others⟩ := delivered
          dsimp only
          rw [prepared none]
          exact ⟨silent, written, others, rfl, rfl⟩
  · obtain ⟨ends, leaves⟩ := (fails options.output).leaves options.verbose disk
    exact ⟨fun succeeds => absurd succeeds ends, fun _ _ => leaves⟩

/-- The listing of an input may be written over the input. -/
theorem respond_over_input :
    let disk : Disk := { files := [(["rom"], [0xA9, 0x41]), (["notes"], [0x00])] }
    let arguments : List RawText := ["rom", "-o", "./rom"]
    let options : Options := { input := "rom", output := some "./rom" }
    let listing := "; Disassembly of rom\n; Size: 2 bytes\n; Base address: $0000\n"
      ++ "; Range: $0000-$0002\n\n$0000: A9 41     LDA #$41\n.END\n"
    let response := respond (fun _ => none) disk arguments
    readArguments disk arguments = .ok options ∧ response.ending = .exit 0 ∧
      response.output = "" ∧
      (response.disk disk).read "rom" = .ok listing.toUTF8.toList ∧
      (response.disk disk).content? ["notes"] = some [0x00] := by
  intro disk arguments options listing response
  have accepted : readArguments disk arguments = .ok options := rfl
  have ends : (respond (fun _ => none) disk arguments).ending = .exit 0 := rfl
  obtain ⟨result, ⟨job, image, read, loaded, text⟩, -, silent, written,
    ⟨location, placed, others, -⟩, -⟩ := (respond_all_or_nothing (fun _ => none) accepted).1 ends
  obtain rfl : (⟨{}, 0, none⟩ : Job) = job := by
    have read' : readJob (fun _ => none) options = .ok ⟨{}, 0, none⟩ := rfl
    exact Except.ok.inj (read'.symm.trans read)
  obtain rfl : [0xA9, 0x41] = image := by
    have loaded' : (load disk "rom" false).result = .ok [0xA9, 0x41] := rfl
    exact Except.ok.inj (loaded'.symm.trans loaded)
  obtain rfl : listing = result := by
    have text' : resultText? options {} [0xA9, 0x41] (sweep ⟨{}, 0, none⟩ [0xA9, 0x41] none) =
        some listing := rfl
    exact Option.some.inj (text'.symm.trans text)
  obtain rfl : [RawText.ofString "rom"] = location := by
    have placed' : disk.place (Path.shown "./rom") = .ok ["rom"] := rfl
    exact Except.ok.inj (placed'.symm.trans placed)
  have other : (["notes"] : Location) ≠ ["rom"] := by decide
  have kept : disk.content? ["notes"] = some [0x00] := rfl
  exact ⟨accepted, ends, silent, written, (others ["notes"] other).trans kept⟩

/-! ## Names with control sequences -/

/-- A file that holds a listing keeps the control sequences in the name of the input, which the
output loses. -/
theorem read_ne_output {environment : Environment} {disk : Disk} {options : Options}
    {name : String} {path : RawText} {location : Location} (asText : options.json = false)
    (named : (Path.fileName options.input).text? = some name) (loses : printed name ≠ name)
    (succeeds : (run environment disk { options with output := none }).failure = none)
    (placed : disk.place (Path.shown path) = .ok location) (verbose : Bool) :
    let filed := (run environment disk { options with output := some path }).response verbose
    let shown := (run environment disk { options with output := none }).response verbose
    filed.ending = .exit 0 ∧ shown.ending = .exit 0 ∧
      (filed.disk disk).read (Path.shown path) ≠ .ok shown.output.toUTF8.toList := by
  obtain ⟨job, image, notes, total, asked, loaded, prepared⟩ | fails :=
    run_cases environment disk options
  · let result := listingText name options job.settings image (sweep job image options.count)
    have text : resultText? options job.settings image (sweep job image options.count) =
        some result := by
      rw [resultText?, asText, if_neg Bool.false_ne_true, named, Option.map_some]
    have loses' : printed result ≠ result := by
      rw [Ne, printed_result_iff ⟨job, image, asked, loaded, text⟩, asText, named]
      simpa using loses
    rw [prepared (some path), prepared none, text]
    obtain fails | ⟨ends, -, written, -⟩ := response_deliver disk (some path) notes result total
      verbose
    · refine absurd (failure_deliver (fun other same => ?_) rfl) fails.1
      obtain rfl := Option.some.inj same
      exact ⟨location, placed⟩
    · refine ⟨ends, rfl, fun same => loses' ?_⟩
      exact toList_toUTF8_inj.mp (Except.ok.inj (same.symm.trans written))
  · exact absurd succeeds (fails none).1

/-- A sequence that only resets the colours. -/
theorem respond_hides_control_sequence :
    let disk : Disk := { files := [(["\x1b[mrom"], [0xEA])] }
    let filed := respond (fun _ => none) disk ["\x1b[mrom", "-o", "out"]
    let shown := respond (fun _ => none) disk ["\x1b[mrom"]
    filed.ending = .exit 0 ∧ shown.ending = .exit 0 ∧
      (filed.disk disk).read "out" ≠ .ok shown.output.toUTF8.toList := by
  intro disk filed shown
  let plain : Options := { input := "\x1b[mrom" }
  have accepted : readArguments disk ["\x1b[mrom", "-o", "out"] =
      .ok { plain with output := some "out" } := rfl
  have accepted' : readArguments disk ["\x1b[mrom"] = .ok plain := rfl
  have shownPath : Path.shown "out" = "out" := rfl
  have placed : disk.place (Path.shown "out") = .ok ["out"] := rfl
  have named : (Path.fileName plain.input).text? = some "\x1b[mrom" := rfl
  have succeeds : (run (fun _ => none) disk plain).failure = none := by
    have asked : readJob (fun _ => none) plain = .ok ⟨{}, 0, none⟩ := rfl
    have loaded : (load disk plain.input false).result = .ok [0xEA] := rfl
    obtain ⟨notes, total, ran⟩ := exists_run_eq_deliver asked loaded (by decide) (by simp [plain])
    rw [ran]
    exact failure_deliver (by simp [plain]) (by simp [resultText?, plain, named])
  have differs := read_ne_output rfl named (by decide) succeeds placed false
  rw [shownPath] at differs
  simp only [filed, shown, respond, accepted, accepted']
  exact differs

/-! ## Names that are not text -/

/-- That a result cannot be encoded is found out last, when the file for it has been emptied. -/
theorem response_of_unencodable {environment : Environment} {disk : Disk} {options : Options}
    {job : Job} {image : List UInt8} (asked : readJob environment options = .ok job)
    (loaded : (load disk options.input job.settings.packed).result = .ok image)
    (filled : image ≠ [])
    (countable : ∀ count ∈ options.count, (count : Int) ≤ 0x7FFFFFFFFFFFFFFF)
    (possible : ∀ path ∈ options.output, ∃ location, disk.place (Path.shown path) = .ok location)
    (unencodable : options.isEncodable = false) (verbose : Bool) :
    let response := (run environment disk options).response verbose
    response.ending = .brokenOff ∧ response.output = "" ∧
      match options.output with
      | none => response.disk disk = disk
      | some path => (response.disk disk).read (Path.shown path) = .ok [] := by
  obtain ⟨notes, total, ran⟩ := exists_run_eq_deliver asked loaded filled countable
  have none : resultText? options job.settings image (sweep job image options.count) = none := by
    rw [← Option.isNone_iff_eq_none, ← Option.not_isSome, isSome_resultText?, unencodable,
      Bool.not_false]
  rw [ran, none]
  cases output : options.output with
  | none => exact ⟨rfl, rfl, rfl⟩
  | some path =>
    obtain ⟨location, placed⟩ := possible path output
    rw [deliver_none_of_placed placed]
    have empty : "".toUTF8.toList = [] := by decide +kernel
    exact ⟨rfl, rfl, (Disk.read_write_of_place placed).trans (congrArg _ empty)⟩

/-- A name that is not text breaks off a listing that passes every check that the command is
described by. -/
theorem respond_breaks_off_at_raw_name :
    let name := RawText.ofString "rom" ++ [.byte 0x7F]
    let disk : Disk := { files := [([name], [0xEA]), (["out"], [0x00])] }
    let options : Options := { input := name, output := some "out" }
    let response := respond (fun _ => none) disk [name, "-o", "out"]
    readArguments disk [name, "-o", "out"] = .ok options ∧
      disk.read (Path.shown name) = .ok [0xEA] ∧
      Decides (describedChecks (fun _ => none) disk options [0xEA]) none ∧
      response.ending = .brokenOff ∧ response.output = "" ∧
      (response.disk disk).read "out" = .ok [] := by
  intro name disk options response
  have accepted : readArguments disk [name, "-o", "out"] = .ok options := rfl
  have readable : disk.read (Path.shown name) = .ok [0xEA] := rfl
  have shownPath : Path.shown "out" = "out" := rfl
  have placed : disk.place (Path.shown "out") = .ok ["out"] := rfl
  have possible : ∃ location, disk.place (Path.shown "out") = .ok location := ⟨_, placed⟩
  have expected : Decides (describedChecks (fun _ => none) disk options [0xEA]) none :=
    decides_unset
      (.passes (List.cons_ne_nil _ _) (.passes (Check.not_fails_of_valid possible) .nil))
  have asked : readJob (fun _ => none) options = .ok ⟨{}, 0, none⟩ := rfl
  have loaded : (load disk options.input false).result = .ok [0xEA] :=
    result_load readable false
  have raw : options.isEncodable = false := rfl
  have ends := response_of_unencodable asked loaded (List.cons_ne_nil _ _) (by simp [options])
    (by simpa [options] using possible) raw options.verbose
  refine ⟨accepted, readable, expected, ?_⟩
  simp only [response, respond, accepted]
  rw [← shownPath]
  exact ends

end Command
end LinearSweep
