/-!
# Checks in order

Checks are made one after the other, and the first that fails decides what comes of them.  A
computation that may throw an error follows a list of checks if its error is what the first failing
check leads to, and if it throws none when all of them pass.  Computations that are done in sequence
follow their checks in sequence, `Follows.bind` and `Follows.mapM`.
-/

namespace LinearSweep

variable {Ending α β ε ε' : Type}

structure Check (Ending : Type) where
  fails : Prop
  /-- What a failure leads to. -/
  ending : Ending

/-- What is given, if anything is, must be valid. -/
def Check.ofGiven (given : Option α) (valid : α → Prop) (ending : Ending) : Check Ending where
  fails := ∃ a, given = some a ∧ ¬ valid a
  ending

/-- The first check that fails decides on the ending, and nothing does if all of them pass. -/
inductive Decides : List (Check Ending) → Option Ending → Prop where
  | nil : Decides [] none
  | fails {check : Check Ending} {checks : List (Check Ending)} :
      check.fails → Decides (check :: checks) (some check.ending)
  | passes {check : Check Ending} {checks : List (Check Ending)} {ending : Option Ending} :
      ¬ check.fails → Decides checks ending → Decides (check :: checks) ending

namespace Check

variable {valid : α → Prop} {ending : Ending} {a : α}

theorem not_fails_none : ¬ (ofGiven none valid ending).fails := by
  rintro ⟨a, given, -⟩
  cases given

theorem not_fails_of_valid (holds : valid a) : ¬ (ofGiven (some a) valid ending).fails := by
  rintro ⟨b, given, invalid⟩
  cases given
  exact invalid holds

theorem fails_of_invalid (invalid : ¬ valid a) : (ofGiven (some a) valid ending).fails :=
  ⟨a, rfl, invalid⟩

end Check

namespace Decides

variable {checks others : List (Check Ending)} {ending other : Option Ending} {found : Ending}

theorem unique (decides : Decides checks ending) (again : Decides checks other) :
    ending = other := by
  induction decides with
  | nil =>
    cases again
    rfl
  | fails failed =>
    cases again with
    | fails => rfl
    | passes passed => exact absurd failed passed
  | passes passed _ ih =>
    cases again with
    | fails failed => exact absurd failed passed
    | passes _ later => exact ih later

theorem append_of_some (decides : Decides checks (some found)) :
    Decides (checks ++ others) (some found) := by
  induction checks with
  | nil => cases decides
  | cons check checks ih =>
    cases decides with
    | fails failed => exact .fails failed
    | passes passed later => exact .passes passed (ih later)

theorem append_of_none (pass : Decides checks none) (decides : Decides others ending) :
    Decides (checks ++ others) ending := by
  induction checks with
  | nil => exact decides
  | cons check checks ih =>
    cases pass with
    | passes passed later => exact .passes passed (ih later)

theorem append_passing (decides : Decides checks ending) (passing : Decides others none) :
    Decides (checks ++ others) ending := by
  cases ending with
  | none => exact decides.append_of_none passing
  | some found => exact decides.append_of_some

theorem exists_ending (checks : List (Check Ending)) : ∃ ending, Decides checks ending := by
  induction checks with
  | nil => exact ⟨none, .nil⟩
  | cons check checks ih =>
    obtain ⟨ending, decides⟩ := ih
    by_cases failed : check.fails
    · exact ⟨some check.ending, .fails failed⟩
    · exact ⟨ending, .passes failed decides⟩

/-- Checks may be replaced in front and behind by others that decide in the same way. -/
theorem append_mono {checks' others' : List (Check Ending)}
    (front : ∀ {ending}, Decides checks ending → Decides checks' ending)
    (back : ∀ {ending}, Decides others ending → Decides others' ending)
    (decides : Decides (checks ++ others) ending) : Decides (checks' ++ others') ending := by
  obtain ⟨first, decidesFirst⟩ := exists_ending checks
  cases first with
  | some found =>
    rw [decides.unique decidesFirst.append_of_some]
    exact (front decidesFirst).append_of_some
  | none =>
    obtain ⟨second, decidesSecond⟩ := exists_ending others
    rw [decides.unique (decidesFirst.append_of_none decidesSecond)]
    exact (front decidesFirst).append_of_none (back decidesSecond)

theorem flatMap_mono {checks checks' : α → List (Check Ending)} {list : List α}
    (each : ∀ a ∈ list, ∀ {ending}, Decides (checks a) ending → Decides (checks' a) ending)
    (decides : Decides (list.flatMap checks) ending) : Decides (list.flatMap checks') ending := by
  induction list generalizing ending with
  | nil => exact decides
  | cons a list ih =>
    rw [List.forall_mem_cons] at each
    exact append_mono each.1 (ih each.2) decides

end Decides

/-! ## Computations -/

theorem bind_eq_ok_iff {first : Except ε α} {next : α → Except ε β} {b : β} :
    first >>= next = .ok b ↔ ∃ a, first = .ok a ∧ next a = .ok b := by
  cases first <;> simp [bind, Except.bind]

theorem mapError_eq_ok_iff {convert : ε → ε'} {result : Except ε α} {a : α} :
    result.mapError convert = .ok a ↔ result = .ok a := by
  cases result with
  | error error => exact iff_of_false nofun nofun
  | ok b =>
    constructor <;> intro same <;> cases same <;> rfl

/-- The checks decide on the ending that a computation comes to. -/
def Follows (ending : ε → Ending) (checks : List (Check Ending)) : Except ε α → Prop
  | .ok _ => Decides checks none
  | .error error => Decides checks (some (ending error))

namespace Follows

variable {ending : ε → Ending} {checks others : List (Check Ending)}

theorem bind {first : Except ε α} {next : α → Except ε β} (follows : Follows ending checks first)
    (later : ∀ a, first = .ok a → Follows ending others (next a)) :
    Follows ending (checks ++ others) (first >>= next) := by
  cases first with
  | error error => exact Decides.append_of_some follows
  | ok a =>
    change Follows ending (checks ++ others) (next a)
    have second := later a rfl
    cases same : next a <;> rw [same] at second <;> exact Decides.append_of_none follows second

theorem map {first : Except ε α} (follows : Follows ending checks first) (f : α → β) :
    Follows ending checks (first.map f) := by
  cases first <;> exact follows

theorem mapError {ending : ε' → Ending} {convert : ε → ε'} {first : Except ε α}
    (follows : Follows (fun error => ending (convert error)) checks first) :
    Follows ending checks (first.mapError convert) := by
  cases first <;> exact follows

/-- Each element of a list is checked after those in front of it. -/
theorem mapM {f : α → Except ε β} {checks : α → List (Check Ending)} {list : List α}
    (follows : ∀ a ∈ list, Follows ending (checks a) (f a)) :
    Follows ending (list.flatMap checks) (list.mapM f) := by
  induction list with
  | nil => exact .nil
  | cons a list ih =>
    rw [List.forall_mem_cons] at follows
    rw [List.flatMap_cons, List.mapM_cons]
    refine follows.1.bind fun b _ => ?_
    have rest := ih follows.2
    cases same : list.mapM f <;> rw [same] at rest <;> exact rest

end Follows

end LinearSweep
