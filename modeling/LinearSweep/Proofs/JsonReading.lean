import LinearSweep.Proofs.JsonTokens

/-!
# Reading JSON

The tokens of a text are put together by a machine that takes them one at a time: it keeps the
arrays and objects that are still open, and is content at the end if none is.  `step` says what each
token does, and `Reads` of some tokens that together they are one value, wherever it stands.
`read?_render` says that every report is read as the array of its records.
-/

namespace LinearSweep.Json

/-! ## The machine -/

/-- What is still open around a value: an array with the items in front of it, or an object with the
fields in front of it and the name of its own field. -/
inductive Frame where
  | array (items : List Document)
  | object (fields : List (String × Document)) (name : String)

inductive State where
  /-- A value is due. -/
  | value (outer : List Frame)
  /-- An array has been opened, and its first item or its end is due. -/
  | firstItem (outer : List Frame)
  /-- An object has been opened, and the name of its first field or its end is due. -/
  | firstName (outer : List Frame)
  /-- The name of a further field is due. -/
  | nextName (outer : List Frame) (fields : List (String × Document))
  | colon (outer : List Frame) (fields : List (String × Document)) (name : String)
  /-- A value has been read, and what is open around it is continued or closed. -/
  | after (outer : List Frame) (document : Document)

namespace State

/-- Takes a token where a value is due. -/
def takeValue (outer : List Frame) : Token → Option State
  | .atom document => some (.after outer document)
  | .mark .openArray => some (.firstItem outer)
  | .mark .openObject => some (.firstName outer)
  | _ => none

/-- Takes a token where the name of a field is due. -/
def takeName (outer : List Frame) (fields : List (String × Document)) : Token → Option State
  | .atom (.text name) => some (.colon outer fields name)
  | _ => none

def step : State → Token → Option State
  | .value outer, token => takeValue outer token
  | .firstItem outer, .mark .closeArray => some (.after outer (.array []))
  | .firstItem outer, token => takeValue (.array [] :: outer) token
  | .firstName outer, .mark .closeObject => some (.after outer (.object []))
  | .firstName outer, token => takeName outer [] token
  | .nextName outer fields, token => takeName outer fields token
  | .colon outer fields name, .mark .colon => some (.value (.object fields name :: outer))
  | .after (.array items :: outer) document, .mark .comma =>
    some (.value (.array (items ++ [document]) :: outer))
  | .after (.array items :: outer) document, .mark .closeArray =>
    some (.after outer (.array (items ++ [document])))
  | .after (.object fields name :: outer) document, .mark .comma =>
    some (.nextName outer (fields ++ [(name, document)]))
  | .after (.object fields name :: outer) document, .mark .closeObject =>
    some (.after outer (.object (fields ++ [(name, document)])))
  | _, _ => none

def run (s : State) (tokens : List Token) : Option State :=
  tokens.foldlM step s

/-- The document that has been read, if nothing is open around it. -/
def result? : State → Option Document
  | .after [] document => some document
  | _ => none

variable {s : State} {token : Token} {tokens others : List Token}

theorem run_cons : run s (token :: tokens) = (step s token).bind (run · tokens) := by
  rw [run, List.foldlM_cons]
  rfl

theorem run_singleton : run s [token] = step s token := by
  rw [run_cons]
  exact Option.bind_fun_some _

theorem run_append : run s (tokens ++ others) = (run s tokens).bind (run · others) := by
  rw [run, List.foldlM_append]
  rfl

theorem step_firstItem (outer : List Frame) (token : Token)
    (opens : token ≠ .mark .closeArray) :
    step (.firstItem outer) token = step (.value (.array [] :: outer)) token := by
  rw [step, step]
  exact opens

theorem step_firstName (outer : List Frame) (token : Token)
    (opens : token ≠ .mark .closeObject) :
    step (.firstName outer) token = step (.nextName outer []) token := by
  rw [step, step]
  exact opens

/-- A state that differs from another one only in that it also takes a closing mark runs as the
other one does, where that one gets anywhere. -/
theorem run_first {closing : Mark} {first other last : State}
    (same : ∀ token, token ≠ .mark closing → step first token = step other token)
    (refused : step other (.mark closing) = none) (filled : tokens ≠ [])
    (runs : run other tokens = some last) : run first tokens = some last := by
  obtain ⟨token, tokens, rfl⟩ := List.exists_cons_of_ne_nil filled
  rw [run_cons] at runs ⊢
  have opens : token ≠ .mark closing := by
    rintro rfl
    rw [refused] at runs
    cases runs
  rw [same token opens, runs]

/-- Parts with commas between them are taken one after the other, if each of them is taken in front
of a comma and in front of the closing mark. -/
theorem run_separated {α : Type} (due finish : List α → State) {takes : List Token → α → Prop}
    {closing : Mark} {parts : List (List Token)} {xs : List α}
    (comma : ∀ {part x}, takes part x →
      ∀ done, run (due done) (part ++ [.mark .comma]) = some (due (done ++ [x])))
    (close : ∀ {part x}, takes part x →
      ∀ done, run (due done) (part ++ [.mark closing]) = some (finish (done ++ [x])))
    (taken : List.Forall₂ takes parts xs) (filled : parts ≠ []) (done : List α) :
    run (due done) (separated parts ++ [.mark closing]) = some (finish (done ++ xs)) := by
  -- What is done grows by one part at each comma.
  induction taken generalizing done with
  | nil => exact absurd rfl filled
  | @cons part x parts xs first others ih =>
    cases others with
    | nil =>
      rw [separated_singleton]
      exact close first done
    | @cons part' y parts xs second others =>
      have comma_first : part ++ .mark .comma :: separated (part' :: parts) ++ [.mark closing] =
          (part ++ [.mark .comma]) ++ (separated (part' :: parts) ++ [.mark closing]) := by
        simp
      rw [separated_cons_cons, comma_first, run_append, comma first, Option.bind_some,
        ih (List.cons_ne_nil _ _), List.append_assoc, List.singleton_append]

end State

open State

/-- Reads a text that consists of one value. -/
def read? (text : String) : Option Document := do
  let tokens ← tokens? text.toList
  let last ← run (.value []) tokens
  last.result?

/-! ## Values -/

/-- Some tokens are one value, wherever it stands. -/
def Reads (tokens : List Token) (document : Document) : Prop :=
  ∀ outer, run (.value outer) tokens = some (.after outer document)

/-- Some tokens are a field: its name, a colon and its value. -/
def ReadsField (tokens : List Token) (field : String × Document) : Prop :=
  ∃ value, tokens = .atom (.text field.1) :: .mark .colon :: value ∧ Reads value field.2

theorem reads_atom (document : Document) : Reads [.atom document] document :=
  fun _ => run_singleton

/-- Values with commas between them are an array. -/
theorem reads_array {parts : List (List Token)} {items : List Document}
    (reads : List.Forall₂ Reads parts items) :
    Reads (bracketed .openArray .closeArray parts) (.array items) := by
  intro outer
  have opens : step (.value outer) (.mark .openArray) = some (.firstItem outer) := rfl
  rw [bracketed, run_cons, opens, Option.bind_some]
  by_cases empty : parts = []
  case pos =>
    subst empty
    cases reads
    exact run_singleton
  case neg =>
    -- No item begins with the closing bracket, so an array that is not empty is read like the rest
    -- of one.
    apply run_first (step_firstItem outer) rfl (by simp)
    apply run_separated (fun items => .value (.array items :: outer))
      (fun items => .after outer (.array items)) _ _ reads empty []
    all_goals
      intro part item first items
      rw [run_append, first, Option.bind_some, run_singleton]
      rfl

theorem run_field {tokens : List Token} {field : String × Document}
    (reads : ReadsField tokens field) (outer : List Frame) (fields : List (String × Document)) :
    run (.nextName outer fields) tokens =
      some (.after (.object fields field.1 :: outer) field.2) := by
  obtain ⟨value, rfl, reads⟩ := reads
  have name : step (.nextName outer fields) (.atom (.text field.1)) =
      some (.colon outer fields field.1) := rfl
  have colon : step (.colon outer fields field.1) (.mark .colon) =
      some (.value (.object fields field.1 :: outer)) := rfl
  rw [run_cons, name, Option.bind_some, run_cons, colon, Option.bind_some, reads]

/-- Fields with commas between them are an object. -/
theorem reads_object {parts : List (List Token)} {fields : List (String × Document)}
    (reads : List.Forall₂ ReadsField parts fields) :
    Reads (bracketed .openObject .closeObject parts) (.object fields) := by
  intro outer
  have opens : step (.value outer) (.mark .openObject) = some (.firstName outer) := rfl
  rw [bracketed, run_cons, opens, Option.bind_some]
  by_cases empty : parts = []
  case pos =>
    subst empty
    cases reads
    exact run_singleton
  case neg =>
    apply run_first (step_firstName outer) rfl (by simp)
    apply run_separated (.nextName outer) (fun fields => .after outer (.object fields)) _ _ reads
      empty []
    all_goals
      intro part field first fields
      rw [run_append, run_field first, Option.bind_some, run_singleton]
      rfl

/-! ## Reports -/

/-- What the value of a field says. -/
def Value.document : Value → Document
  | .text content => .text content
  | .number n => .integer n
  | .texts items => .array (items.map .text)

/-- What a record says. -/
def document (fields : Record) : Document :=
  .object (fields.map fun field => (field.1, field.2.document))

theorem reads_value (content : Value) : Reads content.tokens content.document := by
  cases content with
  | text text => exact reads_atom (.text text)
  | number n => exact reads_atom (.integer n)
  | texts items => exact reads_array (forall₂_map fun item _ => reads_atom (.text item))

theorem reads_record (fields : Record) : Reads (recordTokens fields) (document fields) :=
  reads_object (forall₂_map fun field _ => ⟨field.2.tokens, rfl, reads_value field.2⟩)

theorem reads_report (records : List Record) :
    Reads (reportTokens records) (.array (records.map document)) :=
  reads_array (forall₂_map fun fields _ => reads_record fields)

/-- A report is read as the array of its records, in their order. -/
theorem read?_render (records : List Record) :
    read? (render records ++ "\n") = some (.array (records.map document)) := by
  have feed : "\n".toList = ['\n'] := by decide
  have tokens : tokens? (render records ++ "\n").toList = some (reportTokens records) := by
    rw [String.toList_append, feed, spells_render records _ (apart_cons.mpr (by decide)),
      tokens?_space (by decide), tokens?, Option.map_some, List.append_nil]
  rw [read?, tokens]
  simp only [bind, Option.bind_some]
  rw [reads_report records []]
  rfl

end LinearSweep.Json
