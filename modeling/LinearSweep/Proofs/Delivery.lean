import LinearSweep.Proofs.Ranges
import LinearSweep.Sweep.Session

/-!
# Delivery in order

All requests of a session share one cursor, so together they deliver the instructions of the sweep
in order, whichever of them asks.  A step of a session splits what the cursor has left into what is
delivered and what stays, `instructions_serve`, and a run adds the steps up, `instructions_after`.

The one thing that a session remembers besides its cursor is which streams have ended.  `Sound` says
that none of them ended too early, and every step keeps it.  With it, an answer that says that
nothing is left can be believed, `atEnd_of_saysEnd`.
-/

namespace LinearSweep

/-! ## What answers say -/

/-- How each request shows the instructions that were pulled for it. -/
inductive Answers (streams : List Stream) : Request → Reply → List Instruction → Prop where
  | look : Answers streams .look .nothing []
  | nextText (i : Instruction) : Answers streams .nextText (.text i.text) [i]
  | noText : Answers streams .nextText (.text ".END") []
  | next (i : Instruction) : Answers streams .next (.instruction (some i)) [i]
  | noInstruction : Answers streams .next (.instruction none) []
  | allTexts (is : List Instruction) :
      Answers streams .allTexts (.texts (is.map Instruction.text ++ [".END"])) is
  | listing (layout : Listing) (is : List Instruction) :
      Answers streams (.listing layout) (.text (layout.render is)) is
  | opened (kind : StreamKind) : Answers streams (.openStream kind) (.opened streams.length) []
  | items {stream count : Nat} {ended : Bool} {is : List Instruction} :
      streams[stream]? = some ⟨.instructions, ended⟩ → is.length ≤ count →
      Answers streams (.pull stream count) (.instructions is) is
  | texts {stream count : Nat} {ended : Bool} {is : List Instruction} :
      streams[stream]? = some ⟨.texts, ended⟩ → is.length ≤ count →
      Answers streams (.pull stream count) (.texts (is.map Instruction.text)) is
  | unopened {stream count : Nat} :
      streams[stream]? = none → Answers streams (.pull stream count) .nothing []

/-- An answer says that nothing is left: by the end mark, by being empty, by being everything, or by
being less than what was asked for. -/
def SaysEnd : Request → Reply → Prop
  | .nextText, reply => reply = .text ".END"
  | .next, reply => reply = .instruction none
  | .allTexts, _ | .listing _, _ => True
  | .pull _ count, .instructions is => is.length < count
  | .pull _ count, .texts texts => texts.length < count
  | _, _ => False

/-! ## No text is the end mark -/

/-- A text is a name of three characters, or such a name, a space and more, so it never has four
characters. -/
theorem text_ofBytes_ne_endMark {offset : Nat} {opcode : UInt8} {behind : List UInt8} :
    (Instruction.ofBytes offset opcode behind).text ≠ ".END" := by
  intro same
  have length := congrArg String.length same
  have name : (Instruction.ofBytes offset opcode behind).mnemonic.length = 3 :=
    Instruction.length_mnemonic_ofBytes
  unfold Instruction.text at length
  split at length
  · rw [name] at length
    contradiction
  · next operand =>
    have positive : (Instruction.ofBytes offset opcode behind).operand.length ≠ 0 := by
      simpa using operand
    simp only [String.length_append, name] at length
    have four : ".END".length = 4 := rfl
    have one : " ".length = 1 := rfl
    omega

theorem Cursor.text_ne_endMark {c : Cursor} {i : Instruction} (member : i ∈ c.instructions) :
    i.text ≠ ".END" := by
  rw [instructions_eq_decode] at member
  obtain ⟨offset, opcode, behind, rfl, -⟩ := ofBytes_of_mem_decode member
  exact text_ofBytes_ne_endMark

/-- A pull that obtains less than it asks for leaves nothing. -/
theorem Cursor.atEnd_of_length_take_lt {c : Cursor} {count : Nat}
    (short : (c.take count).1.length < count) : (c.take count).2.atEnd = true := by
  rw [fst_take, List.length_take] at short
  rw [atEnd_iff_instructions, instructions_take]
  exact List.drop_of_length_le (by omega)

namespace Session

/-! ## One request -/

/-- A request splits what is left into what it obtains and what stays. -/
theorem instructions_serve (s : Session) (request : Request) :
    s.cursor.instructions =
      (s.serve request).instructions ++ (s.serve request).session.cursor.instructions := by
  show _ = (s.cursor.take _).1 ++ (s.cursor.take _).2.instructions
  rw [Cursor.fst_take, Cursor.instructions_take, List.take_append_drop]

theorem serve_of_atEnd {s : Session} (ended : s.cursor.atEnd = true) (request : Request) :
    (s.serve request).instructions = [] ∧ (s.serve request).session.cursor = s.cursor := by
  have nothing := Cursor.take_of_atEnd ended (s.demand request)
  exact ⟨congrArg Prod.fst nothing, congrArg Prod.snd nothing⟩

/-- At most the demanded number of instructions is pulled. -/
theorem length_serve_le (s : Session) (request : Request) :
    (s.serve request).instructions.length ≤ s.demand request := by
  show (s.cursor.take _).1.length ≤ _
  rw [Cursor.fst_take]
  exact List.length_take_le _ _

theorem answers_serve (s : Session) (request : Request) :
    Answers s.streams request (s.serve request).reply (s.serve request).instructions := by
  have bound := length_serve_le s request
  show Answers s.streams request (s.reply (s.serve request).instructions request) _
  generalize (s.serve request).instructions = pulled at bound ⊢
  cases request with
  | look =>
    obtain rfl := List.length_eq_zero_iff.mp (Nat.le_zero.mp bound)
    exact .look
  | nextText =>
    cases pulled with
    | nil => exact .noText
    | cons i rest =>
      obtain rfl : rest = [] := List.length_eq_zero_iff.mp (by simpa [demand] using bound)
      exact .nextText i
  | next =>
    cases pulled with
    | nil => exact .noInstruction
    | cons i rest =>
      obtain rfl : rest = [] := List.length_eq_zero_iff.mp (by simpa [demand] using bound)
      exact .next i
  | allTexts => exact .allTexts pulled
  | listing layout => exact .listing layout pulled
  | openStream kind =>
    obtain rfl := List.length_eq_zero_iff.mp (Nat.le_zero.mp bound)
    exact .opened kind
  | pull stream count =>
    cases found : s.streams[stream]? with
    | none =>
      simp only [demand, found, Nat.le_zero_eq, List.length_eq_zero_iff] at bound
      subst bound
      simpa only [reply, found] using Answers.unopened found
    | some opened =>
      obtain ⟨kind, ended⟩ := opened
      -- A stream that has ended asks for nothing, any other for as many as it may.
      have within : pulled.length ≤ count := by
        refine Nat.le_trans bound ?_
        cases ended <;> simp [demand, found]
      cases kind with
      | instructions => simpa only [reply, found] using Answers.items found within
      | texts => simpa only [reply, found] using Answers.texts found within

/-! ## Streams end at the end -/

/-- No stream has ended before the cursor is at the end. -/
def Sound (s : Session) : Prop :=
  ∀ stream ∈ s.streams, stream.ended = true → s.cursor.atEnd = true

theorem sound_ofImage (image : List UInt8) (start : Int) (stop : Option Int) :
    (ofImage image start stop).Sound := by
  intro stream member
  cases member

/-- A pull that obtains less than it asks for from an open stream leaves nothing. -/
theorem Sound.atEnd_of_short {s : Session} (sound : s.Sound) {stream count : Nat} {opened : Stream}
    (found : s.streams[stream]? = some opened)
    (short : (s.serve (.pull stream count)).instructions.length < count) :
    (s.serve (.pull stream count)).session.cursor.atEnd = true := by
  obtain ⟨kind, ended⟩ := opened
  cases ended with
  | true =>
    have atEnd := sound _ (List.mem_of_getElem? found) rfl
    rw [(serve_of_atEnd atEnd _).2]
    exact atEnd
  | false =>
    have all : s.demand (.pull stream count) = count := by simp only [demand, found]
    apply Cursor.atEnd_of_length_take_lt
    show (s.serve (.pull stream count)).instructions.length < _
    rw [all]
    exact short

/-- Serving a request keeps what is known of the streams.  One that was at its end already keeps the
cursor where it is, and a new end is recorded by a pull that came up short. -/
theorem Sound.serve {s : Session} (sound : s.Sound) (request : Request) :
    (s.serve request).session.Sound := by
  have kept {stream : Stream} (member : stream ∈ s.streams) (ended : stream.ended = true) :
      (s.serve request).session.cursor.atEnd = true := by
    have atEnd := sound stream member ended
    rw [(serve_of_atEnd atEnd request).2]
    exact atEnd
  intro stream member ended
  change stream ∈ s.streamsAfter (s.serve request).instructions request at member
  cases request with
  | look | nextText | next | allTexts | listing => exact kept member ended
  | openStream kind =>
    rw [streamsAfter, List.mem_append, List.mem_singleton] at member
    cases member with
    | inl old => exact kept old ended
    | inr fresh =>
      -- A new stream has not ended.
      subst fresh
      cases ended
  | pull number count =>
    rw [streamsAfter] at member
    split at member
    · next short =>
      cases found : s.streams[number]? with
      | none =>
        rw [List.modify_eq_self (List.getElem?_eq_none_iff.mp found)] at member
        exact kept member ended
      | some opened => exact sound.atEnd_of_short found short
    · exact kept member ended

/-- Whoever is told that nothing is left can believe it. -/
theorem Sound.atEnd_of_saysEnd {s : Session} (sound : s.Sound) {request : Request}
    (told : SaysEnd request (s.serve request).reply) :
    (s.serve request).session.cursor.atEnd = true := by
  have answers := answers_serve s request
  have split := instructions_serve s request
  have everything (whole : s.demand request = s.cursor.bytesLeft) :
      (s.serve request).session.cursor.atEnd = true := by
    rw [Cursor.atEnd_iff_instructions]
    show (s.cursor.take (s.demand request)).2.instructions = []
    rw [Cursor.instructions_take, whole]
    exact List.drop_of_length_le (Cursor.length_instructions_le _)
  have nothing (one : s.demand request = 1) (none : (s.serve request).instructions = []) :
      (s.serve request).session.cursor.atEnd = true := by
    apply Cursor.atEnd_of_length_take_lt
    show (s.serve request).instructions.length < _
    rw [none, one]
    decide
  generalize reply : (s.serve request).reply = answer at told answers
  generalize pulled : (s.serve request).instructions = delivered at answers
  cases answers with
  | look | opened | unopened => exact absurd told id
  | nextText i =>
    -- An instruction was pulled, and its text is not the end mark.
    rw [pulled] at split
    have member : i ∈ s.cursor.instructions := by simp [split]
    exact absurd (Reply.text.inj told) (Cursor.text_ne_endMark member)
  | next i => cases told
  | noText | noInstruction => exact nothing rfl pulled
  | allTexts | listing => exact everything rfl
  | items found within => exact sound.atEnd_of_short found (pulled ▸ told)
  | texts found within =>
    apply sound.atEnd_of_short found
    rw [pulled]
    simpa [SaysEnd] using told

/-! ## Runs -/

/-- The session after requests. -/
def after (s : Session) (requests : List Request) : Session :=
  requests.foldl (fun s request => (s.serve request).session) s

/-- The instructions that requests obtain, in the order in which they obtain them. -/
def delivered (s : Session) (requests : List Request) : List Instruction :=
  (s.run requests).flatMap Delivery.instructions

theorem run_append (s : Session) (earlier later : List Request) :
    s.run (earlier ++ later) = s.run earlier ++ (s.after earlier).run later := by
  induction earlier generalizing s with
  | nil => rfl
  | cons request earlier ih =>
    simp only [List.cons_append, run]
    rw [ih]
    rfl

/-- A run splits what is left into what it delivers and what stays. -/
theorem instructions_after (s : Session) (requests : List Request) :
    s.cursor.instructions = s.delivered requests ++ (s.after requests).cursor.instructions := by
  induction requests generalizing s with
  | nil => rfl
  | cons request requests ih =>
    have step := ih (s.serve request).session
    rw [instructions_serve s request, step, ← List.append_assoc]
    rfl

/-- What serving one request keeps, a run keeps. -/
theorem after_preserves {motive : Session → Prop}
    (step : ∀ {s : Session} (request : Request), motive s → motive (s.serve request).session)
    {s : Session} (holds : motive s) (requests : List Request) : motive (s.after requests) := by
  induction requests generalizing s with
  | nil => exact holds
  | cons request requests ih => exact ih (step request holds)

theorem Sound.after {s : Session} (sound : s.Sound) (requests : List Request) :
    (s.after requests).Sound :=
  after_preserves (motive := Sound) (fun request holds => holds.serve request) sound requests

theorem start_after (s : Session) (requests : List Request) :
    (s.after requests).cursor.start = s.cursor.start :=
  after_preserves (motive := fun t => t.cursor.start = s.cursor.start)
    (fun _ same => (Cursor.start_take _ _).trans same) rfl requests

theorem stop_after (s : Session) (requests : List Request) :
    (s.after requests).cursor.stop = s.cursor.stop :=
  after_preserves (motive := fun t => t.cursor.stop = s.cursor.stop)
    (fun _ same => (Cursor.stop_take _ _).trans same) rfl requests

theorem start_le_offset_after (image : List UInt8) (start : Int) (stop : Option Int)
    (requests : List Request) :
    (Span.clamp image.length start stop).start ≤
      ((ofImage image start stop).after requests).cursor.offset := by
  have same := start_after (ofImage image start stop) requests
  have ordered := ((ofImage image start stop).after requests).cursor.start_le_offset
  rw [same] at ordered
  exact ordered

theorem stop_after_ofImage (image : List UInt8) (start : Int) (stop : Option Int)
    (requests : List Request) :
    ((ofImage image start stop).after requests).cursor.stop =
      (Span.clamp image.length start stop).stop :=
  (stop_after _ _).trans (Cursor.stop_ofImage image start stop)

/-- At the end nothing more is delivered, and the cursor stays. -/
theorem run_of_atEnd {s : Session} (ended : s.cursor.atEnd = true) (requests : List Request) :
    ∀ d ∈ s.run requests, d.instructions = [] ∧ d.session.cursor = s.cursor := by
  induction requests generalizing s with
  | nil =>
    intro d member
    cases member
  | cons request requests ih =>
    obtain ⟨nothing, stays⟩ := serve_of_atEnd ended request
    intro d member
    rw [run, List.mem_cons] at member
    cases member with
    | inl first =>
      rw [first]
      exact ⟨nothing, stays⟩
    | inr later =>
      rw [← stays] at ended ⊢
      exact ih ended d later

/-- Whatever is requested in whatever order, what is delivered is a first part of the instructions
that a fresh cursor delivers.  Opening a stream delivers nothing.  An answer that says that nothing
is left comes after all of them, and nothing comes after it. -/
theorem session_delivers_in_order (image : List UInt8) (start : Int) (stop : Option Int)
    (earlier : List Request) (request : Request) (later : List Request) :
    let span := Span.clamp image.length start stop
    let whole := (Cursor.ofImage image start stop).instructions
    let fresh := ofImage image start stop
    let before := fresh.after earlier
    let delivery := before.serve request
    let soFar := fresh.delivered earlier ++ delivery.instructions
    fresh.run (earlier ++ request :: later) =
        fresh.run earlier ++ delivery :: delivery.session.run later ∧
      Answers before.streams request delivery.reply delivery.instructions ∧
      soFar = whole.take soFar.length ∧
      (∀ kind, request = .openStream kind →
        delivery.instructions = [] ∧ delivery.session.cursor = before.cursor) ∧
      (SaysEnd request delivery.reply →
        soFar = whole ∧
          ∀ d ∈ delivery.session.run later,
            d.instructions = [] ∧ d.session.cursor = delivery.session.cursor) ∧
      span.start ≤ delivery.session.cursor.offset ∧
      delivery.session.cursor.offset ≤ span.stop := by
  intro span whole fresh before delivery soFar
  -- The session afterwards is one after a run too, so the bounds hold of it.
  have next : delivery.session = fresh.after (earlier ++ [request]) := by
    simp only [Session.after, List.foldl_append, List.foldl_cons, List.foldl_nil]
    rfl
  have split : whole = soFar ++ delivery.session.cursor.instructions := by
    have past : whole = fresh.delivered earlier ++ before.cursor.instructions :=
      instructions_after fresh earlier
    rw [past, instructions_serve before request, ← List.append_assoc]
  have sound : before.Sound := (sound_ofImage image start stop).after earlier
  refine ⟨run_append fresh earlier (request :: later), answers_serve before request, ?_, ?_, ?_,
    ?_, ?_⟩
  · rw [split, List.take_left]
  · rintro kind rfl
    exact ⟨rfl, rfl⟩
  · intro told
    have ended : delivery.session.cursor.atEnd = true := sound.atEnd_of_saysEnd told
    rw [split, Cursor.atEnd_iff_instructions.mp ended, List.append_nil]
    exact ⟨rfl, run_of_atEnd ended later⟩
  · rw [next]
    exact start_le_offset_after image start stop _
  · rw [next, ← stop_after_ofImage image start stop (earlier ++ [request])]
    exact Nat.le_add_right _ _

/-- A stream that is opened before other requests goes on behind them. -/
example :
    ((ofImage [0xA9, 0x41, 0xEA] 0 none).run
        [.openStream .texts, .nextText, .pull 0 5, .nextText]).map Delivery.reply =
      [.opened 0, .text "LDA #$41", .texts ["NOP"], .text ".END"] := by
  decide

end Session

end LinearSweep
