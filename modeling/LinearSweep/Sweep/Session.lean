import LinearSweep.Sweep.Listing

/-!
# Sessions

A session serves requests of several kinds from one cursor: single instructions, whole texts and
listings, and pulls from any number of streams.  A stream has no position of its own, but it ends
for good when a pull finds the cursor at the end.  The answer to a request is made of the
instructions that were pulled for it and of nothing else.
-/

namespace LinearSweep

inductive StreamKind where
  | instructions
  | texts
  deriving DecidableEq, Repr

structure Stream where
  kind : StreamKind
  /-- Whether it has come to its end.  It yields nothing from then on. -/
  ended : Bool := false
  deriving DecidableEq, Repr

inductive Request where
  /-- Nothing; the state of the session is looked at. -/
  | look
  | nextText
  | next
  | allTexts
  | listing (layout : Listing)
  | openStream (kind : StreamKind)
  /-- At most `count` items of the stream with a number. -/
  | pull (stream count : Nat)
  deriving DecidableEq, Repr

inductive Reply where
  | nothing
  | text (text : String)
  | instruction (instruction : Option Instruction)
  | texts (texts : List String)
  | instructions (instructions : List Instruction)
  | opened (stream : Nat)
  deriving DecidableEq, Repr

/-- A cursor and the streams that have been opened on it, in the order of their numbers. -/
structure Session where
  cursor : Cursor
  streams : List Stream := []

/-- What a request obtains: the instructions pulled for it, the answer made of them, and the session
afterwards. -/
structure Delivery where
  instructions : List Instruction
  reply : Reply
  session : Session

namespace Session

def ofImage (image : List UInt8) (start : Int) (stop : Option Int) : Session :=
  { cursor := Cursor.ofImage image start stop }

/-- The largest number of instructions that a request may pull. -/
def demand (s : Session) : Request → Nat
  | .look | .openStream _ => 0
  | .nextText | .next => 1
  | .allTexts | .listing _ => s.cursor.bytesLeft
  | .pull stream count =>
    match s.streams[stream]? with
    -- A stream that has ended does not look at the cursor any more.
    | some { ended := false, .. } => count
    | _ => 0

def reply (s : Session) (pulled : List Instruction) : Request → Reply
  | .look => .nothing
  | .nextText => .text ((pulled.head?.map Instruction.text).getD Listing.endMark)
  | .next => .instruction pulled.head?
  | .allTexts => .texts (Listing.texts pulled)
  | .listing layout => .text (layout.render pulled)
  | .openStream _ => .opened s.streams.length
  | .pull stream _ =>
    match s.streams[stream]? with
    | none => .nothing
    | some { kind := .instructions, .. } => .instructions pulled
    | some { kind := .texts, .. } => .texts (pulled.map Instruction.text)

def streamsAfter (s : Session) (pulled : List Instruction) : Request → List Stream
  | .openStream kind => s.streams ++ [{ kind }]
  | .pull stream count =>
    -- A stream from which more was asked for than was pulled has ended.
    if pulled.length < count then s.streams.modify stream ({ · with ended := true }) else s.streams
  | _ => s.streams

def serve (s : Session) (request : Request) : Delivery :=
  let (pulled, cursor) := s.cursor.take (s.demand request)
  { instructions := pulled
    reply := s.reply pulled request
    session := { cursor, streams := s.streamsAfter pulled request } }

def run (s : Session) : List Request → List Delivery
  | [] => []
  | request :: requests =>
    let delivery := s.serve request
    delivery :: delivery.session.run requests

end Session

end LinearSweep
