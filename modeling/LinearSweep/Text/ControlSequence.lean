/-!
# Control sequences

A control sequence tells a terminal how to show what follows.  It consists of the escape character,
an opening bracket, parameters and a letter.  What is printed elsewhere goes without its control
sequences: they are found from left to right, and what closes up around one is not searched again.
-/

namespace LinearSweep.Text

def escapeChar : Char := '\x1b'

def isParameterChar (c : Char) : Bool :=
  c = ';' || c = '?' || c.isDigit

/-- What stands behind a control sequence, if the text completes one whose escape character came
before it. -/
def afterSequence? : List Char → Option (List Char)
  | '[' :: text =>
    match text.dropWhile isParameterChar with
    | letter :: text => if letter.isAlpha then some text else none
    | [] => none
  | _ => none

/-- What is printed of an escape character and the text behind it, up to the next one. -/
def withoutSequence (text : List Char) : List Char :=
  (afterSequence? text).getD (escapeChar :: text)

def withoutSequences (text : List Char) : List Char :=
  -- An escape character stands nowhere in a control sequence but at its front.
  match text.splitOn escapeChar with
  | [] => []
  | first :: others => first ++ others.flatMap withoutSequence

def printed (text : String) : String :=
  String.ofList (withoutSequences text.toList)

theorem withoutSequences_of_not_mem {text : List Char} (h : escapeChar ∉ text) :
    withoutSequences text = text := by
  simp [withoutSequences, List.splitOn_eq_singleton h]

theorem printed_of_not_mem {text : String} (h : escapeChar ∉ text.toList) :
    printed text = text := by
  simp [printed, withoutSequences_of_not_mem h]

end LinearSweep.Text
