import LinearSweep.Sweep.Cursor

/-!
# Listings

A listing has one line for each instruction and may finish with a mark that says that the range was
swept to its end.
-/

namespace LinearSweep

structure Listing where
  /-- The address at which the image is loaded. -/
  base : Int := 0
  showBytes : Bool := true
  marksEnd : Bool := true
  deriving DecidableEq, Repr

namespace Listing

def endMark : String := ".END"

def lines (layout : Listing) (instructions : List Instruction) : List String :=
  instructions.map (Instruction.line layout.base layout.showBytes)

def render (layout : Listing) (instructions : List Instruction) : String :=
  "\n".intercalate
    (layout.lines instructions ++ if layout.marksEnd then [endMark] else [])

/-- The texts of instructions, with the end mark behind them. -/
def texts (instructions : List Instruction) : List String :=
  instructions.map Instruction.text ++ [endMark]

end Listing

namespace Cursor

/-- The texts of the instructions that are left, with the end mark behind them. -/
def texts (c : Cursor) : List String :=
  Listing.texts c.instructions

def listing (c : Cursor) (layout : Listing) : String :=
  layout.render c.instructions

end Cursor

end LinearSweep
