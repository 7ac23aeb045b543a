/-!
Admission of calls to a store that may fail. A gate is asked once per call and decides by the number
of calls it was asked before, so every pattern of failures is the schedule of some gate.
-/

namespace DemandPaging

/-- A schedule of the calls that go through. -/
structure Gate where
  /-- Whether the call with a given number goes through. -/
  admits : Nat → Bool
  /-- The number of calls so far. -/
  asked : Nat := 0

namespace Gate

def always : Gate where
  admits _ := true

/-- The gate that lets the next `count` calls through and refuses every later one. -/
def budget (count : Nat) : Gate where
  admits call := decide (call < count)

def ofBudget : Option Nat → Gate
  | none => always
  | some count => budget count

def isOpen (gate : Gate) : Bool :=
  gate.admits gate.asked

def next (gate : Gate) : Gate :=
  { gate with asked := gate.asked + 1 }

end Gate

end DemandPaging
