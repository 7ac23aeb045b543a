import DemandPaging.Eviction.Clock
import DemandPaging.Eviction.Fifo

/-!
The replacement policies behind one interface. A policy is told when a frame is handed out and when it
becomes free, and chooses a victim among the candidates, whose accessed bits it may take away.
-/

namespace DemandPaging

/-- The kinds of replacement policy. -/
inductive PolicyKind where
  | clock
  | fifo
  deriving DecidableEq

/-- A replacement policy with its state. -/
inductive Policy where
  | clock (clock : Clock)
  | fifo (fifo : Fifo)
  deriving DecidableEq

namespace Policy

def create : PolicyKind → Policy
  | .clock => clock {}
  | .fifo => fifo {}

def acquired (policy : Policy) (frame : Nat) : Policy :=
  match policy with
  | clock state => clock state
  | fifo state => fifo (state.acquired frame)

def released (policy : Policy) (frame : Nat) : Policy :=
  match policy with
  | clock state => clock state
  | fifo state => fifo (state.released frame)

/-- Lets the policy choose a victim; the candidates come back with the accessed bits it left. -/
def select (policy : Policy) (candidates : Candidates) : Option Nat × Candidates × Policy :=
  match policy with
  | clock state =>
      let (victim, candidates, state) := state.select candidates
      (victim, candidates, clock state)
  | fifo state =>
      let (victim, state) := state.select candidates
      (victim, candidates, fifo state)

/-- The first frame that the choice asks about although there is no such frame. The hand of a clock
never leaves the pool. -/
def stray? (policy : Policy) (candidates : Candidates) : Option Nat :=
  match policy with
  | clock _ => none
  | fifo state => state.stray? candidates

end Policy

end DemandPaging
