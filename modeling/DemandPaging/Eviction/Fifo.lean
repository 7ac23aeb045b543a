import DemandPaging.Eviction.Candidate

/-!
First in, first out replacement. The frames in use stand in a queue in the order in which they were
handed out, and the first of them that may be chosen is the victim.
-/

namespace DemandPaging

/-- The queue of the frames in use, the one handed out longest ago first. -/
structure Fifo where
  queue : List Nat := []
  deriving DecidableEq

namespace Fifo

def acquired (fifo : Fifo) (frame : Nat) : Fifo :=
  ⟨fifo.queue ++ [frame]⟩

def released (fifo : Fifo) (frame : Nat) : Fifo :=
  ⟨fifo.queue.filter fun waiting => waiting != frame⟩

/-- Chooses the first frame that may be chosen and takes it out of the queue; its next owner puts it
back. -/
def select (fifo : Fifo) (candidates : Candidates) : Option Nat × Fifo :=
  match fifo.queue.find? fun frame => candidates.evictable frame with
  | none => (none, fifo)
  | some victim => (some victim, ⟨fifo.queue.erase victim⟩)

/-- The first frame that the choice asks about although there is no such frame. -/
def stray? (fifo : Fifo) (candidates : Candidates) : Option Nat :=
  (fifo.queue.takeWhile fun frame => !candidates.evictable frame).find? fun frame =>
    decide (candidates.size ≤ frame)

end Fifo

end DemandPaging
