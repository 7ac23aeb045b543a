import DemandPaging.Eviction.Candidate

/-!
Second chance replacement. A hand goes round the frames; a frame that was accessed loses its bit and is
passed over, and the first frame without the bit is the victim. One round clears every bit, so a second
round without a victim shows that no frame may be chosen.
-/

namespace DemandPaging

/-- The clock policy with the frame its hand points to. -/
structure Clock where
  hand : Nat := 0
  deriving DecidableEq

namespace Clock

def advance (clock : Clock) (frameCount : Nat) : Clock :=
  ⟨(clock.hand + 1) % frameCount⟩

/-- Looks at the given number of frames from the hand on and stops at the first victim. -/
def sweep (clock : Clock) (candidates : Candidates) : Nat → Option Nat × Candidates × Clock
  | 0 => (none, candidates, clock)
  | rounds + 1 =>
      let frame := clock.hand % candidates.size
      let moved := clock.advance candidates.size
      if candidates.evictable frame then
        if candidates.accessed frame then
          moved.sweep (candidates.setAccessed frame false) rounds
        else
          (some frame, candidates, moved)
      else
        moved.sweep candidates rounds

def select (clock : Clock) (candidates : Candidates) : Option Nat × Candidates × Clock :=
  clock.sweep candidates (2 * candidates.size)

end Clock

end DemandPaging
