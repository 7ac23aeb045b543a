/-!
What a replacement policy sees of the frame pool: for every frame whether it may be chosen and whether
its page was accessed since the policy last asked.
-/

namespace DemandPaging

/-- A frame in the eyes of a replacement policy. -/
structure Candidate where
  /-- Whether the frame may be chosen. -/
  evictable : Bool := true
  /-- Whether the page in the frame was accessed. -/
  accessed : Bool := false
  deriving DecidableEq

/-- All frames in the eyes of a replacement policy, in the order of their numbers. -/
abbrev Candidates := Array Candidate

namespace Candidates

/-- Whether a frame may be chosen; a number without a frame may not. -/
def evictable (candidates : Candidates) (frame : Nat) : Bool :=
  match candidates[frame]? with
  | some candidate => candidate.evictable
  | none => false

def accessed (candidates : Candidates) (frame : Nat) : Bool :=
  match candidates[frame]? with
  | some candidate => candidate.accessed
  | none => false

def setEvictable (candidates : Candidates) (frame : Nat) (on : Bool) : Candidates :=
  candidates.modify frame fun candidate => { candidate with evictable := on }

def setAccessed (candidates : Candidates) (frame : Nat) (on : Bool) : Candidates :=
  candidates.modify frame fun candidate => { candidate with accessed := on }

end Candidates

end DemandPaging
