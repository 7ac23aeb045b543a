import DemandPaging.Address
import DemandPaging.Eviction.Policy

/-!
Exercises of a replacement policy on its own, against candidates whose bits the exercise sets.
-/

namespace DemandPaging

/-- One step of an exercise of a replacement policy. -/
inductive PolicyStep where
  | malformed
  | acquired (frame : Nat)
  | released (frame : Nat)
  | setEvictable (frame : Nat) (on : Bool)
  | setAccessed (frame : Nat) (on : Bool)
  | select
  deriving DecidableEq

/-- What a step of an exercise of a replacement policy answers. -/
inductive PolicyReply where
  | done
  | refused
  /-- The victim, and the accessed bits that the policy left, the lowest frame first. -/
  | selected (victim : Option Nat) (accessed : String)
  deriving DecidableEq

/-- A replacement policy with its candidates. -/
structure PolicyDrill where
  policy : Policy
  candidates : Candidates

namespace PolicyDrill

/-- A policy that was told nothing, against candidates that are evictable and not accessed. -/
def create (kind : PolicyKind) (frameCount : Nat) : PolicyDrill where
  policy := Policy.create kind
  candidates := Array.replicate frameCount {}

def accessedText (candidates : Candidates) : String :=
  String.ofList (candidates.toList.map fun candidate => if candidate.accessed then '1' else '0')

/-- Changes a candidate, if the frame exists. -/
def change (drill : PolicyDrill) (frame : Nat) (candidates : Candidates) :
    PolicyDrill × PolicyReply :=
  if frame < drill.candidates.size then ({ drill with candidates := candidates }, .done)
  else (drill, .refused)

def step (drill : PolicyDrill) : PolicyStep → PolicyDrill × PolicyReply
  | .malformed => (drill, .refused)
  | .acquired frame => ({ drill with policy := drill.policy.acquired frame }, .done)
  | .released frame => ({ drill with policy := drill.policy.released frame }, .done)
  | .setEvictable frame on => drill.change frame (drill.candidates.setEvictable frame on)
  | .setAccessed frame on => drill.change frame (drill.candidates.setAccessed frame on)
  | .select =>
      let (victim, candidates, policy) := drill.policy.select drill.candidates
      (⟨policy, candidates⟩, .selected victim (accessedText candidates))

def run (drill : PolicyDrill) : List PolicyStep → List PolicyReply
  | [] => []
  | step :: rest =>
      let (drill, reply) := drill.step step
      reply :: drill.run rest

end PolicyDrill

end DemandPaging
