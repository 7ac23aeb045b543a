import DemandPaging.Pager.State

/-!
Frames as programs reach them. The number of a frame is an index into the frame table and its content a
range of physical memory; both are checked at every access.
-/

namespace DemandPaging

namespace Pager

/-! ## The frame table -/

def checkFrame (frame : Nat) : PagerM Unit := do
  PagerM.checkIndex frame (← get).frames.frameCount

def frameOwner (frame : Nat) : PagerM (Option Owner) := do
  checkFrame frame
  pure ((← get).frames.owner? frame)

def assignFrame (frame : Nat) (owner : Owner) : PagerM Unit := do
  checkFrame frame
  modify fun pager => pager.modifyFrames fun frames => frames.assign frame owner

/-- Takes a frame from its page and makes it the next one to hand out. -/
def releaseFrame (frame : Nat) : PagerM Unit := do
  let owner ← frameOwner frame
  PagerM.insist owner.isSome (.frameIsOwned frame)
  modify fun pager => pager.modifyFrames fun frames => frames.release frame

def pinFrame (frame : Nat) : PagerM Unit := do
  checkFrame frame
  modify fun pager => pager.modifyFrames fun frames => frames.pin frame

def unpinFrame (frame : Nat) : PagerM Unit := do
  checkFrame frame
  modify fun pager => pager.modifyFrames fun frames => frames.unpin frame

/-! ## Physical memory -/

/-- Halts unless the bytes of a frame lie inside the pool. -/
def checkBytes (frame : Nat) : PagerM Unit := do
  PagerM.checkRange (frameBase frame) (frameBase frame + pageSize)
    ((← get).frames.frameCount * pageSize)

def frameImage (frame : Nat) : PagerM Image := do
  checkBytes frame
  pure ((← get).frames.image frame)

/-- Halts unless a physical range lies inside one frame and inside the pool. -/
def checkPhysical (address length : Nat) : PagerM Unit := do
  PagerM.insist (decide (address % pageSize + length ≤ pageSize)) .staysInFrame
  PagerM.checkRange address (address + length) ((← get).frames.frameCount * pageSize)

end Pager

end DemandPaging
