import DemandPaging.Eviction.Policy
import DemandPaging.Image

/-!
The pool of physical frames: their content, the page each belongs to, the frames that are free, and
the policy that chooses which frame is taken from its page when none is.
-/

namespace DemandPaging

/-- The page that a frame belongs to. -/
structure Owner where
  pid : Pid
  va : Nat
  deriving DecidableEq

/-- A physical frame. -/
structure Frame where
  image : Image
  owner : Option Owner := none
  /-- A pinned frame is never taken from its page. -/
  pinned : Bool := false

/-- The pool of physical frames. -/
structure FramePool where
  frames : Array Frame
  /-- The free frames, the one to hand out next first. -/
  free : List Nat
  policy : Policy

namespace FramePool

/-- A pool of zeroed free frames, handed out from the lowest on. -/
def create (frameCount : Nat) (kind : PolicyKind) : FramePool where
  frames := Array.replicate frameCount { image := Image.zero }
  free := List.range frameCount
  policy := Policy.create kind

def frameCount (pool : FramePool) : Nat :=
  pool.frames.size

def freeCount (pool : FramePool) : Nat :=
  pool.free.length

def image (pool : FramePool) (frame : Nat) : Image :=
  match pool.frames[frame]? with
  | some entry => entry.image
  | none => Image.zero

def owner? (pool : FramePool) (frame : Nat) : Option Owner :=
  match pool.frames[frame]? with
  | some entry => entry.owner
  | none => none

def modify (pool : FramePool) (frame : Nat) (change : Frame → Frame) : FramePool :=
  { pool with frames := pool.frames.modify frame change }

def setImage (pool : FramePool) (frame : Nat) (image : Image) : FramePool :=
  pool.modify frame fun entry => { entry with image := image }

def pin (pool : FramePool) (frame : Nat) : FramePool :=
  pool.modify frame fun entry => { entry with pinned := true }

def unpin (pool : FramePool) (frame : Nat) : FramePool :=
  pool.modify frame fun entry => { entry with pinned := false }

/-- Hands a frame to a page; it stays pinned until its content is in place. -/
def assign (pool : FramePool) (frame : Nat) (owner : Owner) : FramePool :=
  { pool.modify frame fun entry => { entry with owner := some owner, pinned := true } with
    policy := pool.policy.acquired frame }

def takeFree? (pool : FramePool) (owner : Owner) : Option (Nat × FramePool) :=
  match pool.free with
  | [] => none
  | frame :: rest => some (frame, { pool with free := rest }.assign frame owner)

/-- Takes a frame from its page and makes it the next one to hand out. -/
def release (pool : FramePool) (frame : Nat) : FramePool :=
  { pool.modify frame fun entry => { entry with owner := none, pinned := false } with
    policy := pool.policy.released frame
    free := frame :: pool.free }

/-! ## Physical memory -/

/-- The bytes at a physical address, inside one frame. -/
def load (pool : FramePool) (address length : Nat) : Array UInt8 :=
  (pool.image (address / pageSize)).slice (address % pageSize) length

/-- Puts bytes to a physical address, inside one frame. -/
def store (pool : FramePool) (address : Nat) (bytes : Array UInt8) : FramePool :=
  pool.modify (address / pageSize) fun entry =>
    { entry with image := entry.image.overlay (address % pageSize) bytes }

/-! ## Single frames -/

theorem frameCount_modify (pool : FramePool) (frame : Nat) (change : Frame → Frame) :
    (pool.modify frame change).frameCount = pool.frameCount := by
  simp only [frameCount, modify, Array.size_modify]

theorem getElem?_modify (pool : FramePool) (frame other : Nat) (change : Frame → Frame) :
    (pool.modify frame change).frames[other]? =
      if frame = other then pool.frames[other]?.map change else pool.frames[other]? := by
  simp only [modify, Array.getElem?_modify]

theorem image_setImage (pool : FramePool) (frame other : Nat) (image : Image)
    (inside : frame < pool.frameCount) :
    (pool.setImage frame image).image other = if frame = other then image else pool.image other := by
  simp only [FramePool.image, setImage, getElem?_modify]
  by_cases same : frame = other
  · subst same
    simp only [frameCount] at inside
    simp [inside]
  · simp [same]

theorem owner?_assign (pool : FramePool) (frame other : Nat) (owner : Owner)
    (inside : frame < pool.frameCount) :
    (pool.assign frame owner).owner? other =
      if frame = other then some owner else pool.owner? other := by
  simp only [owner?, assign, getElem?_modify]
  by_cases same : frame = other
  · subst same
    simp only [frameCount] at inside
    simp [inside]
  · simp [same]

theorem owner?_release (pool : FramePool) (frame other : Nat) :
    (pool.release frame).owner? other = if frame = other then none else pool.owner? other := by
  simp only [owner?, release, getElem?_modify]
  by_cases same : frame = other
  · subst same
    cases found : pool.frames[frame]? <;> simp
  · simp [same]

end FramePool

end DemandPaging
