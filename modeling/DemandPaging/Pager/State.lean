import DemandPaging.AddressSpace
import DemandPaging.Config
import DemandPaging.Failure
import DemandPaging.File.Table
import DemandPaging.Pager.Journal
import DemandPaging.SwapSpace

/-!
The state of the virtual memory of all processes, and the programs that change it. A program either
answers, or ends with an error and leaves what it changed so far, or halts the kernel.
-/

namespace DemandPaging

/-- Paging activity since the start. -/
structure Counters where
  evictions : Nat := 0
  swapIns : Nat := 0
  swapOuts : Nat := 0
  writeBacks : Nat := 0
  pageFaults : Nat := 0
  deriving DecidableEq

/-- The virtual memory of all processes, with the frames, the swap space and the files behind it. -/
structure Pager where
  config : Config
  frames : FramePool
  swap : SwapSpace
  files : FileTable
  /-- The user memory of each process. -/
  spaces : Std.ExtTreeMap Pid AddressSpace
  counters : Counters
  /-- What happened so far, the latest first. -/
  journal : List Activity := []

/-- Why a program did not answer. -/
inductive Stop where
  | failed (error : PagingError)
  | halted (halt : Halt)
  deriving DecidableEq

abbrev PagerM := EStateM Stop Pager

namespace PagerM

def fail (error : PagingError) : PagerM α :=
  throw (.failed error)

/-- Ends because an argument or the bookkeeping is at fault. -/
def reject (fault : ArgumentFault) : PagerM α :=
  fail (.invalidArgument fault)

def deny (va : Nat) (reason : AccessViolation) : PagerM α :=
  fail (.invalidAccess va reason)

def halt (reason : Halt) : PagerM α :=
  throw (.halted reason)

/-- Halts unless something that is taken for granted holds. -/
def insist (holds : Bool) (assertion : Assertion) : PagerM Unit :=
  if holds then pure () else halt (.assertionFailed assertion)

def checkIndex (index length : Nat) : PagerM Unit :=
  if index < length then pure () else halt (.indexOutOfRange index length)

/-- Halts unless a range lies inside the bytes that exist. -/
def checkRange (start stop length : Nat) : PagerM Unit :=
  if stop ≤ length then pure () else halt (.outOfRange start stop length)

/-- The sum of two words by the arithmetic of the build. -/
def addWords (left right : Nat) : PagerM Nat := do
  if (← get).config.arithmetic = .checked ∧ wordLimit ≤ left + right then halt .sumTooLarge
  else pure ((left + right) % wordLimit)

/-- The difference of two words by the arithmetic of the build. -/
def subtractWords (minuend subtrahend : Nat) : PagerM Nat := do
  if (← get).config.arithmetic = .checked ∧ minuend < subtrahend then halt .negativeDifference
  else pure ((minuend + wordLimit - subtrahend) % wordLimit)

/-- Runs a program and hands its error over as a value; what the program changed stays changed. -/
def attempt (program : PagerM α) : PagerM (Except PagingError α) := fun pager =>
  match program pager with
  | .ok answer pager => .ok (.ok answer) pager
  | .error (.failed error) pager => .ok (.error error) pager
  | .error (.halted reason) pager => .error (.halted reason) pager

theorem attempt_of_ok {program : PagerM α} {before after : Pager} {answer : α}
    (run : program before = .ok answer after) :
    attempt program before = .ok (.ok answer) after := by
  simp only [attempt, run]

theorem attempt_of_failed {program : PagerM α} {before after : Pager} {error : PagingError}
    (run : program before = .error (.failed error) after) :
    attempt program before = .ok (.error error) after := by
  simp only [attempt, run]

theorem attempt_of_halted {program : PagerM α} {before after : Pager} {reason : Halt}
    (run : program before = .error (.halted reason) after) :
    attempt program before = .error (.halted reason) after := by
  simp only [attempt, run]

end PagerM

namespace Pager

def create (config : Config) (kind : PolicyKind) (device : Device) (files : FileTable) : Pager where
  config := config
  frames := FramePool.create config.frameCount kind
  swap := SwapSpace.ofDevice device
  files := files
  spaces := ∅
  counters := {}

/-! ## Looking things up -/

def space? (pager : Pager) (pid : Pid) : Option AddressSpace :=
  pager.spaces[pid]?

def page? (pager : Pager) (pid : Pid) (va : Nat) : Option Page :=
  match pager.space? pid with
  | some space => space.page? va
  | none => none

/-- The page table of a process, empty if there is no such process. -/
def table (pager : Pager) (pid : Pid) : PageTable :=
  match pager.space? pid with
  | some space => space.table
  | none => PageTable.empty

/-! ## Changing parts -/

def modifySpace (pager : Pager) (pid : Pid) (change : AddressSpace → AddressSpace) : Pager :=
  { pager with spaces := pager.spaces.modify pid change }

def modifyTable (pager : Pager) (pid : Pid) (change : PageTable → PageTable) : Pager :=
  pager.modifySpace pid fun space => { space with table := change space.table }

/-- Changes the page of a process that contains an address. -/
def modifyPage (pager : Pager) (pid : Pid) (va : Nat) (change : Page → Page) : Pager :=
  pager.modifySpace pid fun space =>
    { space with pages := space.pages.modify (pageBase va) change }

def modifyFrames (pager : Pager) (change : FramePool → FramePool) : Pager :=
  { pager with frames := change pager.frames }

def modifyCounters (pager : Pager) (change : Counters → Counters) : Pager :=
  { pager with counters := change pager.counters }

def note (pager : Pager) (activity : Activity) : Pager :=
  { pager with journal := activity :: pager.journal }

def releaseSlot (pager : Pager) (slot : Nat) : Pager :=
  { pager with swap := pager.swap.release slot }

def closeFile (pager : Pager) (file : FileId) : Pager :=
  { pager with files := pager.files.close file }

/-! ## Asking for parts -/

def requireSpace (pid : Pid) : PagerM AddressSpace := do
  match (← get).space? pid with
  | some space => pure space
  | none => PagerM.fail (.noSuchProcess pid)

def checkUserAddress (va : Nat) : PagerM Unit := do
  if va = 0 then PagerM.deny va .nullAddress
  else if (← get).config.kernelBase ≤ va then PagerM.deny va .kernelAddress
  else pure ()

/-- Opens one more handle of a file and tells whether that succeeded. -/
def reopenFile (file : FileId) : PagerM Bool := do
  let pager ← get
  let (files, opened) := pager.files.reopen file
  set { pager with files := files }
  pure opened

end Pager

end DemandPaging
