import DemandPaging.Pager.Process

/-!
Page faults. A fault on a page that may be accessed makes the page resident; a fault where there is no
page grows the stack if it looks like a push; everything else is an error.
-/

namespace DemandPaging

/-- A page fault as the trap handler reports it. -/
structure PageFault where
  /-- The address that was accessed. -/
  address : Nat
  isWrite : Bool := false
  /-- Whether the page had a page table entry that did not allow the access. -/
  isPresent : Bool := false
  /-- The stack pointer at the time of the fault. -/
  stackPointer : Nat
  deriving DecidableEq

namespace Config

/-- Whether a fault is an access to the stack: inside the stack area, and not further below the stack
pointer than a push reaches. -/
def isStackAccess (config : Config) (fault : PageFault) : Bool :=
  decide (fault.address < config.stackTop) && decide (config.stackLimit ≤ fault.address) &&
    decide (fault.stackPointer ≤ min (fault.address + config.stackSlack) (wordLimit - 1))

end Config

namespace Pager

def growStack (pid : Pid) (address : Nat) : PagerM Unit :=
  reservePage pid
    { va := pageBase address, writable := true, isStack := true, kind := .pending .zero }

def resolveFault (pid : Pid) (fault : PageFault) : PagerM Unit := do
  modify fun pager => pager.modifyCounters fun counters =>
    { counters with pageFaults := counters.pageFaults + 1 }
  checkUserAddress fault.address
  let space ← requireSpace pid
  match space.page? fault.address with
  | some page =>
      if fault.isWrite && !page.writable then PagerM.deny fault.address .readOnly
      else if page.isResident then pure ()
      else claim pid fault.address
  | none =>
      if (← get).config.isStackAccess fault then
        growStack pid fault.address
        claim pid fault.address
      else
        PagerM.deny fault.address .unmapped

/-- Resolves a page fault of a process, which ends if that fails with a fatal error. -/
def handlePageFault (pid : Pid) (fault : PageFault) : PagerM Unit :=
  killOnFatal pid (resolveFault pid fault)

end Pager

end DemandPaging
