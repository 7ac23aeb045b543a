import DemandPaging.Pager.Residency

/-!
The life of processes: creation with empty memory, exit, and the end of a process that met an error it
cannot survive.
-/

namespace DemandPaging

namespace Pager

/-- Creates a process without pages, whose stack pointer is at the top of the stack. -/
def createProcess (pid : Pid) : PagerM Unit := do
  let pager ← get
  if pager.spaces.contains pid then
    PagerM.fail (.processExists pid)
  else
    set { pager with
      spaces := pager.spaces.insert pid (AddressSpace.empty pager.config.stackTop) }

def discardPages (pid : Pid) : List Page → PagerM Unit
  | [] => pure ()
  | page :: rest => do
      discardPage pid page
      discardPages pid rest

def closeRegions (pager : Pager) (regions : List Region) : Pager :=
  regions.foldl (fun pager region => pager.closeFile region.file) pager

def eraseSpace (pager : Pager) (pid : Pid) : Pager :=
  { pager with spaces := pager.spaces.erase pid }

/-- Ends a process: its pages are discarded from the lowest on, then the handles of its regions are
closed. -/
def exitProcess (pid : Pid) : PagerM Unit := do
  let space ← requireSpace pid
  discardPages pid space.pageList
  modify fun pager => (pager.closeRegions space.regionList).eraseSpace pid

/-- Runs a program on behalf of a process, which ends if the program fails with a fatal error. -/
def killOnFatal (pid : Pid) (program : PagerM α) : PagerM α := do
  match ← PagerM.attempt program with
  | .ok answer => pure answer
  | .error error =>
      if error.isFatal && (← get).spaces.contains pid then exitProcess pid
      PagerM.fail error

end Pager

end DemandPaging
