import DemandPaging.Pager.Access
import DemandPaging.Pager.Fork
import DemandPaging.Pager.Mapping
import DemandPaging.Pager.Segment
import DemandPaging.Pager.Stats

/-!
The calls that the virtual memory answers, as data. Everything a kernel can ask for is a `Call`, and
`Call.perform` is the program that answers it, so that a history of the virtual memory is a list of
calls.
-/

namespace DemandPaging

/-- A call to the virtual memory. -/
inductive Call where
  | createProcess (pid : Pid)
  | exitProcess (pid : Pid)
  | fork (parent child : Pid)
  | allocate (pid : Pid) (type : PageType) (va : Nat) (writable : Bool)
  /-- Takes over the handle that the load names. -/
  | allocateLazily (pid : Pid) (va : Nat) (writable : Bool) (load : LazyLoad)
  | loadSegment (pid : Pid) (file : FileId) (segment : Segment)
  | setupStack (pid : Pid)
  | setStackPointer (pid : Pid) (stackPointer : Nat)
  | stackPointer (pid : Pid)
  | claim (pid : Pid) (va : Nat)
  | handlePageFault (pid : Pid) (fault : PageFault)
  | map (pid : Pid) (base length : Nat) (writable : Bool) (file : FileId) (offset : Nat)
  | unmap (pid : Pid) (base : Nat)
  | readUser (pid : Pid) (va length : Nat)
  | writeUser (pid : Pid) (va : Nat) (bytes : Array UInt8)
  | pageType (pid : Pid) (va : Nat)
  | isResident (pid : Pid) (va : Nat)
  | stats
  | config
  deriving DecidableEq

/-- What a call answers. -/
inductive Answer where
  | done
  | address (address : Nat)
  | bytes (bytes : Array UInt8)
  | pageType (type : Option PageType)
  | resident (resident : Bool)
  | stats (stats : Stats)
  | config (config : Config)
  deriving DecidableEq

namespace Pager

def setStackPointer (pid : Pid) (stackPointer : Nat) : PagerM Unit := do
  let _ ← requireSpace pid
  modify fun pager => pager.modifySpace pid fun space => { space with stackPointer := stackPointer }

end Pager

namespace Call

def perform : Call → PagerM Answer
  | .createProcess pid => do
      Pager.createProcess pid
      pure .done
  | .exitProcess pid => do
      Pager.exitProcess pid
      pure .done
  | .fork parent child => do
      Pager.fork parent child
      pure .done
  | .allocate pid type va writable => do
      Pager.allocate pid type va writable
      pure .done
  | .allocateLazily pid va writable load => do
      Pager.allocateLazily pid va writable load
      pure .done
  | .loadSegment pid file segment => do
      Pager.loadSegment pid file segment
      pure .done
  | .setupStack pid => do
      Pager.setupStack pid
      pure .done
  | .setStackPointer pid address => do
      Pager.setStackPointer pid address
      pure .done
  | .stackPointer pid => do
      let space ← Pager.requireSpace pid
      pure (.address space.stackPointer)
  | .claim pid va => do
      Pager.claim pid va
      pure .done
  | .handlePageFault pid fault => do
      Pager.handlePageFault pid fault
      pure .done
  | .map pid base length writable file offset => do
      let address ← Pager.map pid base length writable file offset
      pure (.address address)
  | .unmap pid base => do
      Pager.unmap pid base
      pure .done
  | .readUser pid va length => do
      let bytes ← Pager.readUser pid va length
      pure (.bytes bytes)
  | .writeUser pid va bytes => do
      Pager.writeUser pid va bytes
      pure .done
  | .pageType pid va => do
      let space ← Pager.requireSpace pid
      pure (.pageType ((space.page? va).map Page.type))
  | .isResident pid va => do
      let space ← Pager.requireSpace pid
      pure (.resident ((space.page? va).any Page.isResident))
  | .stats => do
      let pager ← get
      let _ ← PagerM.subtractWords pager.swap.slotCount pager.swap.used.count
      pure (.stats pager.stats)
  | .config => do
      pure (.config (← get).config)

end Call

end DemandPaging
