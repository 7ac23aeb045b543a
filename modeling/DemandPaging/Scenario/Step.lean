import DemandPaging.Pager.Call

/-!
The steps of a scenario. Most are calls to the virtual memory; others disturb it from outside, by making
files and device fail or by changing page tables, or look at what it left in files and on the device.
-/

namespace DemandPaging

/-- Whether a reserved file page is a segment page or a page of a mapped file. -/
inductive LoadKind where
  | segment
  | mapped
  deriving DecidableEq

namespace LoadKind

def load (kind : LoadKind) (range : FileRange) : LazyLoad :=
  match kind with
  | segment => .segment range
  | mapped => .mapped range

end LoadKind

/-- One step of a scenario. -/
inductive Step where
  /-- A step that could not be understood. -/
  | malformed
  /-- A call that needs no file. -/
  | call (call : Call)
  /-- A call that is given the scenario's own handle of a file. -/
  | callWithFile (file : FileId) (call : Call)
  /-- Reserves a page that loads from a file, through a handle opened for it. -/
  | allocateFromFile (pid : Pid) (va : Nat) (writable : Bool) (kind : LoadKind) (range : FileRange)
  /-- Shows pages of a process. -/
  | marks (pid : Pid) (va count : Nat)
  | fileContent (file : FileId)
  | fileHandles (file : FileId)
  | resizeFile (file : FileId) (length : Nat)
  | reopenBudget (file : FileId) (count : Option Nat)
  | readBudget (file : FileId) (count : Option Nat)
  | writeBudget (file : FileId) (count : Option Nat)
  | closeFile (file : FileId)
  | unlinkFile (file : FileId)
  | failDevice (on : Bool)
  | deviceBudget (count : Option Nat)
  | sectors (first count : Nat)
  | setBits (pid : Pid) (va : Nat) (dirty accessed : Option Bool)
  | clearEntry (pid : Pid) (va : Nat)
  | installEntry (pid : Pid) (va frame : Nat) (writable : Bool)
  deriving DecidableEq

/-- What a step of a scenario answers. -/
inductive Reply where
  | done
  /-- The step was malformed or does not apply; nothing was changed. -/
  | refused
  | answer (answer : Answer)
  | failed (error : PagingError)
  | halted (reason : Halt)
  | reopenFailed
  | deviceFailed
  | noTable
  | mappingRefused
  | bytes (bytes : Array UInt8)
  | handles (count : Option Nat)
  | marks (entries : Option Nat) (marks : List String)
  deriving DecidableEq

end DemandPaging
