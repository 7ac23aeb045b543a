import DemandPaging.Address

/-!
The ways in which an operation on virtual memory ends without success. A `PagingError` is an answer
to the caller; a `Halt` stops the kernel and leaves no state to go on from.
-/

namespace DemandPaging

/-! ## Errors -/

/-- Why an access was refused. -/
inductive AccessViolation where
  | nullAddress
  | kernelAddress
  | unmapped
  | readOnly
  deriving DecidableEq

namespace AccessViolation

def message : AccessViolation → String
  | nullAddress => "null address"
  | kernelAddress => "kernel address"
  | unmapped => "no page mapped"
  | readOnly => "write to read-only page"

end AccessViolation

/-- What was wrong with the arguments of an operation, or with the bookkeeping it relied on. -/
inductive ArgumentFault where
  | filePageWithoutFile
  | segmentSizeOverflows
  | segmentSizeUnaligned
  | segmentAddressUnaligned
  | segmentOffsetUnaligned
  | segmentExceedsAddressSpace
  | mappingAddressUnaligned
  | mappingLengthZero
  | fileOffsetUnaligned
  | fileEmpty
  | fileRangeTooLarge
  | tooFewFramesToCopy
  | victimFrameFree
  | victimPageMissing
  | pageNotResident
  | pageNotInitialized
  | pageWithoutFrame
  | parentPageVanished
  | parentPageNotResident
  | copyNotResident
  | regionVanished
  deriving DecidableEq

namespace ArgumentFault

def message : ArgumentFault → String
  | filePageWithoutFile => "file pages need a backing file"
  | segmentSizeOverflows => "segment size overflows"
  | segmentSizeUnaligned => "segment size is not a multiple of the page size"
  | segmentAddressUnaligned => "segment address is not page aligned"
  | segmentOffsetUnaligned => "segment offset is not page aligned"
  | segmentExceedsAddressSpace => "segment exceeds the address space"
  | mappingAddressUnaligned => "mapping address is not page aligned"
  | mappingLengthZero => "mapping length is zero"
  | fileOffsetUnaligned => "file offset is not page aligned"
  | fileEmpty => "file is empty"
  | fileRangeTooLarge => "file range exceeds the file size limit"
  | tooFewFramesToCopy => "copying pages needs at least two frames"
  | victimFrameFree => "victim frame is free"
  | victimPageMissing => "victim frame has no page"
  | pageNotResident => "page is not resident"
  | pageNotInitialized => "page is not initialized yet"
  | pageWithoutFrame => "page has no frame attached"
  | parentPageVanished => "parent page vanished"
  | parentPageNotResident => "parent page is not resident"
  | copyNotResident => "page is not resident after claim"
  | regionVanished => "mapping region vanished"

end ArgumentFault

/-- The error that an operation on virtual memory answers with. -/
inductive PagingError where
  | invalidAccess (address : Nat) (reason : AccessViolation)
  | io (address : Nat)
  | mappingFailed (address : Nat)
  | swapExhausted
  | invalidArgument (fault : ArgumentFault)
  | alreadyMapped (address : Nat)
  | noSuchProcess (pid : Pid)
  | processExists (pid : Pid)
  | busy
  deriving DecidableEq

namespace PagingError

def message : PagingError → String
  | invalidAccess address reason =>
      "invalid access at " ++ virtText address ++ ": " ++ reason.message
  | io address => "i/o error while paging " ++ virtText address
  | mappingFailed address => "could not install mapping for " ++ virtText address
  | swapExhausted => "no free swap slot left"
  | invalidArgument fault => "invalid argument: " ++ fault.message
  | alreadyMapped address => "a page is already mapped at " ++ virtText address
  | noSuchProcess pid => "no such process: " ++ toString pid
  | processExists pid => "process " ++ toString pid ++ " already exists"
  | busy => "virtual memory is locked by another context"

/-- A fatal error ends the process that faulted and leaves the kernel intact. -/
def isFatal : PagingError → Bool
  | invalidAccess _ _ | io _ | mappingFailed _ => true
  | _ => false

end PagingError

/-! ## Halts -/

/-- What the kernel takes for granted and checks. -/
inductive Assertion where
  /-- A page starts at a page aligned address. -/
  | pageIsAligned
  /-- The first content of a page fits the page. -/
  | loadFitsPage
  /-- A page that moves to the swap space holds no slot. -/
  | holdsNoSlot
  /-- A frame that is given back belongs to a page. -/
  | frameIsOwned (frame : Nat)
  /-- A slot that is given back is in use. -/
  | slotIsReserved (slot : Nat)
  /-- An access to physical memory stays inside one frame. -/
  | staysInFrame
  deriving DecidableEq

namespace Assertion

def message : Assertion → String
  | pageIsAligned => "page is not page aligned"
  | loadFitsPage => "lazy load exceeds one page"
  | holdsNoSlot => "page holds a swap slot already"
  | frameIsOwned frame => frameText frame ++ " released twice"
  | slotIsReserved slot => "slot " ++ toString slot ++ " not reserved"
  | staysInFrame => "physical access crosses a frame"

end Assertion

/-- Why the kernel stopped. -/
inductive Halt where
  /-- A frame is needed and no resident page may give up its own. -/
  | noVictim
  /-- The page chosen to give up its frame could not be stored. -/
  | evictionFailed (victim : Nat) (error : PagingError)
  /-- A memory range from `start` to `stop` reaches past the `length` bytes that exist. -/
  | outOfRange (start stop length : Nat)
  /-- An index reaches past the `length` entries of a table. -/
  | indexOutOfRange (index length : Nat)
  /-- A sum is no word. -/
  | sumTooLarge
  /-- A difference is below zero. -/
  | negativeDifference
  /-- Something that was taken for granted does not hold. -/
  | assertionFailed (assertion : Assertion)
  deriving DecidableEq

namespace Halt

/-- The last words of the kernel. Of a memory range they name the first of its ends that lies past the
bytes that exist. -/
def message : Halt → String
  | noVictim => "out of memory: no frame can be evicted"
  | evictionFailed victim error =>
      "out of memory: evicting " ++ frameText victim ++ " failed: " ++ error.message
  | outOfRange start stop length =>
      let bound := if length < start then "start index " ++ toString start
        else "end index " ++ toString stop
      "range " ++ bound ++ " out of range for slice of length " ++ toString length
  | indexOutOfRange index length =>
      "index out of bounds: the len is " ++ toString length ++ " but the index is " ++ toString index
  | sumTooLarge => "attempt to add with overflow"
  | negativeDifference => "attempt to subtract with overflow"
  | assertionFailed assertion => assertion.message

end Halt

end DemandPaging
