import DemandPaging.Address

/-!
Pages of user memory. A page starts with the description of its first content and turns into anonymous
memory or a page of a file when it is first touched. Anonymous memory that has no frame lives in a slot
of the swap space.
-/

namespace DemandPaging

/-- The memory a page holds once it is initialized. -/
inductive PageType where
  | anonymous
  | file
  deriving DecidableEq

/-- A range of a file, reached through a handle of its own. -/
structure FileRange where
  file : FileId
  offset : Nat
  length : Nat
  deriving DecidableEq

/-- How a page gets its first content. -/
inductive LazyLoad where
  /-- Zeros. -/
  | zero
  /-- Anonymous memory that starts with a range of a file, which has to be complete. -/
  | segment (range : FileRange)
  /-- A page of a mapped file, zero behind the range. -/
  | mapped (range : FileRange)
  deriving DecidableEq

namespace LazyLoad

def target : LazyLoad → PageType
  | zero | segment _ => .anonymous
  | mapped _ => .file

/-- The range that is read, if any. -/
def range? : LazyLoad → Option FileRange
  | zero => none
  | segment range | mapped range => some range

end LazyLoad

/-- What a page is at the moment. -/
inductive PageKind where
  /-- Not touched yet. -/
  | pending (load : LazyLoad)
  /-- Anonymous memory, with its slot while it is swapped out. -/
  | anonymous (slot : Option Nat)
  /-- A page of a mapped file. -/
  | file (range : FileRange)
  deriving DecidableEq

namespace PageKind

/-- The memory that a page of this kind holds or will hold. -/
def type : PageKind → PageType
  | pending load => load.target
  | anonymous _ => .anonymous
  | file _ => .file

def handle? : PageKind → Option FileId
  | pending load => load.range?.map FileRange.file
  | anonymous _ => none
  | file range => some range.file

def slot? : PageKind → Option Nat
  | anonymous slot => slot
  | _ => none

end PageKind

/-- A page of user memory. -/
structure Page where
  /-- The address at which the page starts. -/
  va : Nat
  writable : Bool
  /-- Whether the page belongs to the stack. -/
  isStack : Bool := false
  /-- The start of the mapped region that the page belongs to. -/
  region : Option Nat := none
  /-- The frame of the page while it is resident. -/
  frame : Option Nat := none
  kind : PageKind
  deriving DecidableEq

namespace Page

def isResident (page : Page) : Bool :=
  page.frame.isSome

def type (page : Page) : PageType :=
  page.kind.type

/-- How a copy of the page gets its first content: memory that was initialized is copied over zeros, a
file page starts from its range. -/
def copyLoad (page : Page) : LazyLoad :=
  match page.kind with
  | .pending load => load
  | .anonymous _ => .zero
  | .file range => .mapped range

def copy (page : Page) : Page :=
  { page with frame := none, kind := .pending page.copyLoad }

end Page

end DemandPaging
