import DemandPaging.Page
import DemandPaging.PageTable

/-!
The user memory of one process: its pages, resident or not, the page table, the mapped regions and the
stack pointer.
-/

namespace DemandPaging

/-- A mapped range of a file, which keeps a handle of its own. -/
structure Region where
  base : Nat
  /-- The number of mapped bytes, whole pages. -/
  length : Nat
  file : FileId
  offset : Nat
  deriving DecidableEq

namespace Region

def pageCount (region : Region) : Nat :=
  region.length / pageSize

end Region

/-- The user memory of a process. -/
structure AddressSpace where
  /-- The pages by the address at which they start. -/
  pages : Std.ExtTreeMap Nat Page
  table : PageTable
  /-- The mapped regions by the address at which they start. -/
  regions : Std.ExtTreeMap Nat Region
  stackPointer : Nat

namespace AddressSpace

def empty (stackPointer : Nat) : AddressSpace where
  pages := ∅
  table := PageTable.empty
  regions := ∅
  stackPointer := stackPointer

/-- The pages, from the lowest on. -/
def pageList (space : AddressSpace) : List Page :=
  space.pages.toList.map fun entry => entry.2

/-- The regions, from the lowest on. -/
def regionList (space : AddressSpace) : List Region :=
  space.regions.toList.map fun entry => entry.2

def page? (space : AddressSpace) (va : Nat) : Option Page :=
  space.pages[pageBase va]?

def frame? (space : AddressSpace) (va : Nat) : Option Nat :=
  match space.page? va with
  | some page => page.frame
  | none => none

def overlaps (space : AddressSpace) (first stop : Nat) : Bool :=
  space.pages.keys.any fun va => decide (first ≤ va) && decide (va < stop)

end AddressSpace

end DemandPaging
