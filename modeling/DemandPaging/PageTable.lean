import DemandPaging.Address
import Std.Data.ExtTreeMap

/-!
The page table of one process, as the memory management unit sees it: at most one entry for each
page, with the permission to write and the bits that accesses set.
-/

namespace DemandPaging

/-- What the page table holds for one page. -/
structure PageEntry where
  /-- The physical address at which the page starts. -/
  base : Nat
  writable : Bool
  dirty : Bool := false
  accessed : Bool := false
  deriving DecidableEq

/-- The entries of a process by the start of their page. -/
structure PageTable where
  entries : Std.ExtTreeMap Nat PageEntry

namespace PageTable

def empty : PageTable where
  entries := ∅

def find? (table : PageTable) (va : Nat) : Option PageEntry :=
  table.entries[pageBase va]?

/-- Adds an entry for the page that contains an address; refused if there is one. -/
def install? (table : PageTable) (va base : Nat) (writable : Bool) : Option PageTable :=
  match table.find? va with
  | some _ => none
  | none =>
      some { entries :=
        table.entries.insert (pageBase va) { base := base, writable := writable } }

/-- Removes the entry of the page that contains an address. -/
def clear (table : PageTable) (va : Nat) : PageTable where
  entries := table.entries.erase (pageBase va)

/-- Sets or clears the dirty bit, if the page has an entry. -/
def setDirty (table : PageTable) (va : Nat) (on : Bool) : PageTable where
  entries := table.entries.modify (pageBase va) fun entry => { entry with dirty := on }

/-- Sets or clears the accessed bit, if the page has an entry. -/
def setAccessed (table : PageTable) (va : Nat) (on : Bool) : PageTable where
  entries := table.entries.modify (pageBase va) fun entry => { entry with accessed := on }

def resolve? (table : PageTable) (va : Nat) : Option Nat :=
  match table.find? va with
  | some entry => some (entry.base + pageOffset va)
  | none => none

def isWritable (table : PageTable) (va : Nat) : Bool :=
  match table.find? va with
  | some entry => entry.writable
  | none => false

def isDirty (table : PageTable) (va : Nat) : Bool :=
  match table.find? va with
  | some entry => entry.dirty
  | none => false

def isAccessed (table : PageTable) (va : Nat) : Bool :=
  match table.find? va with
  | some entry => entry.accessed
  | none => false

def count (table : PageTable) : Nat :=
  table.entries.size

/-! ## Single entries -/

theorem find?_empty (va : Nat) : empty.find? va = none := by
  simp [find?, empty]

theorem find?_of_install? {table installed : PageTable} {va base : Nat} {writable : Bool}
    (done : table.install? va base writable = some installed) (other : Nat) :
    installed.find? other =
      if pageBase va = pageBase other then some { base := base, writable := writable }
      else table.find? other := by
  unfold install? at done
  split at done
  · cases done
  · cases done
    simp only [find?, Std.ExtTreeMap.getElem?_insert, Std.LawfulEqCmp.compare_eq_iff_eq]

theorem install?_eq_none_iff (table : PageTable) (va base : Nat) (writable : Bool) :
    table.install? va base writable = none ↔ (table.find? va).isSome := by
  unfold install?
  split <;> simp_all

theorem find?_clear (table : PageTable) (va other : Nat) :
    (table.clear va).find? other =
      if pageBase va = pageBase other then none else table.find? other := by
  simp only [find?, clear, Std.ExtTreeMap.getElem?_erase, Std.LawfulEqCmp.compare_eq_iff_eq]

theorem find?_setDirty (table : PageTable) (va other : Nat) (on : Bool) :
    (table.setDirty va on).find? other =
      if pageBase va = pageBase other then
        (table.find? other).map fun entry => { entry with dirty := on }
      else table.find? other := by
  simp only [find?, setDirty, Std.ExtTreeMap.getElem?_modify, Std.LawfulEqCmp.compare_eq_iff_eq]
  split
  · rename_i same
    rw [same]
  · rfl

theorem find?_setAccessed (table : PageTable) (va other : Nat) (on : Bool) :
    (table.setAccessed va on).find? other =
      if pageBase va = pageBase other then
        (table.find? other).map fun entry => { entry with accessed := on }
      else table.find? other := by
  simp only [find?, setAccessed, Std.ExtTreeMap.getElem?_modify, Std.LawfulEqCmp.compare_eq_iff_eq]
  split
  · rename_i same
    rw [same]
  · rfl

end PageTable

end DemandPaging
