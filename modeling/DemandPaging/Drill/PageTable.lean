import DemandPaging.PageTable

/-!
Exercises of a page table on its own.
-/

namespace DemandPaging

/-- One step of an exercise of a page table. -/
inductive TableStep where
  | malformed
  | install (va base : Nat) (writable : Bool)
  | clear (va : Nat)
  | setDirty (va : Nat) (on : Bool)
  | setAccessed (va : Nat) (on : Bool)
  | count
  | view (va : Nat)
  deriving DecidableEq

/-- What a page table says about one address. -/
structure TableView where
  address : Option Nat
  writable : Bool
  dirty : Bool
  accessed : Bool
  deriving DecidableEq

/-- What a step of an exercise of a page table answers. -/
inductive TableReply where
  | done
  | malformed
  | refused
  | count (count : Nat)
  | view (view : TableView)
  deriving DecidableEq

namespace PageTable

/-- What the page table says about an address; physical addresses are words. -/
def view (table : PageTable) (va : Nat) : TableView where
  address := (table.resolve? va).map fun address => address % wordLimit
  writable := table.isWritable va
  dirty := table.isDirty va
  accessed := table.isAccessed va

def drillStep (table : PageTable) : TableStep → PageTable × TableReply
  | .malformed => (table, .malformed)
  | .install va base writable =>
      match table.install? va base writable with
      | some table => (table, .done)
      | none => (table, .refused)
  | .clear va => (table.clear va, .done)
  | .setDirty va on => (table.setDirty va on, .done)
  | .setAccessed va on => (table.setAccessed va on, .done)
  | .count => (table, .count table.count)
  | .view va => (table, .view (table.view va))

def drill (table : PageTable) : List TableStep → List TableReply
  | [] => []
  | step :: rest =>
      let (table, reply) := table.drillStep step
      reply :: table.drill rest

end PageTable

end DemandPaging
