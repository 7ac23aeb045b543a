import DemandPaging.Pager.State

/-!
A snapshot of the sizes and counters of the virtual memory.
-/

namespace DemandPaging

/-- Sizes and counters of the virtual memory at one moment. -/
structure Stats where
  framesTotal : Nat := 0
  framesFree : Nat := 0
  swapSlotsTotal : Nat := 0
  swapSlotsFree : Nat := 0
  evictions : Nat := 0
  swapIns : Nat := 0
  swapOuts : Nat := 0
  writeBacks : Nat := 0
  pageFaults : Nat := 0
  processes : Nat := 0
  deriving DecidableEq

namespace Pager

def stats (pager : Pager) : Stats where
  framesTotal := pager.frames.frameCount
  framesFree := pager.frames.freeCount
  swapSlotsTotal := pager.swap.slotCount
  swapSlotsFree := pager.swap.freeSlots
  evictions := pager.counters.evictions
  swapIns := pager.counters.swapIns
  swapOuts := pager.counters.swapOuts
  writeBacks := pager.counters.writeBacks
  pageFaults := pager.counters.pageFaults
  processes := pager.spaces.size

end Pager

end DemandPaging
