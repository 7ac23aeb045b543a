import DemandPaging.Pager.Memory

/-!
How a page loses its frame. Anonymous memory goes to a slot of the swap space, a page of a file is
written to the file if it was changed; then its page table entry is cleared. When a frame is
needed and none is free, the policy chooses the page that has to go.
-/

namespace DemandPaging

namespace Pager

/-- Writes a page to its file if its page table entry is dirty, and makes the entry clean. Only the
range is written; a failed write loses the changes. -/
def writeBack (pager : Pager) (owner : Owner) (range : FileRange) (frame : Nat) : Pager :=
  if (pager.table owner.pid).isDirty owner.va then
    let bytes := (pager.frames.image frame).slice 0 range.length
    let (files, written) := pager.files.writeAt range.file range.offset bytes
    let counted := { pager with files := files }.modifyCounters fun counters =>
      { counters with
        writeBacks := if written.isSome then counters.writeBacks + 1 else counters.writeBacks }
    (counted.modifyTable owner.pid fun table => table.setDirty owner.va false).note
      (.wroteBack owner range written.isSome)
  else
    pager

def saveToFile (owner : Owner) (range : FileRange) (frame : Nat) : PagerM Unit := do
  if ((← get).table owner.pid).isDirty owner.va then
    checkBytes frame
    PagerM.checkRange 0 range.length pageSize
    modify fun pager => pager.writeBack owner range frame

def checkSlot (slot : Nat) : PagerM Unit := do
  let used := (← get).swap.used
  PagerM.checkIndex slot used.size
  PagerM.insist (used.get slot) (.slotIsReserved slot)

def giveBackSlot (slot : Nat) : PagerM Unit := do
  checkSlot slot
  modify fun pager => pager.releaseSlot slot

/-- Stores the content of a frame in a slot of the swap space and answers with the slot. -/
def swapOut (owner : Owner) (frame : Nat) : PagerM Nat := do
  let pager ← get
  match pager.swap.reserve? with
  | none => PagerM.fail .swapExhausted
  | some (slot, reserved) =>
      let image ← frameImage frame
      let (stored, complete) := reserved.store slot image
      let noted := { pager with swap := stored }.note
        (.swapped owner .write slot (reserved.used.get slot) (stored.transfersSince reserved))
      if complete then
        set (noted.modifyCounters fun counters =>
          { counters with swapOuts := counters.swapOuts + 1 })
        pure slot
      else
        set noted
        giveBackSlot slot
        PagerM.fail (.io owner.va)

/-- Moves the content of a page from its frame to its backing store. -/
def saveContent (pid : Pid) (page : Page) (frame : Nat) : PagerM Unit := do
  match page.kind with
  | .pending _ => PagerM.reject .pageNotInitialized
  | .anonymous slot =>
      PagerM.insist slot.isNone .holdsNoSlot
      let slot ← swapOut ⟨pid, page.va⟩ frame
      modify fun pager => pager.modifyPage pid page.va fun page =>
        { page with kind := .anonymous (some slot) }
  | .file range => saveToFile ⟨pid, page.va⟩ range frame

/-- Takes the frame and the page table entry from a page. -/
def detached (pager : Pager) (owner : Owner) : Pager :=
  (pager.modifyTable owner.pid fun table => table.clear owner.va).modifyPage owner.pid owner.va
    fun page => { page with frame := none }

/-- Moves a page to its backing store and answers with the frame it gives up. On failure the page stays
resident. -/
def sendOut (pid : Pid) (page : Page) : PagerM Nat := do
  match page.frame with
  | none => PagerM.reject .pageNotResident
  | some frame =>
      saveContent pid page frame
      modify fun pager => pager.detached ⟨pid, page.va⟩
      pure frame

def evict (victim : Nat) : PagerM Nat := do
  match ← frameOwner victim with
  | none => PagerM.reject .victimFrameFree
  | some owner =>
      let space ← requireSpace owner.pid
      match space.page? owner.va with
      | none => PagerM.reject .victimPageMissing
      | some page =>
          let frame ← sendOut owner.pid page
          modify fun pager => pager.modifyCounters fun counters =>
            { counters with evictions := counters.evictions + 1 }
          modify fun pager => pager.note
            (.evicted owner page.kind (space.table.isDirty owner.va))
          pure frame

/-! ## Choosing a victim -/

/-- What the policy sees of a frame: it may be chosen if it belongs to a page and is not pinned, and
its page was accessed if the page table entry of the owner has the bit. -/
def candidate (pager : Pager) (frame : Frame) : Candidate :=
  match frame.owner with
  | none => { evictable := false }
  | some owner =>
      { evictable := !frame.pinned
        accessed := (pager.table owner.pid).isAccessed owner.va }

def candidates (pager : Pager) : Candidates :=
  pager.frames.frames.map pager.candidate

def clearAccessed (pager : Pager) (frame : Nat) : Pager :=
  match pager.frames.owner? frame with
  | none => pager
  | some owner => pager.modifyTable owner.pid fun table => table.setAccessed owner.va false

def clearTaken (pager : Pager) (before after : Candidates) : Pager :=
  (List.range before.size).foldl
    (fun pager frame =>
      if before.accessed frame && !after.accessed frame then pager.clearAccessed frame else pager)
    pager

def selectVictim : PagerM (Option Nat) := do
  let pager ← get
  let before := pager.candidates
  match pager.frames.policy.stray? before with
  | some frame => PagerM.halt (.indexOutOfRange frame before.size)
  | none =>
      let (victim, after, policy) := pager.frames.policy.select before
      set ((pager.clearTaken before after).modifyFrames fun frames =>
        { frames with policy := policy })
      pure victim

/-- Gets a frame for a page, from the free frames or else from another page. The frame is pinned. -/
def acquireFrame (owner : Owner) : PagerM Nat := do
  let pager ← get
  match pager.frames.takeFree? owner with
  | some (frame, frames) =>
      checkFrame frame
      set ({ pager with frames := frames }.note (.assigned owner frame true))
      pure frame
  | none =>
      match ← selectVictim with
      | none => PagerM.halt .noVictim
      | some victim =>
          match ← PagerM.attempt (evict victim) with
          | .error error => PagerM.halt (.evictionFailed victim error)
          | .ok frame =>
              assignFrame frame owner
              modify fun pager => pager.note (.assigned owner frame false)
              pure frame

end Pager

end DemandPaging
