import DemandPaging.Pager.Process

/-!
Copies of processes. The child gets the regions of the parent and a copy of every page, resident when it
is made. A failed copy takes the child with it.
-/

namespace DemandPaging

namespace Pager

/-- Opens a handle of its own for the copy of a page, if it needs one. -/
def reopenForCopy (page : Page) : PagerM Unit := do
  match page.kind.handle? with
  | none => pure ()
  | some file => unless ← reopenFile file do PagerM.fail (.io page.va)

/-- Makes the page of the parent resident and answers with its frame and its dirty bit. -/
def claimSource (parent : Pid) (va : Nat) : PagerM (Nat × Bool) := do
  claim parent va
  let space ← requireSpace parent
  match space.frame? va with
  | none => PagerM.reject .parentPageNotResident
  | some source => pure (source, space.table.isDirty va)

def copyFrames (parent child : Pid) (va : Nat) : PagerM (Nat × Nat) := do
  let pager ← get
  match pager.space? parent, pager.space? child with
  | some original, some copied =>
      match original.frame? va, copied.frame? va with
      | some source, some target => pure (source, target)
      | _, _ => PagerM.reject .copyNotResident
  | _, _ => PagerM.fail (.noSuchProcess child)

/-- Reserves and claims the page of the child and puts the content of the parent's page into its
frame. -/
def fillCopy (parent child : Pid) (va : Nat) (copy : Page) : PagerM Unit := do
  reservePage child copy
  claim child va
  let (source, target) ← copyFrames parent child va
  checkBytes target
  let image ← frameImage source
  modify fun pager => pager.modifyFrames fun frames => frames.setImage target image

/-- Marks the page of the child as changed, like that of the parent. -/
def copyDirty (child : Pid) (va : Nat) (dirty : Bool) : PagerM Unit := do
  if dirty then
    let _ ← requireSpace child
    modify fun pager => pager.modifyTable child fun table => table.setDirty va true

/-- Copies a page whose frame in the parent is known; that frame is pinned meanwhile, so the frame for
the child is taken from some other page. -/
def copyPinned (parent child : Pid) (va source : Nat) (copy : Page) : PagerM Unit := do
  pinFrame source
  match ← PagerM.attempt (fillCopy parent child va copy) with
  | .error error =>
      unpinFrame source
      PagerM.fail error
  | .ok _ => unpinFrame source

/-- Copies the page of the parent at an address. The copy is described before the parent's page is
claimed, so that a page that was not touched yet keeps its first content. -/
def copyPage (parent child : Pid) (va : Nat) : PagerM Unit := do
  let space ← requireSpace parent
  match space.page? va with
  | none => PagerM.reject .parentPageVanished
  | some page =>
      reopenForCopy page
      match ← PagerM.attempt (claimSource parent va) with
      | .error error =>
          modify fun pager => pager.closeHandle page.copy
          PagerM.fail error
      | .ok (source, dirty) =>
          copyPinned parent child va source page.copy
          copyDirty child va dirty

/-- Opens a handle for the copy of each region; on failure the handles opened before are closed. -/
def reopenRegions : List Region → PagerM Unit
  | [] => pure ()
  | region :: rest => do
      if ← reopenFile region.file then
        match ← PagerM.attempt (reopenRegions rest) with
        | .ok _ => pure ()
        | .error error =>
            modify fun pager => pager.closeFile region.file
            PagerM.fail error
      else
        PagerM.fail (.io region.base)

def copyPages (parent child : Pid) : List Nat → PagerM Unit
  | [] => pure ()
  | va :: rest => do
      copyPage parent child va
      copyPages parent child rest

/-- Copies the regions, the stack pointer and the pages of the parent into the empty child. -/
def copySpace (parent child : Pid) : PagerM Unit := do
  let space ← requireSpace parent
  reopenRegions space.regionList
  modify fun pager => pager.modifySpace child fun copy =>
    { copy with stackPointer := space.stackPointer, regions := space.regions }
  copyPages parent child space.pages.keys

def fork (parent child : Pid) : PagerM Unit := do
  let space ← requireSpace parent
  if !space.pages.isEmpty && decide ((← get).frames.frameCount < 2) then
    PagerM.reject .tooFewFramesToCopy
  else
    createProcess child
    match ← PagerM.attempt (copySpace parent child) with
    | .ok _ => pure ()
    | .error error =>
        exitProcess child
        PagerM.fail error

end Pager

end DemandPaging
