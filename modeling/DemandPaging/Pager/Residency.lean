import DemandPaging.Pager.Fetch

/-!
Pages from their reservation to their end: a page is reserved without a frame, claimed when it is
touched, and discarded with everything it holds.
-/

namespace DemandPaging

namespace Pager

/-! ## Reserving -/

def closeHandle (pager : Pager) (page : Page) : Pager :=
  match page.kind.handle? with
  | some file => pager.closeFile file
  | none => pager

/-- Adds a page to a process, at an address that may hold one and holds none. -/
def insertPage (pid : Pid) (page : Page) : PagerM Unit := do
  checkUserAddress page.va
  let space ← requireSpace pid
  if space.pages.contains page.va then
    PagerM.fail (.alreadyMapped page.va)
  else
    modify fun pager => pager.modifySpace pid fun space =>
      { space with pages := space.pages.insert page.va page }

/-- Adds a page to a process; if that is refused, the handle of the page is closed. -/
def reservePage (pid : Pid) (page : Page) : PagerM Unit := do
  PagerM.insist (pageAligned page.va) .pageIsAligned
  PagerM.insist (decide (page.kind.readLength ≤ pageSize)) .loadFitsPage
  match ← PagerM.attempt (insertPage pid page) with
  | .ok _ => pure ()
  | .error error =>
      modify fun pager => pager.closeHandle page
      PagerM.fail error

def allocateLazily (pid : Pid) (va : Nat) (writable : Bool) (load : LazyLoad) : PagerM Unit :=
  reservePage pid { va := pageBase va, writable := writable, kind := .pending load }

/-- Reserves a page of zeros around an address; a page of a file needs a file. -/
def allocate (pid : Pid) (type : PageType) (va : Nat) (writable : Bool) : PagerM Unit :=
  match type with
  | .anonymous => allocateLazily pid va writable .zero
  | .file => PagerM.reject .filePageWithoutFile

/-! ## Claiming -/

/-- Gives a frame to a page, together with its page table. -/
def attached (pager : Pager) (owner : Owner) (frame : Nat) (table : PageTable) : Pager :=
  (pager.modifyTable owner.pid fun _ => table).modifyPage owner.pid owner.va fun page =>
    { page with frame := some frame }

/-- Puts a page that is not resident into a frame: its page table entry is installed, the frame
attached and filled. If the content cannot be read the frame is given back and the page stays as it was. -/
def attach (pid : Pid) (va : Nat) (frame : Nat) : PagerM Unit := do
  let pager ← get
  match pager.space? pid with
  | none =>
      releaseFrame frame
      PagerM.fail (.noSuchProcess pid)
  | some space =>
      match space.page? va with
      | none =>
          releaseFrame frame
          PagerM.deny va .unmapped
      | some page =>
          match space.table.install? va (frameBase frame) page.writable with
          | none =>
              releaseFrame frame
              PagerM.fail (.mappingFailed va)
          | some table =>
              modify fun pager => pager.attached ⟨pid, va⟩ frame table
              match ← PagerM.attempt (bringIn pid va) with
              | .error error =>
                  modify fun pager => pager.detached ⟨pid, va⟩
                  releaseFrame frame
                  PagerM.fail error
              | .ok _ => unpinFrame frame

def claim (pid : Pid) (address : Nat) : PagerM Unit := do
  let va := pageBase address
  let space ← requireSpace pid
  match space.page? va with
  | none => PagerM.deny va .unmapped
  | some page =>
      if page.isResident then pure ()
      else
        let frame ← acquireFrame ⟨pid, va⟩
        attach pid va frame

/-! ## Discarding -/

/-- Writes a resident page of a file back, if it may be written. -/
def saveOnDiscard (pid : Pid) (page : Page) : PagerM Unit :=
  match page.kind, page.frame with
  | .file range, some frame =>
      if page.writable then saveToFile ⟨pid, page.va⟩ range frame else pure ()
  | _, _ => pure ()

def releasePageSlot (page : Page) : PagerM Unit :=
  match page.kind.slot? with
  | some slot => giveBackSlot slot
  | none => pure ()

/-- Gives back the frame that a page holds, with its page table entry. -/
def releasePageFrame (pid : Pid) (page : Page) : PagerM Unit :=
  match page.frame with
  | some frame => do
      modify fun pager => pager.modifyTable pid fun table => table.clear page.va
      releaseFrame frame
  | none => pure ()

def erasePage (pager : Pager) (owner : Owner) : Pager :=
  pager.modifySpace owner.pid fun space => { space with pages := space.pages.erase owner.va }

/-- Removes a page of a process and releases everything it holds. -/
def discardPage (pid : Pid) (page : Page) : PagerM Unit := do
  modify fun pager =>
    pager.note (.discarded ⟨pid, page.va⟩ page ((pager.table pid).isDirty page.va))
  saveOnDiscard pid page
  releasePageSlot page
  releasePageFrame pid page
  modify fun pager => (pager.closeHandle page).erasePage ⟨pid, page.va⟩

end Pager

end DemandPaging
