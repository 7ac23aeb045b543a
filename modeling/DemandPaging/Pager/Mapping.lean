import DemandPaging.Pager.Residency

/-!
Mapped files. A mapping records a region with a handle of its own, makes one page for each page of the
region, each again with a handle, and then reserves them; it is made as a whole or not at all. Removing the
region discards its pages.
-/

namespace DemandPaging

namespace Pager

def insertRegion (pager : Pager) (pid : Pid) (region : Region) : Pager :=
  pager.modifySpace pid fun space =>
    { space with regions := space.regions.insert region.base region }

/-- Forgets the region of a process that starts at an address. -/
def eraseRegion (pager : Pager) (pid : Pid) (base : Nat) : Pager :=
  pager.modifySpace pid fun space => { space with regions := space.regions.erase base }

/-- Discards those of the pages with the given indices that belong to a region. -/
def discardMapped (pid : Pid) (region : Region) : List Nat → PagerM Unit
  | [] => pure ()
  | index :: rest => do
      match (← get).page? pid (region.base + index * pageSize) with
      | some page =>
          if page.region = some region.base then discardPage pid page else pure ()
      | none => pure ()
      discardMapped pid region rest

/-- Removes the mapping that starts at an address, with its pages; nothing happens if no region starts
there. -/
def unmap (pid : Pid) (base : Nat) : PagerM Unit := do
  let space ← requireSpace pid
  match space.regions[base]? with
  | none => pure ()
  | some region =>
      modify fun pager => pager.eraseRegion pid base
      discardMapped pid region (List.range region.pageCount)
      modify fun pager => pager.closeFile region.file

/-- The number of bytes of a page that the file backs, if the page starts at `offset` in the file and `left`
bytes of the mapping are still to come. -/
def backedLength (left fileSize offset : Nat) : Nat :=
  min (min left (fileSize - offset)) pageSize

/-- The page of a region with an index, if `left` bytes of the mapping are still to come. -/
def mappedPage (region : Region) (left fileSize : Nat) (writable : Bool) (index : Nat) : Page where
  va := region.base + index * pageSize
  writable := writable
  region := some region.base
  kind := .pending (.mapped
    { file := region.file
      offset := region.offset + index * pageSize
      length := backedLength left fileSize (region.offset + index * pageSize) })

/-- Makes the given number of pages of a region, from page `index` on, each with a handle of its own. If a
handle cannot be had, those of the pages made before it are closed. -/
def makePages (region : Region) (length fileSize : Nat) (writable : Bool) :
    Nat → (index : Nat) → PagerM (List Page)
  | 0, _ => pure []
  | pages + 1, index => do
      let left ← PagerM.subtractWords length (index * pageSize)
      let page := mappedPage region left fileSize writable index
      if ← reopenFile region.file then
        match ← PagerM.attempt (makePages region length fileSize writable pages (index + 1)) with
        | .ok rest => pure (page :: rest)
        | .error error =>
            modify fun pager => pager.closeHandle page
            PagerM.fail error
      else
        PagerM.fail (.io page.va)

/-- Reserves pages one after the other. If one is refused, the handles of those behind it are closed; those
before it stay reserved. -/
def reservePages (pid : Pid) : List Page → PagerM Unit
  | [] => pure ()
  | page :: rest => do
      match ← PagerM.attempt (reservePage pid page) with
      | .ok _ => reservePages pid rest
      | .error error =>
          modify fun pager => rest.foldl closeHandle pager
          PagerM.fail error

/-- Reserves the pages of the region of a process that starts at an address, after all of them are made. -/
def mapPages (pid : Pid) (base length fileSize : Nat) (writable : Bool) : PagerM Unit := do
  let space ← requireSpace pid
  match space.regions[base]? with
  | none => PagerM.reject .regionVanished
  | some region =>
      let pages ← makePages region length fileSize writable region.pageCount 0
      reservePages pid pages

/-- Checks the arguments of a mapping and answers with the number of bytes to map, whole pages. -/
def checkMapping (base length : Nat) (file : FileId) (offset : Nat) : PagerM Nat := do
  checkUserAddress base
  let pager ← get
  let mapped := roundedLength length
  if !pageAligned base then PagerM.reject .mappingAddressUnaligned
  else if length = 0 then PagerM.reject .mappingLengthZero
  else if !pageAligned offset then PagerM.reject .fileOffsetUnaligned
  else if pager.files.size file = 0 then PagerM.reject .fileEmpty
  else if wordLimit ≤ base + mapped || pager.config.kernelBase < base + mapped then
    PagerM.deny base .kernelAddress
  else if wordLimit ≤ offset + mapped then PagerM.reject .fileRangeTooLarge
  else pure mapped

/-- Records a region and reserves its pages; if they cannot be reserved, what there is of it is removed
again. -/
def mapRegion (pid : Pid) (region : Region) (length fileSize : Nat) (writable : Bool) : PagerM Unit := do
  modify fun pager => pager.insertRegion pid region
  match ← PagerM.attempt (mapPages pid region.base length fileSize writable) with
  | .ok _ => pure ()
  | .error error =>
      unmap pid region.base
      PagerM.fail error

/-- Maps `length` bytes of a file from `offset` on to `base` and answers with `base`. -/
def map (pid : Pid) (base length : Nat) (writable : Bool) (file : FileId) (offset : Nat) :
    PagerM Nat := do
  let mapped ← checkMapping base length file offset
  let space ← requireSpace pid
  if space.overlaps base (base + mapped) then
    PagerM.fail (.alreadyMapped base)
  else if ← reopenFile file then
    let fileSize := (← get).files.size file
    let region : Region := { base := base, length := mapped, file := file, offset := offset }
    mapRegion pid region length fileSize writable
    pure base
  else
    PagerM.fail (.io base)

end Pager

end DemandPaging
