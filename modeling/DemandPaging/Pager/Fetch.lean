import DemandPaging.Pager.Eviction

/-!
How the content of a page gets from its backing store into a frame. Whatever the frame held before, a
fetch that succeeds leaves bytes of the store followed by zeros in it; one that fails may leave the part
that was read before the failure.
-/

namespace DemandPaging

/-- What fetching the content of a page leaves behind. -/
structure Fetched where
  swap : SwapSpace
  files : FileTable
  /-- The content of the frame. -/
  image : Image
  /-- What the page is from now on, if its content could be read. -/
  kind : Option PageKind

namespace PageKind

def readLength : PageKind → Nat
  | pending load => (load.range?.map FileRange.length).getD 0
  | anonymous _ => 0
  | file range => range.length

/-- Fetches the content of a page into a frame that holds `image`: what is read is put at its start, and zeros
behind that. A segment gives its handle back and a swapped page its slot, but only when all is read. -/
def fetch (kind : PageKind) (swap : SwapSpace) (files : FileTable) (image : Image) : Fetched :=
  match kind with
  | pending .zero | anonymous none =>
      ⟨swap, files, image.zeroFrom 0, some (anonymous none)⟩
  | pending (.segment range) =>
      let remnant := files.remnant range.file range.offset range.length
      match files.readAt range.file range.offset range.length with
      | (files, none) => ⟨swap, files, image.overlay 0 remnant, none⟩
      | (files, some bytes) =>
          let read := image.overlay 0 bytes
          if bytes.size = range.length then
            ⟨swap, files.close range.file, read.zeroFrom range.length, some (anonymous none)⟩
          else
            ⟨swap, files, read, none⟩
  | pending (.mapped range) | file range =>
      let remnant := files.remnant range.file range.offset range.length
      match files.readAt range.file range.offset range.length with
      | (files, none) => ⟨swap, files, image.overlay 0 remnant, none⟩
      | (files, some bytes) =>
          ⟨swap, files, (image.overlay 0 bytes).zeroFrom bytes.size, some (file range)⟩
  | anonymous (some slot) =>
      match swap.fetch slot image with
      | (swap, image, true) => ⟨swap.release slot, files, image, some (anonymous none)⟩
      | (swap, image, false) => ⟨swap, files, image, none⟩

variable {swap : SwapSpace} {files read : FileTable} {image : Image} {range : FileRange} {bytes : Array UInt8}

/-! What a fetch leaves in a frame that it fills does not show what the frame held. -/

@[simp]
theorem fetch_zero : (pending .zero).fetch swap files image =
    ⟨swap, files, Image.zero, some (anonymous none)⟩ := by
  rw [fetch, Image.zeroFrom_zero]

@[simp]
theorem fetch_anonymous_none : (anonymous none).fetch swap files image =
    ⟨swap, files, Image.zero, some (anonymous none)⟩ := by
  rw [fetch, Image.zeroFrom_zero]

theorem fetch_segment_of_read
    (result : files.readAt range.file range.offset range.length = (read, some bytes))
    (complete : bytes.size = range.length) :
    (pending (.segment range)).fetch swap files image =
      ⟨swap, read.close range.file, Image.ofBytes bytes, some (anonymous none)⟩ := by
  simp only [fetch, result, if_pos complete]
  rw [← complete, Image.zeroFrom_overlay]

theorem fetch_mapped_of_read
    (result : files.readAt range.file range.offset range.length = (read, some bytes)) :
    (pending (.mapped range)).fetch swap files image =
      ⟨swap, read, Image.ofBytes bytes, some (file range)⟩ := by
  simp only [fetch, result, Image.zeroFrom_overlay]

theorem fetch_file_of_read
    (result : files.readAt range.file range.offset range.length = (read, some bytes)) :
    (file range).fetch swap files image = ⟨swap, read, Image.ofBytes bytes, some (file range)⟩ := by
  simp only [fetch, result, Image.zeroFrom_overlay]

end PageKind

namespace Pager

/-- Notes the transfers that fetched a page from its slot. -/
def noteTransfers (pager : Pager) (owner : Owner) (kind : PageKind) (before : SwapSpace) : Pager :=
  match kind.slot? with
  | some slot =>
      pager.note (.swapped owner .read slot (before.used.get slot)
        (pager.swap.transfersSince before))
  | none => pager

def noteLoad (pager : Pager) (owner : Owner) (kind : PageKind) (fetched : Fetched) : Pager :=
  match kind, fetched.kind with
  | .pending load, some _ => pager.note (.loaded owner load fetched.image)
  | _, _ => pager

def putFetched (pager : Pager) (owner : Owner) (kind : PageKind) (frame : Nat) (fetched : Fetched) :
    Pager :=
  let filled := { pager with
    swap := fetched.swap
    files := fetched.files
    frames := pager.frames.setImage frame fetched.image }
  let noted := (filled.noteTransfers owner kind pager.swap).noteLoad owner kind fetched
  noted.note (.fetched owner kind fetched.kind.isSome)

/-- Makes a page what it became by a fetch; a fetch from a slot is counted. -/
def becomeFetched (pager : Pager) (pid : Pid) (va : Nat) (before after : PageKind) : Pager :=
  (pager.modifyPage pid va fun page => { page with kind := after }).modifyCounters fun counters =>
    { counters with
      swapIns := if before.slot?.isSome then counters.swapIns + 1 else counters.swapIns }

/-- Halts unless the slot that a fetch emptied is in use. -/
def checkEmptied (kind : PageKind) (fetched : Fetched) : PagerM Unit :=
  match kind.slot?, fetched.kind with
  | some slot, some _ => checkSlot slot
  | _, _ => pure ()

/-- Fills the frame of a page. A page that was not touched before becomes what its load describes, but
only if its content could be read. -/
def bringIn (pid : Pid) (va : Nat) : PagerM Unit := do
  let pager ← get
  match pager.page? pid va with
  | none => PagerM.deny va .unmapped
  | some page =>
      match page.frame with
      | none => PagerM.reject .pageWithoutFrame
      | some frame =>
          let image ← frameImage frame
          PagerM.checkRange 0 page.kind.readLength pageSize
          let fetched := page.kind.fetch pager.swap pager.files image
          checkEmptied page.kind fetched
          set (pager.putFetched ⟨pid, page.va⟩ page.kind frame fetched)
          match fetched.kind with
          | none => PagerM.fail (.io page.va)
          | some kind => modify fun pager => pager.becomeFetched pid va page.kind kind

end Pager

end DemandPaging
