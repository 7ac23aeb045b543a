import DemandPaging.Proofs.Holdings
import DemandPaging.Proofs.Sound

/-!
# Pages that move

What the ledger shows when pages are saved, detached, attached and fetched, and what never shows in it:
files, counters, the journal, and the accessed and dirty bits.
-/

namespace DemandPaging

namespace Pager

section Unseen

variable (pager : Pager)

/-! ## What the ledger leaves out -/

@[simp]
theorem ledger_note (activity : Activity) : (pager.note activity).ledger = pager.ledger :=
  rfl

@[simp]
theorem ledger_modifyCounters (change : Counters → Counters) :
    (pager.modifyCounters change).ledger = pager.ledger :=
  rfl

@[simp]
theorem ledger_closeFile (file : FileId) : (pager.closeFile file).ledger = pager.ledger :=
  rfl

theorem ledger_setDirty (pid : Pid) (va : Nat) (on : Bool) :
    (pager.modifyTable pid fun table => table.setDirty va on).ledger = pager.ledger :=
  pager.ledger_modifySpace_of_same pid (fun _ => rfl) fun space other =>
    space.table.translation?_setDirty va other on

theorem ledger_setAccessed (pid : Pid) (va : Nat) (on : Bool) :
    (pager.modifyTable pid fun table => table.setAccessed va on).ledger = pager.ledger :=
  pager.ledger_modifySpace_of_same pid (fun _ => rfl) fun space other =>
    space.table.translation?_setAccessed va other on

theorem ledger_closeHandle (page : Page) : (pager.closeHandle page).ledger = pager.ledger := by
  unfold closeHandle
  split <;> rfl

theorem ledger_closeRegions (regions : List Region) :
    (pager.closeRegions regions).ledger = pager.ledger := by
  induction regions generalizing pager with
  | nil => rfl
  | cons region rest inductionHypothesis =>
      exact inductionHypothesis (pager.closeFile region.file)

theorem ledger_writeBack (owner : Owner) (range : FileRange) (frame : Nat) :
    (pager.writeBack owner range frame).ledger = pager.ledger := by
  unfold writeBack
  split
  · exact ledger_setDirty { pager with files := _, counters := _ } owner.pid owner.va false
  · rfl

theorem ledger_clearTaken (before after : Candidates) :
    (pager.clearTaken before after).ledger = pager.ledger := by
  unfold clearTaken
  induction List.range before.size generalizing pager with
  | nil => rfl
  | cons frame rest inductionHypothesis =>
      rw [List.foldl_cons, inductionHypothesis]
      split
      · unfold clearAccessed
        split
        · rfl
        · exact pager.ledger_setAccessed _ _ false
      · rfl

/-- Taking accessed bits away changes page tables only. -/
theorem clearTaken_eq (before after : Candidates) :
    ∃ spaces, pager.clearTaken before after = { pager with spaces := spaces } := by
  unfold clearTaken
  induction List.range before.size generalizing pager with
  | nil => exact ⟨pager.spaces, rfl⟩
  | cons frame rest inductionHypothesis =>
      rw [List.foldl_cons]
      split
      · unfold clearAccessed
        split
        · exact inductionHypothesis pager
        · exact inductionHypothesis (pager.modifyTable _ _)
      · exact inductionHypothesis pager

end Unseen

/-! ## Giving up and getting a frame -/

section Frames

variable {pager : Pager} {owner : Owner} {frame : Nat}

theorem ledger_detached (aligned : pageBase owner.va = owner.va) :
    (pager.detached owner).ledger =
      (pager.ledger.setTranslation owner none).setPage owner
        ((pager.ledger.pages owner).map fun page => { page with frame := none }) := by
  rw [detached, ledger_modifyPage, ledger_clear, aligned]
  rfl

theorem ledger_attached
    (aligned : pageBase owner.va = owner.va) {space : AddressSpace}
    (found : pager.space? owner.pid = some space) {table : PageTable} {writable : Bool}
    (installed : space.table.install? owner.va (frameBase frame) writable = some table) :
    (pager.attached owner frame table).ledger =
      (pager.ledger.setTranslation owner (some ⟨frameBase frame, writable⟩)).setPage owner
        ((pager.ledger.pages owner).map fun page => { page with frame := some frame }) := by
  rw [attached, ledger_modifyPage, ledger_install pager owner.pid found installed, aligned]
  rfl

/-- A page table has no entry for a page that is not resident. -/
theorem install?_isSome
    {flight : Option (Owner × Nat)} (sound : pager.ledger.Sound flight)
    (aligned : pageBase owner.va = owner.va) {space : AddressSpace}
    (found : pager.space? owner.pid = some space) {page : Page}
    (present : pager.ledger.pages owner = some page) (absent : page.frame = none)
    (base : Nat) (writable : Bool) :
    ∃ table, space.table.install? owner.va base writable = some table := by
  rw [← Option.ne_none_iff_exists', ne_eq, PageTable.install?_eq_none_iff]
  intro entry
  obtain ⟨entry, entryFound⟩ := Option.isSome_iff_exists.mp entry
  have translated := translation?_of_space found owner.va
  rw [← aligned, PageTable.translation?_pageBase, entryFound, aligned,
    sound.untranslated present absent] at translated
  cases translated

end Frames

end Pager

/-! ## Fetching -/

namespace PageKind

/-- What a page becomes when its content is fetched. -/
def settled : PageKind → PageKind
  | pending load =>
      match load with
      | .zero | .segment _ => anonymous none
      | .mapped range => file range
  | anonymous _ => anonymous none
  | file range => file range

theorem slot?_eq_some_iff {kind : PageKind} {slot : Nat} :
    kind.slot? = some slot ↔ kind = .anonymous (some slot) := by
  cases kind <;> simp [slot?]

theorem slot?_settled (kind : PageKind) : kind.settled.slot? = none := by
  rcases kind with (_ | _ | _) | _ | _ <;> rfl

theorem settled_ne_pending (kind : PageKind) (load : LazyLoad) :
    kind.settled ≠ .pending load := by
  rcases kind with (_ | _ | _) | _ | _ <;> simp [settled]

theorem readLength_settled_le (kind : PageKind) :
    kind.settled.readLength ≤ kind.readLength := by
  rcases kind with (_ | _ | _) | _ | _ <;> simp [settled, readLength, LazyLoad.range?]

variable {kind after : PageKind} {swap : SwapSpace} {files : FileTable} {image : Image}

theorem fetch_kind (complete : (kind.fetch swap files image).kind = some after) :
    after = kind.settled := by
  unfold fetch at complete
  split at complete
  · cases complete
    rfl
  · cases complete
    rfl
  · split at complete
    · cases complete
    · split at complete <;> cases complete
      rfl
  · split at complete <;> cases complete
    rfl
  · split at complete <;> cases complete
    rfl
  · split at complete <;> cases complete
    rfl

/-- Only a page in a slot is fetched from the swap space. -/
theorem fetch_swap (without : kind.slot? = none) :
    (kind.fetch swap files image).swap = swap := by
  unfold fetch
  split
  case h_6 => cases without
  all_goals
    try split
    all_goals try split
    all_goals rfl

/-- A fetch from a slot gives the slot back, unless it fails. -/
theorem fetch_slot {slot : Nat} (held : kind.slot? = some slot) :
    ((kind.fetch swap files image).swap.used = swap.used.erase slot ∧
      (kind.fetch swap files image).image = swap.slotImage slot ∧
      (kind.fetch swap files image).kind = some (.anonymous none)) ∨
    ((kind.fetch swap files image).swap.used = swap.used ∧
      (kind.fetch swap files image).kind = none) := by
  rcases kind with _ | _ | _ <;> cases held
  have used := swap.used_fetch slot image
  simp only [fetch]
  split <;> rename_i fetched
  · left
    have complete := @SwapSpace.fetch_complete swap slot image (by rw [fetched])
    rw [fetched] at used complete
    exact ⟨congrArg (Bitmap.erase · slot) used, complete, rfl⟩
  · right
    rw [fetched] at used
    exact ⟨used, rfl⟩

/-- Fetching leaves the content of every slot alone. -/
theorem fetch_slotImage : (kind.fetch swap files image).swap.slotImage = swap.slotImage := by
  cases held : kind.slot? with
  | none => rw [fetch_swap held]
  | some slot =>
      rcases kind with _ | _ | _ <;> cases held
      funext other
      have kept := swap.slotImage_fetch slot other image
      simp only [fetch]
      split <;> rename_i fetched <;> rw [fetched] at kept <;> exact kept

end PageKind

namespace Pager

section Fetching

variable {pager : Pager} {owner : Owner} {kind : PageKind} {frame : Nat} {fetched : Fetched}

/-- What was noted about a fetch does not show in the ledger. -/
theorem ledger_putFetched :
    (pager.putFetched owner kind frame fetched).ledger =
      ({ pager with swap := fetched.swap, files := fetched.files }.modifyFrames fun frames =>
        frames.setImage frame fetched.image).ledger := by
  unfold putFetched noteTransfers noteLoad
  dsimp only
  split <;> split <;> rfl

theorem frameCount_putFetched :
    (pager.putFetched owner kind frame fetched).frames.frameCount = pager.frames.frameCount := by
  have shown := congrArg Ledger.frameCount
    (@ledger_putFetched pager owner kind frame fetched)
  exact shown.trans (FramePool.frameCount_modify _ _ _)

/-- A fetch that leaves the slots as they are fills the frame. -/
theorem ledger_putFetched_of_used
    (inside : frame < pager.frames.frameCount)
    (used : fetched.swap.used = pager.swap.used)
    (slotImages : fetched.swap.slotImage = pager.swap.slotImage) :
    (pager.putFetched owner kind frame fetched).ledger =
      pager.ledger.setImage frame fetched.image := by
  have filled := @ledger_setImage { pager with swap := fetched.swap, files := fetched.files }
    frame inside fetched.image
  rw [ledger_putFetched, filled]
  simp only [ledger, used, slotImages, SwapSpace.slotCount]
  rfl

/-- A fetch that empties a slot fills the frame. -/
theorem ledger_putFetched_of_slot
    {slot : Nat} (inside : frame < pager.frames.frameCount)
    (bound : slot < pager.swap.slotCount)
    (used : fetched.swap.used = pager.swap.used.erase slot)
    (slotImages : fetched.swap.slotImage = pager.swap.slotImage) :
    (pager.putFetched owner kind frame fetched).ledger =
      (pager.ledger.setUsed slot false).setImage frame fetched.image := by
  have filled := @ledger_setImage { pager with swap := fetched.swap, files := fetched.files }
    frame inside fetched.image
  have cleared := pager.swap.used.get_erase_eq_update bound
  rw [ledger_putFetched, filled]
  simp only [ledger, used, slotImages, SwapSpace.slotCount, cleared]
  rfl

end Fetching

end Pager

end DemandPaging
