import DemandPaging.Proofs.Marks
import DemandPaging.Pager.Access

/-!
# One turn at a time

Every program on the virtual memory is a sequence of turns. A turn is a change after which the ledger
is sound again; what it does is named by its deed. Laws about all programs are proved turn by turn.
-/

namespace DemandPaging

/-! ## Discarding -/

namespace Pager

/-- The pager after a page was saved because it is discarded. -/
def discardSaved (pager : Pager) (owner : Owner) (page : Page) : Pager :=
  match page.kind, page.frame with
  | .file range, some frame =>
      if page.writable then pager.writeBack owner range frame else pager
  | _, _ => pager

/-- The pager after the slot of a page was given back. -/
def discardSlot (pager : Pager) (page : Page) : Pager :=
  match page.kind.slot? with
  | some slot => pager.releaseSlot slot
  | none => pager

/-- The pager after the frame of a page was given back. -/
def discardFrame (pager : Pager) (owner : Owner) (page : Page) : Pager :=
  match page.frame with
  | some frame =>
      (pager.modifyTable owner.pid fun table => table.clear owner.va).modifyFrames fun frames =>
        frames.release frame
  | none => pager

/-- The pager after a page was discarded. -/
def discarded (pager : Pager) (owner : Owner) (page : Page) : Pager :=
  let noted := pager.note (.discarded owner page ((pager.table owner.pid).isDirty owner.va))
  let emptied := ((noted.discardSaved owner page).discardSlot page).discardFrame owner page
  (emptied.closeHandle page).erasePage owner

section Views

variable {α : Type} {owner : Owner} {page : Page} {view : Pager → α}

/-- What shows no slot, frame, handle or page of its own is the same after a page gave them up. -/
theorem keeps_released
    (slot : ∀ other slot, view (other.releaseSlot slot) = view other)
    (frame : ∀ other frame, view ((other.modifyTable owner.pid fun table =>
      table.clear owner.va).modifyFrames fun frames => frames.release frame) = view other)
    (handle : ∀ other file, view (other.closeFile file) = view other)
    (erased : ∀ other, view (other.erasePage owner) = view other) (pager : Pager) :
    view ((((pager.discardSlot page).discardFrame owner page).closeHandle page).erasePage owner) =
      view pager := by
  have slot : view (pager.discardSlot page) = view pager := by
    unfold discardSlot
    split
    · exact slot ..
    · rfl
  have frame (other : Pager) : view (other.discardFrame owner page) = view other := by
    unfold discardFrame
    split
    · exact frame ..
    · rfl
  have handle (other : Pager) : view (other.closeHandle page) = view other := by
    unfold closeHandle
    split
    · exact handle ..
    · rfl
  rw [erased, handle, frame, slot]

/-- If besides it shows neither notes nor what is written back, it is the same after a page was discarded. -/
theorem keeps_discarded
    (note : ∀ other activity, view (note other activity) = view other)
    (writeBack : ∀ other range frame, view (writeBack other owner range frame) = view other)
    (slot : ∀ other slot, view (other.releaseSlot slot) = view other)
    (frame : ∀ other frame, view ((other.modifyTable owner.pid fun table =>
      table.clear owner.va).modifyFrames fun frames => frames.release frame) = view other)
    (handle : ∀ other file, view (other.closeFile file) = view other)
    (erased : ∀ other, view (other.erasePage owner) = view other) (pager : Pager) :
    view (pager.discarded owner page) = view pager := by
  have saved (other : Pager) : view (other.discardSaved owner page) = view other := by
    unfold discardSaved
    split
    · split
      · exact writeBack ..
      · rfl
    · rfl
  rw [discarded, keeps_released slot frame handle erased, saved, note]

/-- What shows neither the notes of a fetch nor the frames, the slots and the files is the same after one. -/
theorem keeps_putFetched
    (filled : ∀ (other : Pager) swap files frames,
      view { other with swap := swap, files := files, frames := frames } = view other)
    (swapped : ∀ (other : Pager) slot reserved transfers,
      view (other.note (.swapped owner .read slot reserved transfers)) = view other)
    (loaded : ∀ (other : Pager) load content, view (other.note (.loaded owner load content)) = view other)
    (fetched : ∀ (other : Pager) kind succeeded,
      view (other.note (.fetched owner kind succeeded)) = view other)
    (pager : Pager) (kind : PageKind) (frame : Nat) (outcome : Fetched) :
    view (pager.putFetched owner kind frame outcome) = view pager := by
  have transfers (other : Pager) (swap : SwapSpace) :
      view (other.noteTransfers owner kind swap) = view other := by
    unfold noteTransfers
    split
    · exact swapped ..
    · rfl
  have loads (other : Pager) : view (other.noteLoad owner kind outcome) = view other := by
    unfold noteLoad
    split
    · exact loaded ..
    · rfl
  exact (fetched ..).trans ((loads _).trans ((transfers ..).trans (filled ..)))

end Views

theorem journal_released (pager : Pager) (owner : Owner) (page : Page) :
    ((((pager.discardSlot page).discardFrame owner page).closeHandle page).erasePage owner).journal =
      pager.journal :=
  @keeps_released _ owner page Pager.journal (fun _ _ => rfl) (fun _ _ => rfl) (fun _ _ => rfl)
    (fun _ => rfl) pager

end Pager

namespace Ledger

/-- A page goes with everything it holds. -/
inductive Discards (owner : Owner) (page : Page) (ledger : Ledger) : Ledger → Prop
  | untouched (absent : page.frame = none) (without : page.kind.slot? = none) :
      Discards owner page ledger (ledger.setPage owner none)
  | swapped {slot : Nat} (held : page.kind = .anonymous (some slot)) :
      Discards owner page ledger ((ledger.setUsed slot false).setPage owner none)
  | resident {frame : Nat} (resident : page.frame = some frame) :
      Discards owner page ledger
        (((ledger.setTranslation owner none).release frame).setPage owner none)

variable {ledger after : Ledger} {owner : Owner} {page : Page}

theorem Discards.sound
    (discards : ledger.Discards owner page after) (sound : ledger.Sound none)
    (present : ledger.pages owner = some page) : after.Sound none := by
  cases discards with
  | untouched absent without => exact sound.erase present absent without
  | swapped held => exact sound.eraseSwapped present held
  | resident resident => exact sound.eraseResident present resident

theorem Discards.pages (discards : ledger.Discards owner page after) :
    after.pages = Function.update ledger.pages owner none := by
  cases discards <;> rfl

end Ledger

namespace Pager

theorem ledger_discarded
    {pager : Pager} {owner : Owner} {page : Page} (sound : pager.ledger.Sound none)
    (present : pager.ledger.pages owner = some page) :
    pager.ledger.Discards owner page (pager.discarded owner page).ledger := by
  have aligned := (sound.placed owner page present).aligned
  have saved : ((pager.note (.discarded owner page
      ((pager.table owner.pid).isDirty owner.va))).discardSaved owner page).ledger =
      pager.ledger := by
    unfold discardSaved
    split
    · split
      · rw [ledger_writeBack, ledger_note]
      · rfl
    · rfl
  rw [discarded, ledger_erasePage, ledger_closeHandle]
  generalize (pager.note _).discardSaved owner page = kept at saved
  have slotCount := congrArg Ledger.slotCount saved
  have frameCount := congrArg Ledger.frameCount saved
  cases resident : page.frame with
  | some frame =>
      have without := sound.slot?_eq_none present resident
      have inside := sound.lt_frameCount (sound.owner_of_page present resident)
      have released := @ledger_release
        (kept.modifyTable owner.pid fun table => table.clear owner.va) frame
          (Nat.lt_of_lt_of_eq inside frameCount.symm)
      simp only [discardFrame, resident, discardSlot, without]
      rw [released, ledger_clear, aligned, saved]
      exact .resident resident
  | none =>
      simp only [discardFrame, resident, discardSlot]
      cases slotFound : page.kind.slot? with
      | none =>
          simp only
          rw [saved]
          exact .untouched resident slotFound
      | some slot =>
          have held := PageKind.slot?_eq_some_iff.mp slotFound
          have inside :=
            sound.slots.inside slot (sound.slots.slot_of_page owner page slot present held).1
          simp only
          rw [ledger_releaseSlot (Nat.lt_of_lt_of_eq inside slotCount.symm), saved]
          exact .swapped held

end Pager

/-! ## Turns -/

/-- The regions of a process that a new layout may differ in. -/
inductive Reach where
  | nowhere
  /-- The region that starts at an address. -/
  | at (base : Nat)
  | everywhere
  deriving DecidableEq

def Reach.Includes : Reach → Nat → Prop
  | nowhere, _ => False
  | .at base, other => other = base
  | everywhere, _ => True

/-- What a turn does. -/
inductive Deed where
  | counted
  | created (pid : Pid)
  | removed (pid : Pid)
  | relaid (pid : Pid) (reach : Reach)
  | reopened (file : FileId)
  | closed (file : FileId)
  | touched (owner : Owner)
  | dirtied (owner : Owner)
  | reserved (owner : Owner) (page : Page)
  | discarded (owner : Owner) (page : Page)
  /-- A page got a frame. -/
  | claimed (owner : Owner)
  /-- A page could not be read into the frame it was to get. -/
  | missed (owner : Owner)
  | stored (owner : Owner)
  | copied (owner : Owner)
  | pinned (frame : Nat)
  | unpinned (frame : Nat)
  deriving DecidableEq

namespace Deed

/-- Deeds that the ledger does not show. -/
def IsUnseen : Deed → Prop
  | counted | created _ | removed _ | relaid _ _ | reopened _ | closed _ | touched _ | dirtied _ => True
  | _ => False

end Deed

namespace Pager

/-- The pager after an access to a page that is allowed. -/
def touched (pager : Pager) (pid : Pid) (va : Nat) (isWrite : Bool) : Pager :=
  pager.modifyTable pid fun table =>
    let accessed := table.setAccessed va true
    if isWrite then accessed.setDirty va true else accessed

theorem ledger_touched (pager : Pager) (pid : Pid) (va : Nat) (isWrite : Bool) :
    (pager.touched pid va isWrite).ledger = pager.ledger := by
  refine ledger_modifySpace_of_same pager pid (fun _ => rfl) fun space other => ?_
  cases isWrite with
  | false => exact space.table.translation?_setAccessed va other true
  | true =>
      exact ((space.table.setAccessed va true).translation?_setDirty va other true).trans
        (space.table.translation?_setAccessed va other true)

/-- A change after which the ledger is sound again. -/
inductive Turn : Deed → Pager → Pager → Prop
  | counted (pager : Pager) (change : Counters → Counters) :
      Turn .counted pager (pager.modifyCounters change)
  | created {pager : Pager} {pid : Pid} (absent : pager.space? pid = none) :
      Turn (.created pid) pager
        { pager with
          spaces := pager.spaces.insert pid (AddressSpace.empty pager.config.stackTop) }
  | removed {pager : Pager} {pid : Pid} (vacant : ∀ va, pager.ledger.pages ⟨pid, va⟩ = none) :
      Turn (.removed pid) pager (pager.eraseSpace pid)
  | relaid (pager : Pager) (pid : Pid) {reach : Reach} {change : AddressSpace → AddressSpace}
      (pages : ∀ space, (change space).pages = space.pages)
      (table : ∀ space, (change space).table = space.table)
      (keyed : ∀ space, space.layout.IsKeyed → (change space).layout.IsKeyed)
      (kept : ∀ space base, ¬ reach.Includes base →
        (change space).regions[base]? = space.regions[base]?) :
      Turn (.relaid pid reach) pager (pager.modifySpace pid change)
  | reopened (pager : Pager) (file : FileId) :
      Turn (.reopened file) pager { pager with files := (pager.files.reopen file).1 }
  | closed (pager : Pager) (file : FileId) : Turn (.closed file) pager (pager.closeFile file)
  | touched {pager : Pager} {pid : Pid} {va : Nat} {isWrite : Bool} {translation : Translation}
      (translated : pager.ledger.translations ⟨pid, pageBase va⟩ = some translation)
      (allowed : isWrite = true → translation.writable = true) :
      Turn (.touched ⟨pid, pageBase va⟩) pager (pager.touched pid va isWrite)
  | dirtied {pager : Pager} {pid : Pid} {va : Nat} {page : Page}
      (present : pager.ledger.pages ⟨pid, pageBase va⟩ = some page)
      (writable : page.writable = true) :
      Turn (.dirtied ⟨pid, pageBase va⟩) pager
        (pager.modifyTable pid fun table => table.setDirty va true)
  | reserved {pager : Pager} {pid : Pid} {page : Page} {space : AddressSpace} {load : LazyLoad}
      (found : pager.space? pid = some space)
      (vacant : pager.ledger.pages ⟨pid, page.va⟩ = none)
      (placed : page.WellPlaced ⟨pid, page.va⟩ pager.config.kernelBase)
      (pending : page.kind = .pending load) (absent : page.frame = none) :
      Turn (.reserved ⟨pid, page.va⟩ page) pager
        (pager.modifySpace pid fun space =>
          { space with pages := space.pages.insert page.va page })
  | discarded {pager : Pager} {owner : Owner} {page : Page}
      (present : pager.ledger.pages owner = some page) :
      Turn (.discarded owner page) pager (pager.discarded owner page)
  | claimed {before held after : Pager} {owner : Owner} {page : Page} {frame : Nat}
      (present : before.ledger.pages owner = some page) (absent : page.frame = none)
      (acquires : before.Acquires owner frame held) (arrives : held.Arrives owner frame after) :
      Turn (.claimed owner) before after
  | missed {before held after : Pager} {owner : Owner} {page : Page} {frame : Nat}
      (present : before.ledger.pages owner = some page) (absent : page.frame = none)
      (acquires : before.Acquires owner frame held) (returns : held.Returns owner frame after) :
      Turn (.missed owner) before after
  | stored {pager : Pager} {owner : Owner} {page : Page} {address : Nat}
      (present : pager.ledger.pages owner = some page)
      (resident : page.frame = some (address / pageSize))
      (dirty : pager.dirtyOf owner = some true) (bytes : Array UInt8) :
      Turn (.stored owner) pager (pager.modifyFrames fun frames => frames.store address bytes)
  | copied {pager : Pager} {owner : Owner} {page : Page} {frame : Nat}
      (present : pager.ledger.pages owner = some page) (resident : page.frame = some frame)
      (image : Image) :
      Turn (.copied owner) pager (pager.modifyFrames fun frames => frames.setImage frame image)
  | pinned {pager : Pager} {owner : Owner} {frame : Nat}
      (owned : pager.ledger.owners frame = some owner) :
      Turn (.pinned frame) pager (pager.modifyFrames fun frames => frames.pin frame)
  | unpinned {pager : Pager} {owner : Owner} {frame : Nat}
      (owned : pager.ledger.owners frame = some owner) :
      Turn (.unpinned frame) pager (pager.modifyFrames fun frames => frames.unpin frame)

end Pager

namespace Ledger

/-- What a turn does to the ledger. -/
inductive Step : Deed → Ledger → Ledger → Prop
  | unseen {deed : Deed} (unseen : deed.IsUnseen) (ledger : Ledger) : Step deed ledger ledger
  | reserved {ledger : Ledger} {owner : Owner} {page : Page} {load : LazyLoad}
      (vacant : ledger.pages owner = none)
      (placed : page.WellPlaced owner ledger.config.kernelBase)
      (pending : page.kind = .pending load) (absent : page.frame = none) :
      Step (.reserved owner page) ledger (ledger.setPage owner (some page))
  | discarded {before after : Ledger} {owner : Owner} {page : Page}
      (present : before.pages owner = some page) (discards : before.Discards owner page after) :
      Step (.discarded owner page) before after
  | claimed {before held after : Ledger} {owner : Owner} {page : Page} {frame : Nat}
      {image : Image} (present : before.pages owner = some page) (absent : page.frame = none)
      (acquires : before.Acquires owner frame held)
      (arrives : held.Arrives owner page frame image after) :
      Step (.claimed owner) before after
  | missed {before held after : Ledger} {owner : Owner} {page : Page} {frame : Nat}
      (present : before.pages owner = some page) (absent : page.frame = none)
      (acquires : before.Acquires owner frame held) (returns : held.Returns frame after) :
      Step (.missed owner) before after
  | stored {ledger : Ledger} {owner : Owner} {page : Page} {frame : Nat}
      (present : ledger.pages owner = some page) (resident : page.frame = some frame)
      (image : Image) : Step (.stored owner) ledger (ledger.setImage frame image)
  | copied {ledger : Ledger} {owner : Owner} {page : Page} {frame : Nat}
      (present : ledger.pages owner = some page) (resident : page.frame = some frame)
      (image : Image) : Step (.copied owner) ledger (ledger.setImage frame image)
  | pinned {ledger : Ledger} {owner : Owner} {frame : Nat}
      (owned : ledger.owners frame = some owner) :
      Step (.pinned frame) ledger (ledger.setPinned frame true)
  | unpinned {ledger : Ledger} {owner : Owner} {frame : Nat}
      (owned : ledger.owners frame = some owner) :
      Step (.unpinned frame) ledger (ledger.setPinned frame false)

variable {before after : Ledger} {deed : Deed}

/-- Every step keeps the ledger sound. -/
theorem Step.sound (step : Step deed before after) (sound : before.Sound none) :
    after.Sound none := by
  cases step with
  | unseen => exact sound
  | reserved vacant placed pending absent => exact sound.reserve vacant placed pending absent
  | discarded present discards => exact discards.sound sound present
  | claimed present absent acquires arrives =>
      obtain ⟨held, presentThen⟩ := acquires.sound sound present absent
      exact arrives.sound held presentThen
  | missed present absent acquires returns =>
      exact returns.sound (acquires.sound sound present absent).1
  | stored present resident image => exact sound.setImage _ image
  | copied present resident image => exact sound.setImage _ image
  | pinned owned => exact sound.setPinned owned true
  | unpinned owned => exact sound.setPinned owned false

end Ledger

namespace Pager

variable {before after : Pager} {deed : Deed}

theorem Turn.step (turn : Turn deed before after) (sound : before.ledger.Sound none) :
    Ledger.Step deed before.ledger after.ledger := by
  cases turn with
  | counted _ change => exact .unseen (by trivial) _
  | created absent =>
      rw [ledger_createProcess _ _ absent]
      exact .unseen (by trivial) _
  | removed vacant =>
      rename_i pid
      have untranslated (va : Nat) : before.ledger.translations ⟨pid, va⟩ = none := by
        rw [Option.eq_none_iff_forall_ne_some]
        intro translation translated
        obtain ⟨page, _, present, _⟩ := sound.frames.page_of_translation _ translation translated
        rw [vacant] at present
        cases present
      rw [ledger_eraseSpace _ _ vacant untranslated]
      exact .unseen (by trivial) _
  | relaid _ pid pages table keyed kept =>
      rw [ledger_modifySpace_of_same _ _ pages fun space va => by rw [table]]
      exact .unseen (by trivial) _
  | reopened _ file => exact .unseen (by trivial) _
  | closed _ file => exact .unseen (by trivial) _
  | touched translated allowed =>
      rw [ledger_touched]
      exact .unseen (by trivial) _
  | dirtied present writable =>
      rw [ledger_setDirty]
      exact .unseen (by trivial) _
  | reserved found vacant placed pending absent =>
      rw [ledger_insertPage _ _ found]
      exact .reserved vacant placed pending absent
  | discarded present => exact .discarded present (ledger_discarded sound present)
  | claimed present absent acquires arrives =>
      have moves := acquires.moves sound
      obtain ⟨held, presentThen⟩ := moves.sound sound present absent
      obtain ⟨_, _, arrived, _⟩ := arrives.moves held presentThen
      exact .claimed present absent moves arrived
  | missed present absent acquires returns =>
      have moves := acquires.moves sound
      obtain ⟨held, presentThen⟩ := moves.sound sound present absent
      exact .missed present absent moves (returns.moves held presentThen).1
  | stored present resident dirty bytes =>
      rw [ledger_store (sound.lt_frameCount (sound.owner_of_page present resident))]
      exact .stored present resident _
  | copied present resident image =>
      rw [ledger_setImage (sound.lt_frameCount (sound.owner_of_page present resident))]
      exact .copied present resident image
  | pinned owned =>
      rw [ledger_pin (sound.lt_frameCount owned)]
      exact .pinned owned
  | unpinned owned =>
      rw [ledger_unpin (sound.lt_frameCount owned)]
      exact .unpinned owned

theorem Turn.sound (turn : Turn deed before after) (sound : before.ledger.Sound none) :
    after.ledger.Sound none :=
  (turn.step sound).sound sound

end Pager

end DemandPaging
