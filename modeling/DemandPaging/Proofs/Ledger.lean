import DemandPaging.Pager.Fork
import DemandPaging.Proofs.Slots
import Mathlib.Logic.Function.Basic

/-!
# The ledger of a pager

The ledger says who holds what: which pages there are, which translations lead to frames, which page
each frame belongs to, what frames and slots contain. It leaves out how the tables behind it are
built, so every change of a pager is a change of a function at one point.
-/

namespace DemandPaging

/-- Where a page table entry leads, and whether it may be written. -/
structure Translation where
  base : Nat
  writable : Bool
  deriving DecidableEq

/-- Who holds what in a virtual memory. -/
structure Ledger where
  /-- The pages by process and address. -/
  pages : Owner → Option Page
  translations : Owner → Option Translation
  /-- The page that each frame belongs to. -/
  owners : Nat → Option Owner
  pinned : Nat → Bool
  /-- The content of each frame. -/
  images : Nat → Image
  free : List Nat
  policy : Policy
  frameCount : Nat
  /-- The slots in use. -/
  used : Nat → Bool
  /-- The content of each slot. -/
  slotImages : Nat → Image
  slotCount : Nat
  config : Config

namespace Ledger

/-- The ledger with another page at one place. -/
def setPage (ledger : Ledger) (owner : Owner) (page : Option Page) : Ledger :=
  { ledger with pages := Function.update ledger.pages owner page }

/-- The ledger with another translation at one place. -/
def setTranslation (ledger : Ledger) (owner : Owner) (translation : Option Translation) : Ledger :=
  { ledger with translations := Function.update ledger.translations owner translation }

/-- The ledger after a frame was handed to a page. -/
def assign (ledger : Ledger) (frame : Nat) (owner : Owner) : Ledger :=
  { ledger with
    owners := Function.update ledger.owners frame (some owner)
    pinned := Function.update ledger.pinned frame true
    policy := ledger.policy.acquired frame }

/-- The ledger after a frame was taken from its page. -/
def release (ledger : Ledger) (frame : Nat) : Ledger :=
  { ledger with
    owners := Function.update ledger.owners frame none
    pinned := Function.update ledger.pinned frame false
    policy := ledger.policy.released frame
    free := frame :: ledger.free }

def setPinned (ledger : Ledger) (frame : Nat) (on : Bool) : Ledger :=
  { ledger with pinned := Function.update ledger.pinned frame on }

def setImage (ledger : Ledger) (frame : Nat) (image : Image) : Ledger :=
  { ledger with images := Function.update ledger.images frame image }

def setUsed (ledger : Ledger) (slot : Nat) (on : Bool) : Ledger :=
  { ledger with used := Function.update ledger.used slot on }

def setSlotImage (ledger : Ledger) (slot : Nat) (image : Image) : Ledger :=
  { ledger with slotImages := Function.update ledger.slotImages slot image }

end Ledger

/-! ## Reading the ledger off a pager -/

namespace PageTable

/-- The translation of the page that starts at an address. -/
def translation? (table : PageTable) (va : Nat) : Option Translation :=
  (table.entries[va]?).map fun entry => ⟨entry.base, entry.writable⟩

theorem translation?_pageBase (table : PageTable) (va : Nat) :
    table.translation? (pageBase va) =
      (table.find? va).map fun entry => ⟨entry.base, entry.writable⟩ :=
  rfl

theorem translation?_clear (table : PageTable) (va other : Nat) :
    (table.clear va).translation? other =
      if pageBase va = other then none else table.translation? other := by
  simp only [translation?, clear, Std.ExtTreeMap.getElem?_erase,
    Std.LawfulEqCmp.compare_eq_iff_eq]
  split <;> rfl

theorem translation?_install
    {table installed : PageTable} {va base : Nat} {writable : Bool}
    (done : table.install? va base writable = some installed) (other : Nat) :
    installed.translation? other =
      if pageBase va = other then some ⟨base, writable⟩ else table.translation? other := by
  unfold install? at done
  split at done
  · cases done
  · cases done
    simp only [translation?, Std.ExtTreeMap.getElem?_insert, Std.LawfulEqCmp.compare_eq_iff_eq]
    split <;> rfl

theorem translation?_modify
    (table : PageTable) (va other : Nat) {change : PageEntry → PageEntry}
    (same : ∀ entry, (change entry).base = entry.base ∧
      (change entry).writable = entry.writable) :
    (translation? ⟨table.entries.modify va change⟩ other) = table.translation? other := by
  simp only [translation?, Std.ExtTreeMap.getElem?_modify, Std.LawfulEqCmp.compare_eq_iff_eq]
  split
  · rename_i here
    rw [here, Option.map_map]
    congr 1
    funext entry
    rw [Function.comp_apply, (same entry).1, (same entry).2]
  · rfl

theorem translation?_setDirty (table : PageTable) (va other : Nat) (on : Bool) :
    (table.setDirty va on).translation? other = table.translation? other :=
  table.translation?_modify _ other fun _ => ⟨rfl, rfl⟩

theorem translation?_setAccessed (table : PageTable) (va other : Nat) (on : Bool) :
    (table.setAccessed va on).translation? other = table.translation? other :=
  table.translation?_modify _ other fun _ => ⟨rfl, rfl⟩

end PageTable

namespace FramePool

/-- Whether a frame is pinned. -/
def isPinned (pool : FramePool) (frame : Nat) : Bool :=
  match pool.frames[frame]? with
  | some entry => entry.pinned
  | none => false

end FramePool

namespace Pager

/-- What the user memory of a process shows at an address. -/
def shown {α : Type} (pager : Pager) (view : AddressSpace → Nat → Option α) (owner : Owner) :
    Option α :=
  (pager.space? owner.pid).bind fun space => view space owner.va

/-- The page of a process that starts at an address. -/
def pageOf (pager : Pager) : Owner → Option Page :=
  pager.shown fun space va => space.pages[va]?

/-- The translation of the page of a process that starts at an address. -/
def translationOf (pager : Pager) : Owner → Option Translation :=
  pager.shown fun space va => space.table.translation? va

/-- Who holds what in a pager. -/
def ledger (pager : Pager) : Ledger where
  pages := pager.pageOf
  translations := pager.translationOf
  owners := pager.frames.owner?
  pinned := pager.frames.isPinned
  images := pager.frames.image
  free := pager.frames.free
  policy := pager.frames.policy
  frameCount := pager.frames.frameCount
  used := pager.swap.used.get
  slotImages := pager.swap.slotImage
  slotCount := pager.swap.slotCount
  config := pager.config

theorem page?_eq (pager : Pager) (pid : Pid) (va : Nat) :
    pager.page? pid va = pager.ledger.pages ⟨pid, pageBase va⟩ := by
  simp only [page?, ledger, pageOf, shown]
  cases pager.space? pid <;> rfl

section Spaces

variable {pager : Pager} {pid : Pid} {space : AddressSpace}

theorem shown_of_space
    {α : Type} (view : AddressSpace → Nat → Option α)
    (found : pager.space? pid = some space) (va : Nat) :
    view space va = pager.shown view ⟨pid, va⟩ := by
  rw [shown, found, Option.bind_some]

theorem page?_of_space (found : pager.space? pid = some space) (va : Nat) :
    space.page? va = pager.ledger.pages ⟨pid, pageBase va⟩ := by
  rw [← page?_eq, page?, found]

theorem pages_of_space (found : pager.space? pid = some space) (va : Nat) :
    space.pages[va]? = pager.ledger.pages ⟨pid, va⟩ :=
  shown_of_space (fun space va => space.pages[va]?) found va

theorem translation?_of_space (found : pager.space? pid = some space) (va : Nat) :
    space.table.translation? va = pager.ledger.translations ⟨pid, va⟩ :=
  shown_of_space (fun space va => space.table.translation? va) found va

theorem space?_of_page
    {owner : Owner} {page : Page} (present : pager.ledger.pages owner = some page) :
    ∃ space, pager.space? owner.pid = some space := by
  obtain ⟨space, found, _⟩ := Option.bind_eq_some_iff.mp present
  exact ⟨space, found⟩

theorem pages_of_absent (absent : pager.space? pid = none) (va : Nat) :
    pager.ledger.pages ⟨pid, va⟩ = none := by
  simp only [ledger, pageOf, shown, absent, Option.bind_none]

end Spaces

/-! ## Changes of address spaces -/

section Changes

variable {α : Type} (pager : Pager) (pid : Pid)

theorem space?_modifySpace (other : Pid) (change : AddressSpace → AddressSpace) :
    (pager.modifySpace pid change).space? other =
      if pid = other then (pager.space? other).map change else pager.space? other := by
  simp only [space?, modifySpace, Std.ExtTreeMap.getElem?_modify,
    Std.LawfulEqCmp.compare_eq_iff_eq]
  split
  · rename_i same
    rw [same]
  · rfl

theorem shown_modifySpace
    (view : AddressSpace → Nat → Option α) (change : AddressSpace → AddressSpace)
    (owner : Owner) :
    (pager.modifySpace pid change).shown view owner =
      if pid = owner.pid then
        (pager.space? owner.pid).bind fun space => view (change space) owner.va
      else pager.shown view owner := by
  simp only [shown, space?_modifySpace]
  split
  · rw [Option.bind_map]
    rfl
  · rfl

theorem shown_modifySpace_of_same
    {view : AddressSpace → Nat → Option α} {change : AddressSpace → AddressSpace}
    (same : ∀ space va, view (change space) va = view space va) :
    (pager.modifySpace pid change).shown view = pager.shown view := by
  funext owner
  rw [shown_modifySpace]
  simp only [same]
  exact ite_self _

/-- A change that shows at one address only. -/
theorem shown_modifySpace_update
    {view : AddressSpace → Nat → Option α} {change : AddressSpace → AddressSpace} {va : Nat}
    {new : Option α}
    (here : ∀ space, pager.space? pid = some space → view (change space) va = new)
    (absent : pager.space? pid = none → new = none)
    (elsewhere : ∀ space, pager.space? pid = some space →
      ∀ other, va ≠ other → view (change space) other = view space other) :
    (pager.modifySpace pid change).shown view =
      Function.update (pager.shown view) ⟨pid, va⟩ new := by
  funext owner
  rw [shown_modifySpace]
  by_cases same : owner = ⟨pid, va⟩
  · subst same
    rw [Function.update_self, if_pos rfl]
    cases found : pager.space? pid with
    | none => exact (absent found).symm
    | some space => exact here space found
  · rw [Function.update_of_ne same]
    split
    · rename_i samePid
      have apart : va ≠ owner.va := by
        intro sameVa
        exact same (by rw [samePid, sameVa])
      rw [shown, ← samePid]
      cases found : pager.space? pid with
      | none => rfl
      | some space => exact elsewhere space found owner.va apart
    · rfl

variable {pager pid}

/-- A change of an address space shows in the ledger only as a change of pages and translations. -/
theorem ledger_modifySpace
    {change : AddressSpace → AddressSpace}
    {pages : Owner → Option Page} {translations : Owner → Option Translation}
    (samePages : (pager.modifySpace pid change).pageOf = pages)
    (sameTranslations : (pager.modifySpace pid change).translationOf = translations) :
    (pager.modifySpace pid change).ledger =
      { pager.ledger with pages := pages, translations := translations } := by
  rw [← samePages, ← sameTranslations]
  rfl

variable (pager pid)

/-- Regions, stack pointers and the accessed and dirty bits do not show in the ledger. -/
theorem ledger_modifySpace_of_same
    {change : AddressSpace → AddressSpace}
    (pages : ∀ space, (change space).pages = space.pages)
    (table : ∀ space va,
      (change space).table.translation? va = space.table.translation? va) :
    (pager.modifySpace pid change).ledger = pager.ledger :=
  ledger_modifySpace
    (pager.shown_modifySpace_of_same pid fun space va => by rw [pages])
    (pager.shown_modifySpace_of_same pid table)

theorem ledger_modifyPage (va : Nat) (change : Page → Page) :
    (pager.modifyPage pid va change).ledger =
      pager.ledger.setPage ⟨pid, pageBase va⟩
        ((pager.ledger.pages ⟨pid, pageBase va⟩).map change) := by
  refine ledger_modifySpace ?_ (pager.shown_modifySpace_of_same pid fun _ _ => rfl)
  apply shown_modifySpace_update
  · intro space found
    rw [← pages_of_space found]
    simp only [Std.ExtTreeMap.getElem?_modify, Std.LawfulEqCmp.compare_eq_iff_eq, if_pos]
  · intro missing
    simp only [ledger, pageOf, shown, missing, Option.bind_none, Option.map_none]
  · intro space _ other apart
    simp only [Std.ExtTreeMap.getElem?_modify, Std.LawfulEqCmp.compare_eq_iff_eq, if_neg apart]

theorem ledger_insertPage {space : AddressSpace} (found : pager.space? pid = some space)
    (page : Page) :
    (pager.modifySpace pid fun space =>
      { space with pages := space.pages.insert page.va page }).ledger =
      pager.ledger.setPage ⟨pid, page.va⟩ (some page) := by
  refine ledger_modifySpace ?_ (pager.shown_modifySpace_of_same pid fun _ _ => rfl)
  apply shown_modifySpace_update
  · intro space _
    simp only [Std.ExtTreeMap.getElem?_insert, Std.LawfulEqCmp.compare_eq_iff_eq, if_pos]
  · intro missing
    rw [missing] at found
    cases found
  · intro space _ other apart
    simp only [Std.ExtTreeMap.getElem?_insert, Std.LawfulEqCmp.compare_eq_iff_eq, if_neg apart]

theorem ledger_erasePage (owner : Owner) :
    (pager.erasePage owner).ledger = pager.ledger.setPage owner none := by
  refine ledger_modifySpace ?_ (pager.shown_modifySpace_of_same owner.pid fun _ _ => rfl)
  apply shown_modifySpace_update
  · intro space _
    simp only [Std.ExtTreeMap.getElem?_erase, Std.LawfulEqCmp.compare_eq_iff_eq, if_pos]
  · exact fun _ => rfl
  · intro space _ other apart
    simp only [Std.ExtTreeMap.getElem?_erase, Std.LawfulEqCmp.compare_eq_iff_eq, if_neg apart]

theorem ledger_clear (va : Nat) :
    (pager.modifyTable pid fun table => table.clear va).ledger =
      pager.ledger.setTranslation ⟨pid, pageBase va⟩ none := by
  refine ledger_modifySpace (pager.shown_modifySpace_of_same pid fun _ _ => rfl) ?_
  apply shown_modifySpace_update
  · intro space _
    rw [PageTable.translation?_clear, if_pos rfl]
  · exact fun _ => rfl
  · intro space _ other apart
    rw [PageTable.translation?_clear, if_neg apart]

theorem ledger_install
    {space : AddressSpace} (found : pager.space? pid = some space)
    {table : PageTable} {va base : Nat} {writable : Bool}
    (done : space.table.install? va base writable = some table) :
    (pager.modifyTable pid fun _ => table).ledger =
      pager.ledger.setTranslation ⟨pid, pageBase va⟩ (some ⟨base, writable⟩) := by
  refine ledger_modifySpace (pager.shown_modifySpace_of_same pid fun _ _ => rfl) ?_
  apply shown_modifySpace_update
  · intro space _
    rw [PageTable.translation?_install done, if_pos rfl]
  · intro missing
    rw [missing] at found
    cases found
  · intro other same va apart
    rw [found] at same
    cases same
    rw [PageTable.translation?_install done, if_neg apart]

/-- A new process shows nothing. -/
theorem shown_createProcess
    (view : AddressSpace → Nat → Option α) (absent : pager.space? pid = none) (stackPointer : Nat)
    (blank : ∀ va, view (AddressSpace.empty stackPointer) va = none) :
    { pager with
      spaces := pager.spaces.insert pid (AddressSpace.empty stackPointer) }.shown view =
      pager.shown view := by
  funext owner
  simp only [shown, space?, Std.ExtTreeMap.getElem?_insert, Std.LawfulEqCmp.compare_eq_iff_eq]
  split
  · rename_i here
    rw [space?, here] at absent
    rw [absent, Option.bind_some, blank, Option.bind_none]
  · rfl

/-- A process that shows nothing may be removed. -/
theorem shown_eraseSpace
    (view : AddressSpace → Nat → Option α) (nothing : ∀ va, pager.shown view ⟨pid, va⟩ = none) :
    (pager.eraseSpace pid).shown view = pager.shown view := by
  funext owner
  by_cases here : pid = owner.pid
  · subst here
    rw [nothing owner.va]
    simp [shown, space?, eraseSpace]
  · simp [shown, space?, eraseSpace, Std.ExtTreeMap.getElem?_erase, here]

theorem ledger_createProcess (absent : pager.space? pid = none) (stackPointer : Nat) :
    { pager with
      spaces := pager.spaces.insert pid (AddressSpace.empty stackPointer) }.ledger =
      pager.ledger := by
  have samePages := pager.shown_createProcess pid (fun space va => space.pages[va]?) absent
    stackPointer fun va => by simp [AddressSpace.empty]
  have sameTranslations := pager.shown_createProcess pid
    (fun space va => space.table.translation? va) absent stackPointer
      fun va => by simp [AddressSpace.empty, PageTable.empty, PageTable.translation?]
  rw [ledger, pageOf, translationOf, samePages, sameTranslations]
  rfl

/-- A process without pages and translations leaves nothing behind. -/
theorem ledger_eraseSpace
    (pages : ∀ va, pager.ledger.pages ⟨pid, va⟩ = none)
    (translations : ∀ va, pager.ledger.translations ⟨pid, va⟩ = none) :
    (pager.eraseSpace pid).ledger = pager.ledger := by
  have samePages := pager.shown_eraseSpace pid _ pages
  have sameTranslations := pager.shown_eraseSpace pid _ translations
  rw [ledger, pageOf, translationOf, samePages, sameTranslations]
  rfl

end Changes

end Pager

end DemandPaging
