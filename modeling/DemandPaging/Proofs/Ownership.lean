import DemandPaging.Proofs.History
import DemandPaging.Proofs.Roster

/-!
# Who owns frames and slots

In every state of a history the tables agree: a frame belongs to the page that is in it and that its
process reaches through the page table, and a slot to the page of anonymous memory that it holds.
-/

namespace DemandPaging

namespace Pager

/-- The frame table, the free frames, the pages and the page tables of all processes agree. -/
structure FramesAgree (pager : Pager) (config : Config) : Prop where
  owner_iff_page : ∀ frame owner,
    pager.frames.owner? frame = some owner ↔
      ∃ page, pager.pageOf owner = some page ∧ page.frame = some frame
  owner_iff_resolves : ∀ frame owner,
    pager.frames.owner? frame = some owner ↔
      (pager.table owner.pid).resolve? owner.va = some (frameBase frame)
  translation : ∀ owner translation,
    pager.translationOf owner = some translation →
      ∃ page frame, pager.pageOf owner = some page ∧ page.frame = some frame ∧
        translation = ⟨frameBase frame, page.writable⟩
  free_once : pager.frames.free.Nodup
  free_iff : ∀ frame,
    frame ∈ pager.frames.free ↔ frame < config.frameCount ∧ pager.frames.owner? frame = none
  unpinned : ∀ (frame : Nat) (entry : Frame),
    pager.frames.frames[frame]? = some entry → entry.pinned = false
  initialized : ∀ owner page load,
    pager.pageOf owner = some page → page.kind = .pending load → page.frame = none
  placed : ∀ owner page,
    pager.pageOf owner = some page →
      page.va = owner.va ∧ pageAligned owner.va = true ∧ owner.va ≠ 0 ∧
        owner.va < config.kernelBase
  total : pager.stats.framesTotal = config.frameCount
  counted : pager.stats.framesFree + pager.roster.countP (fun entry => entry.2.isResident) =
    pager.stats.framesTotal
  idle : pager.spaces.isEmpty = true → pager.stats.framesFree = pager.stats.framesTotal

/-- The slots in use and the pages of anonymous memory of all processes agree. -/
structure SlotsAgree (pager : Pager) : Prop where
  used_iff : ∀ slot,
    pager.swap.used.get slot = true ↔
      ∃! owner, ∃ page, pager.pageOf owner = some page ∧ page.kind = .anonymous (some slot)
  unique : ∀ slot owner other page otherPage,
    pager.pageOf owner = some page → page.kind = .anonymous (some slot) →
      pager.pageOf other = some otherPage → otherPage.kind = .anonymous (some slot) →
        owner = other
  inside : ∀ slot, pager.swap.used.get slot = true → slot < pager.stats.swapSlotsTotal
  either : ∀ owner page held,
    pager.pageOf owner = some page → page.kind = .anonymous held →
      page.isResident = !held.isSome
  others : ∀ owner page,
    pager.pageOf owner = some page → (∀ held, page.kind ≠ .anonymous held) →
      page.kind.slot? = none
  counted : pager.stats.swapSlotsFree + pager.roster.countP (fun entry => entry.2.isSwapped) =
    pager.stats.swapSlotsTotal
  idle : pager.spaces.isEmpty = true → pager.stats.swapSlotsFree = pager.stats.swapSlotsTotal
  backed : ∀ owner succeeded, Activity.fetched owner (.anonymous none) succeeded ∉ pager.journal

variable {pager : Pager} {owner : Owner} {frame : Nat}

theorem resolve?_table (pager : Pager) (pid : Pid) (va : Nat) :
    (pager.table pid).resolve? va =
      (pager.ledger.translations ⟨pid, pageBase va⟩).map fun translation =>
        translation.base + pageOffset va := by
  cases found : pager.space? pid with
  | none =>
      have untranslated : pager.ledger.translations ⟨pid, pageBase va⟩ = none := by
        simp only [ledger, translationOf, shown, found, Option.bind_none]
      rw [untranslated, table, found]
      rfl
  | some space =>
      rw [← translation?_of_space found, PageTable.translation?_pageBase, table, found]
      dsimp only [PageTable.resolve?]
      cases space.table.find? va <;> rfl

/-- A frame belongs to a page if and only if the address of the page leads to it. -/
theorem owner_iff_resolves (sound : pager.ledger.Sound none) :
    pager.ledger.owners frame = some owner ↔
      (pager.table owner.pid).resolve? owner.va = some (frameBase frame) := by
  rw [resolve?_table]
  have split := pageBase_add_pageOffset owner.va
  constructor
  · intro owned
    obtain ⟨page, present, resident⟩ := sound.page_of_owner owned
    have aligned := (sound.placed owner page present).aligned
    have translated := sound.frames.translation_of_page owner page frame present resident
    have start : pageOffset owner.va = 0 := by omega
    rw [aligned, translated, start, Option.map_some, Nat.add_zero]
  · intro resolved
    obtain ⟨translation, translated, leads⟩ := Option.map_eq_some_iff.mp resolved
    obtain ⟨page, other, present, resident⟩ :=
      sound.frames.page_of_translation _ translation translated
    have same := sound.frames.translation_of_page _ page other present resident
    rw [translated] at same
    cases same
    have below := pageOffset_lt owner.va
    dsimp only at leads
    have sameFrame : other = frame := by
      have whole := @frameBase_div frame 0 (by decide)
      rw [Nat.add_zero, ← leads, frameBase_div below] at whole
      exact whole
    rw [sameFrame] at leads
    have start : pageOffset owner.va = 0 := by omega
    have aligned : pageBase owner.va = owner.va := by omega
    rw [aligned] at present
    rw [sameFrame] at resident
    exact sound.owner_of_page present resident

end Pager

section Laws

variable {config : Config} {kind : PolicyKind} {device : Device} {files : FileTable}
  {events : List Event} {pager : Pager}

/-- In every state of a history each frame is free or belongs to the one page that is in it. -/
theorem frames_agree (history : History config kind device files events pager) :
    pager.FramesAgree config := by
  have orderly := history.orderly
  have sound := orderly.sound
  have sized : pager.frames.frameCount = config.frameCount := by
    rw [← orderly.config]
    exact sound.sized
  constructor
  case owner_iff_page => exact fun frame owner => Pager.owner_iff_page sound frame owner
  case owner_iff_resolves => exact fun _ _ => Pager.owner_iff_resolves sound
  case translation =>
    intro owner translation translated
    obtain ⟨page, frame, present, resident⟩ :=
      sound.frames.page_of_translation owner translation translated
    have same := sound.frames.translation_of_page owner page frame present resident
    have leads : pager.ledger.translations owner = some translation := translated
    rw [leads] at same
    exact ⟨page, frame, present, resident, Option.some.inj same⟩
  case free_once => exact sound.listed.nodup
  case free_iff =>
    intro frame
    rw [← sized]
    exact sound.listed.mem_free frame
  case unpinned =>
    intro frame entry found
    have unpinned := orderly.unpinned frame
    simpa only [Pager.ledger, FramePool.isPinned, found] using unpinned
  case initialized =>
    intro owner page load present pending
    rw [Option.eq_none_iff_forall_ne_some]
    intro frame resident
    exact sound.frames.initialized owner page frame load present resident pending
  case placed =>
    intro owner page present
    obtain ⟨va, aligned, nonnull, user, _⟩ := sound.placed owner page present
    have split := pageBase_add_pageOffset owner.va
    refine ⟨va, ?_, nonnull, ?_⟩
    · rw [pageAligned, beq_iff_eq]
      omega
    · rw [← orderly.config]
      exact user
  case total => exact sized
  case counted => exact Pager.freeCount_add_resident sound
  case idle =>
    intro empty
    have counted := Pager.freeCount_add_resident sound
    rw [Pager.roster_of_isEmpty empty] at counted
    exact counted

theorem frames_agree_of_two_pages :
    ∃ pager : Pager, pager.frames.owner? 0 = some ⟨1, 4096⟩ ∧
      pager.FramesAgree { frameCount := 1 } := by
  have owned : (((Pager.create { frameCount := 1 } .fifo (Device.blank .memory 16) ⟨#[]⟩).play []
      twoPages).any fun result => result.2.frames.owner? 0 == some ⟨1, 4096⟩) = true := by
    decide +kernel
  obtain ⟨⟨events, pager⟩, played, owned⟩ := (Option.any_eq_true ..).mp owned
  exact ⟨pager, by simpa using owned, frames_agree (History.start.play played)⟩

/-- In every state of a history each slot is free or holds the one page that names it. -/
theorem slots_agree (history : History config kind device files events pager) :
    pager.SlotsAgree := by
  have orderly := history.orderly
  have sound := orderly.sound
  constructor
  case used_iff =>
    intro slot
    constructor
    · intro used
      obtain ⟨owner, page, present, holds⟩ := sound.slots.page_of_slot slot used
      refine ⟨owner, ⟨page, present, holds⟩, ?_⟩
      rintro other ⟨otherPage, otherPresent, otherHolds⟩
      exact sound.slots.unique other owner otherPage page slot otherPresent present otherHolds holds
    · rintro ⟨owner, ⟨page, present, holds⟩, _⟩
      exact (sound.slots.slot_of_page owner page slot present holds).1
  case unique =>
    intro slot owner other page otherPage present holds otherPresent otherHolds
    exact sound.slots.unique owner other page otherPage slot present otherPresent holds otherHolds
  case inside => exact sound.slots.inside
  case either =>
    intro owner page held present anonymous
    cases held with
    | none =>
        have resident := sound.slots.resident owner page present anonymous
        exact Option.isSome_iff_ne_none.mpr resident
    | some slot =>
        have absent := (sound.slots.slot_of_page owner page slot present anonymous).2
        rw [Page.isResident, absent]
        rfl
  case others =>
    intro owner page _ other
    cases kind : page.kind with
    | anonymous held => exact absurd kind (other held)
    | pending load => rfl
    | file range => rfl
  case counted => exact Pager.freeSlots_add_swapped sound
  case idle =>
    intro empty
    have counted := Pager.freeSlots_add_swapped sound
    rw [Pager.roster_of_isEmpty empty] at counted
    exact counted
  case backed => exact orderly.backed

theorem slots_agree_of_two_pages :
    ∃ pager : Pager, pager.swap.used.get 0 = true ∧ pager.SlotsAgree := by
  have used : (((Pager.create { frameCount := 1 } .clock (Device.blank .memory 16) ⟨#[]⟩).play []
      (twoPages ++ [.claim 1 8192])).any fun result => result.2.swap.used.get 0) = true := by
    decide +kernel
  obtain ⟨⟨events, pager⟩, played, used⟩ := (Option.any_eq_true ..).mp used
  exact ⟨pager, used, slots_agree (History.start.play played)⟩

end Laws

end DemandPaging
