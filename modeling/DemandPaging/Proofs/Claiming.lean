import DemandPaging.Proofs.Proceeds

/-!
# Claiming frames

What the programs do that take a frame from one page and give it to another: each of them ends in one of
the moves of pages, or halts because memory is exhausted.
-/

namespace DemandPaging

/-- A page with a frame and a content that can be saved. -/
structure Ledger.Houses (ledger : Ledger) (owner : Owner) (page : Page) (frame : Nat) : Prop where
  present : ledger.pages owner = some page
  resident : page.frame = some frame
  owned : ledger.owners frame = some owner
  inside : frame < ledger.frameCount
  va : page.va = owner.va
  fits : page.kind.readLength ≤ pageSize
  initialized : ∀ load, page.kind ≠ .pending load
  unslotted : page.kind.slot? = none

theorem Ledger.Sound.houses
    {ledger : Ledger} {owner : Owner} {page : Page} {frame : Nat} (sound : ledger.Sound none)
    (present : ledger.pages owner = some page) (resident : page.frame = some frame) :
    ledger.Houses owner page frame where
  present := present
  resident := resident
  owned := sound.owner_of_page present resident
  inside := sound.lt_frameCount (sound.owner_of_page present resident)
  va := (sound.placed owner page present).va
  fits := (sound.placed owner page present).fits
  initialized := sound.not_pending present resident
  unslotted := sound.slot?_eq_none present resident

namespace Pager

open PagerM

variable {α : Type} {before pager : Pager} {owner : Owner} {page : Page} {frame slot : Nat}

/-! ## Saving -/

theorem meets_saveToFile
    (inside : frame < pager.frames.frameCount) {range : FileRange}
    (fits : range.length ≤ pageSize) (owner : Owner) (ending : Ending Unit) :
    (saveToFile owner range frame).Meets pager ending ↔
      ending.answers ⟨⟩ (pager.writeBack owner range frame) := by
  simp only [saveToFile, meets_bind, meets_get]
  cases dirty : (pager.table owner.pid).isDirty owner.va with
  | true =>
      simp only [if_true, meets_bind, meets_checkBytes inside, meets_checkRange 0 fits, meets_modify]
  | false =>
      rw [writeBack_of_clean dirty]
      simp only [Bool.false_eq_true, if_false, meets_pure]

theorem meets_checkSlot
    (inside : slot < pager.swap.slotCount) (used : pager.swap.used.get slot = true)
    (ending : Ending Unit) :
    (checkSlot slot).Meets pager ending ↔ ending.answers ⟨⟩ pager := by
  have bounded : slot < pager.swap.used.size := inside
  simp [checkSlot, meets_bind, meets_get, meets_checkIndex bounded, meets_insist, used]

theorem meets_giveBackSlot
    (inside : slot < pager.swap.slotCount) (used : pager.swap.used.get slot = true)
    (ending : Ending Unit) :
    (giveBackSlot slot).Meets pager ending ↔ ending.answers ⟨⟩ (pager.releaseSlot slot) := by
  simp only [giveBackSlot, meets_bind, meets_checkSlot inside used, meets_modify]

/-- What a page of anonymous memory leaves behind that was stored completely. -/
def swappedOut (before : Pager) (owner : Owner) (slot : Nat) (reserved stored : SwapSpace) : Pager :=
  ({ before with swap := stored }.note
    (.swapped owner .write slot (reserved.used.get slot)
      (stored.transfersSince reserved))).modifyCounters fun counters =>
        { counters with swapOuts := counters.swapOuts + 1 }

theorem meets_swapOut
    (houses : before.ledger.Houses owner page frame) (anonymous : page.kind = .anonymous none) :
    (swapOut owner frame).Meets before
      ⟨fun slot after => ∃ reserved stored,
        before.swap.reserve? = some (slot, reserved) ∧
          reserved.store slot (before.frames.image frame) = (stored, true) ∧
            after = before.swappedOut owner slot reserved stored,
        fun error after => after.Stuck frame error owner ∧ before.Breaks after,
        fun _ _ => False⟩ := by
  have inside : frame < before.frames.frameCount := houses.inside
  simp only [swapOut, meets_bind, meets_get]
  cases taken : before.swap.reserve? with
  | none =>
      simp only [meets_fail]
      refine ⟨⟨houses.owned, ⟨page, houses.present, houses.resident, anonymous⟩,
        Or.inl ⟨rfl, fun slot bound => ?_⟩⟩, .refl before⟩
      exact reserve?_eq_none taken bound
  | some result =>
      obtain ⟨slot, reserved⟩ := result
      obtain ⟨bound, clear, same⟩ := reserve?_eq_some taken
      simp only [meets_bind, meets_frameImage inside]
      cases complete : reserved.store slot (before.frames.image frame) with
      | mk stored succeeded =>
          cases succeeded with
          | true =>
              simp only [if_true, meets_bind, meets_set, meets_pure]
              exact ⟨reserved, stored, rfl, complete, rfl⟩
          | false =>
              obtain ⟨sector, failed⟩ :=
                SwapSpace.store_incomplete (congrArg Prod.snd complete)
              have used : stored.used = before.swap.used.insert slot := by
                have kept := SwapSpace.used_store reserved slot (before.frames.image frame)
                rw [complete, same] at kept
                exact kept
              have isSet : stored.used.get slot = true := by
                rw [used, Bitmap.get_insert_eq_update _ bound, Function.update_self]
              have counted : slot < stored.slotCount := by
                rw [SwapSpace.slotCount, used]
                exact bound
              simp only [Bool.false_eq_true, if_false, meets_bind, meets_set, meets_fail]
              rw [meets_giveBackSlot (by exact counted) (by exact isSet)]
              refine ⟨⟨houses.owned, ⟨page, houses.present, houses.resident, anonymous⟩,
                Or.inr ⟨rfl, sector, ?_⟩⟩, ⟨rfl, rfl, Or.inr ⟨owner, slot, reserved, stored, _,
                  taken, complete, rfl, rfl⟩⟩⟩
              rw [complete] at failed
              exact failed

theorem meets_saveContent (houses : before.ledger.Houses owner page frame) :
    (saveContent owner.pid page frame).Meets before
      ⟨fun _ saved => before.Saves owner page frame saved,
        fun error after => after.Stuck frame error owner ∧ before.Breaks after,
        fun _ _ => False⟩ := by
  have here : (⟨owner.pid, page.va⟩ : Owner) = owner := by rw [houses.va]
  cases kind : page.kind with
  | pending load => exact absurd kind (houses.initialized load)
  | anonymous held =>
      have empty : held = none := by
        have unslotted := houses.unslotted
        rw [kind] at unslotted
        exact unslotted
      subst empty
      simp only [saveContent, kind, meets_bind, meets_insist, here]
      refine ⟨fun _ => (meets_swapOut houses kind).mono ?_ (fun _ _ stuck => stuck) ?_, by simp⟩
      · rintro slot after ⟨reserved, stored, taken, complete, rfl⟩
        simp only [meets_modify, houses.va]
        exact .toSlot kind taken complete
      · rintro _ _ ⟨⟩
  | file range =>
      have fits : range.length ≤ pageSize := by
        have fits := houses.fits
        rw [kind] at fits
        exact fits
      simp only [saveContent, kind, here]
      rw [meets_saveToFile houses.inside fits]
      exact .toFile kind

theorem Saves.frameCount {saved : Pager} (saves : before.Saves owner page frame saved) :
    saved.frames.frameCount = before.frames.frameCount := by
  cases saves with
  | toSlot anonymous taken complete => rfl
  | toFile file => exact congrArg Ledger.frameCount (before.ledger_writeBack ..)

/-! ## Evicting -/

theorem meets_sendOut (houses : before.ledger.Houses owner page frame) :
    (sendOut owner.pid page).Meets before
      ⟨fun given after => given = frame ∧
        ∃ saved, before.Saves owner page frame saved ∧ after = saved.detached owner,
        fun error after => after.Stuck frame error owner ∧ before.Breaks after,
        fun _ _ => False⟩ := by
  have here : (⟨owner.pid, page.va⟩ : Owner) = owner := by rw [houses.va]
  simp only [sendOut, houses.resident, meets_bind, meets_modify, meets_pure, here]
  exact (meets_saveContent houses).mono (fun _ saved saves => ⟨trivial, saved, saves, rfl⟩)
    (fun _ _ stuck => stuck) fun _ _ => id

/-- What is left when a page gave up its frame. -/
def evicted (saved : Pager) (owner : Owner) (kind : PageKind) (dirty : Bool) : Pager :=
  ((saved.detached owner).modifyCounters fun counters =>
    { counters with evictions := counters.evictions + 1 }).note (.evicted owner kind dirty)

theorem meets_evict
    (houses : before.ledger.Houses owner page frame)
    (aligned : pageBase owner.va = owner.va) :
    (evict frame).Meets before
      ⟨fun given after => given = frame ∧ ∃ saved, before.Saves owner page frame saved ∧
        after = saved.evicted owner page.kind ((before.table owner.pid).isDirty owner.va),
        fun error after => after.Stuck frame error owner ∧ before.Breaks after,
        fun _ _ => False⟩ := by
  have inside : frame < before.frames.frameCount := houses.inside
  obtain ⟨space, found⟩ := space?_of_page houses.present
  have table : before.table owner.pid = space.table := by rw [Pager.table, found]
  have shown : space.page? owner.va = some page := by
    rw [page?_of_space found, aligned]
    exact houses.present
  simp only [evict, meets_bind, meets_frameOwner inside, houses.owned, meets_requireSpace, found,
    shown, meets_modify, meets_pure]
  refine (meets_sendOut houses).mono ?_ (fun _ _ stuck => stuck) fun _ _ => id
  rintro given after ⟨rfl, saved, saves, rfl⟩
  exact ⟨rfl, saved, saves, by rw [table]; rfl⟩

/-! ## Choosing a victim -/

theorem candidates_size (pager : Pager) : pager.candidates.size = pager.frames.frameCount :=
  Array.size_map

theorem meets_selectVictim (sound : before.ledger.Sound none) (ending : Ending (Option Nat)) :
    selectVictim.Meets before ending ↔
      ending.answers (before.frames.policy.select before.candidates).1 before.selected := by
  have known : before.frames.policy.stray? before.candidates = none := by
    apply sound.tracked.stray?_eq_none
    intro frame inUse
    obtain ⟨owner, owned⟩ := Option.ne_none_iff_exists'.mp inUse
    rw [candidates_size]
    exact sound.lt_frameCount owned
  simp only [selectVictim, meets_bind, meets_get, known, meets_set, meets_pure]
  rfl

/-- Without free frames every frame may be a candidate; one that is not pinned is. -/
theorem exists_victim
    (ready : before.Ready) (full : before.frames.free = [])
    (some : before.config.frameCount ≠ 0) :
    ∃ frame, (before.frames.policy.select before.candidates).1 = Option.some frame := by
  rcases ready.room with none | ⟨frame, inside, unpinned⟩
  · exact absurd none some
  · have owned : before.ledger.owners frame ≠ none := by
      intro unowned
      have counted : frame < before.ledger.frameCount := by
        rw [ready.sound.sized]
        exact inside
      have free := (ready.sound.listed.mem_free frame).mpr ⟨counted, unowned⟩
      have empty : before.ledger.free = [] := full
      rw [empty] at free
      cases free
    obtain ⟨owner, isOwned⟩ := Option.ne_none_iff_exists'.mp owned
    exact ready.sound.tracked.select_finds owned
      (before.evictable_of_unpinned isOwned unpinned)

/-! ## Acquiring a frame -/

/-- The choice of a victim does not show in pages, files and slots. -/
theorem Breaks.of_selected {after : Pager} (breaks : before.selected.Breaks after) :
    before.Breaks after := by
  obtain ⟨pages, files, slots⟩ := breaks
  rw [before.swap_selected, before.journal_selected] at slots
  rw [ledger_selected] at pages
  exact ⟨pages, files.trans before.files_selected, slots⟩

theorem meets_acquireFrame (ready : before.Ready) :
    (acquireFrame owner).Meets before
      ⟨fun frame held => before.Acquires owner frame held, fun _ _ => False,
        fun reason after => before.ledger.free = [] ∧
          after.Exhausted before.config.frameCount reason ∧ before.Breaks after⟩ := by
  have sound := ready.sound
  simp only [acquireFrame, meets_bind, meets_get]
  cases taken : before.frames.takeFree? owner with
  | some result =>
      obtain ⟨frame, frames⟩ := result
      obtain ⟨rest, first, _⟩ := ledger_takeFree taken
      have inside : frame < before.frames.frameCount :=
        ((sound.listed.mem_free frame).mp (by simp [first])).1
      simp only [meets_bind, meets_checkFrame inside, meets_set, meets_pure]
      exact .free taken
  | none =>
      have full := takeFree?_eq_none taken
      simp only [meets_bind, meets_selectVictim sound]
      cases chosen : (before.frames.policy.select before.candidates).1 with
      | none =>
          simp only [meets_halt]
          refine ⟨full, ?_, (Breaks.refl before.selected).of_selected⟩
          show before.config.frameCount = 0
          by_contra someFrame
          obtain ⟨frame, found⟩ := exists_victim ready full someFrame
          rw [chosen] at found
          cases found
      | some frame =>
          obtain ⟨_, victim, owned⟩ := before.candidates_evictable (Policy.select_evictable chosen)
          obtain ⟨page, present, resident⟩ := sound.page_of_owner owned
          have aligned := (sound.placed victim page present).aligned
          have houses : before.selected.ledger.Houses victim page frame := by
            obtain ⟨present, resident, owned, inside, va, fits, initialized, unslotted⟩ :=
              sound.houses present resident
            rw [ledger_selected]
            exact ⟨present, resident, owned, inside, va, fits, initialized, unslotted⟩
          simp only [meets_bind, meets_attempt]
          refine (meets_evict houses aligned).mono ?_ ?_ fun _ _ => False.elim
          · rintro given after ⟨rfl, saved, saves, rfl⟩
            have inside : given < (saved.evicted victim page.kind
                ((before.selected.table victim.pid).isDirty victim.va)).frames.frameCount := by
              show given < saved.frames.frameCount
              rw [saves.frameCount]
              exact houses.inside
            simp only [meets_assignFrame inside, meets_modify, meets_pure]
            exact .evicted full chosen present resident saves
          · rintro error after ⟨stuck, breaks⟩
            simp only [meets_halt]
            exact ⟨full, ⟨victim, stuck⟩, breaks.of_selected⟩

/-! ## Filling a frame -/

/-- The content of a page in a frame is fetched; the page is what it becomes by that, or as it was. -/
theorem meets_bringIn
    {fetched : Fetched} (aligned : pageBase owner.va = owner.va) (va : page.va = owner.va)
    (present : before.ledger.pages owner = some page) (resident : page.frame = some frame)
    (inside : frame < before.frames.frameCount) (fits : page.kind.readLength ≤ pageSize)
    (held : ∀ slot, page.kind.slot? = some slot →
      slot < before.swap.slotCount ∧ before.swap.used.get slot = true)
    (fetch : page.kind.fetch before.swap before.files (before.frames.image frame) = fetched) :
    (bringIn owner.pid owner.va).Meets before
      ⟨fun _ after => ∃ kind, fetched.kind = some kind ∧
        after = (before.putFetched owner page.kind frame fetched).becomeFetched owner.pid owner.va
          page.kind kind,
        fun error after => error = .io owner.va ∧ fetched.kind = none ∧
          after = before.putFetched owner page.kind frame fetched,
        fun _ _ => False⟩ := by
  have found : before.page? owner.pid owner.va = some page := by
    rw [page?_eq, aligned]
    exact present
  have here : (⟨owner.pid, page.va⟩ : Owner) = owner := by rw [va]
  have emptied (ending : Ending Unit) :
      (checkEmptied page.kind fetched).Meets before ending ↔ ending.answers ⟨⟩ before := by
    unfold checkEmptied
    split
    · rename_i slot _ slotFound _
      obtain ⟨bound, used⟩ := held slot slotFound
      exact meets_checkSlot bound used ending
    · exact meets_pure _ _ _
  simp only [bringIn, meets_bind, meets_get, found, resident, meets_frameImage inside,
    meets_checkRange 0 fits, fetch, emptied, meets_set, here]
  cases complete : fetched.kind with
  | none => exact ⟨by rw [va], rfl, rfl⟩
  | some kind => exact ⟨kind, rfl, rfl⟩

theorem meets_attach
    {held : Pager} (sound : held.ledger.Sound (some (owner, frame)))
    (present : held.ledger.pages owner = some page) (absent : page.frame = none) :
    (attach owner.pid owner.va frame).Meets held
      ⟨fun _ after => held.Arrives owner frame after,
        fun error after => error = .io owner.va ∧ held.Returns owner frame after,
        fun _ _ => False⟩ := by
  obtain ⟨va, aligned, _, _, fits⟩ := sound.placed owner page present
  obtain ⟨owned, _⟩ := sound.frames.flying owner frame rfl
  have inside : frame < held.frames.frameCount := sound.lt_frameCount owned
  obtain ⟨space, found⟩ := space?_of_page present
  have shown : space.page? owner.va = some page := by
    rw [page?_of_space found, aligned]
    exact present
  obtain ⟨table, installed⟩ :=
    install?_isSome sound aligned found present absent (frameBase frame) page.writable
  have attached := ledger_attached aligned found installed
  rw [present, Option.map_some] at attached
  let fetched := page.kind.fetch held.swap held.files (held.frames.image frame)
  let filled := (held.attached owner frame table).putFetched owner page.kind frame fetched
  have filledInside : frame < filled.frames.frameCount := by
    rw [frameCount_putFetched]
    exact inside
  simp only [attach, meets_bind, meets_get, found, shown, installed, meets_modify, meets_attempt]
  refine (@meets_bringIn (held.attached owner frame table) owner
    { page with frame := some frame } frame fetched aligned va ?_ rfl inside fits ?_ rfl).mono
      ?_ ?_ fun _ _ => False.elim
  · rw [attached]
    exact Function.update_self ..
  · intro slot slotFound
    have anonymous := PageKind.slot?_eq_some_iff.mp slotFound
    have used := (sound.slots.slot_of_page owner page slot present anonymous).1
    exact ⟨sound.slots.inside slot used, used⟩
  · rintro _ after ⟨kind, complete, rfl⟩
    have unpinning : frame <
        (filled.becomeFetched owner.pid owner.va page.kind kind).frames.frameCount :=
      filledInside
    exact (meets_unpinFrame unpinning _).mpr
      (.intro found present absent installed rfl complete)
  · rintro error after ⟨rfl, incomplete, rfl⟩
    have detachedInside : frame < (filled.detached owner).frames.frameCount := filledInside
    have still : (filled.detached owner).ledger.owners frame = some owner := by
      have shown : filled.ledger = _ := ledger_putFetched
      rw [ledger_detached aligned]
      show filled.ledger.owners frame = some owner
      rw [shown, ledger_setImage (by exact inside)]
      exact owned
    simp only [meets_fail]
    exact (meets_releaseFrame detachedInside still _).mpr
      ⟨trivial, .intro found present absent installed rfl incomplete⟩

/-! ## Claiming a page -/

/-- Why a page could not be claimed. -/
inductive ClaimFails (before : Pager) (owner : Owner) : PagingError → Pager → Prop
  | absent (gone : before.space? owner.pid = none) :
      ClaimFails before owner (.noSuchProcess owner.pid) before
  | vacant {space : AddressSpace} (found : before.space? owner.pid = some space)
      (vacant : before.ledger.pages owner = none) :
      ClaimFails before owner (.invalidAccess owner.va .unmapped) before
  | missed {after : Pager} (missed : Turn (.missed owner) before after) :
      ClaimFails before owner (.io owner.va) after

theorem ClaimFails.external
    {error : PagingError} {after : Pager} (fails : before.ClaimFails owner error after) :
    ¬ error.IsInternal := by
  cases fails <;> exact id

theorem ClaimFails.bars
    {error : PagingError} {after : Pager} (fails : before.ClaimFails owner error after) :
    after.Bars owner.pid error := by
  cases fails with
  | absent gone => exact Or.inr ⟨rfl, gone⟩
  | vacant | missed => exact Or.inl rfl

/-- What is left of a claim that succeeded: nothing was done for a page that was resident, and another one got
a frame. -/
inductive Claimed (before : Pager) (owner : Owner) : Pager → Prop
  | resident {page : Page} {frame : Nat} (present : before.ledger.pages owner = some page)
      (resident : page.frame = some frame) : Claimed before owner before
  | fetched {page : Page} {after : Pager} (present : before.ledger.pages owner = some page)
      (absent : page.frame = none) (turn : Turn (.claimed owner) before after) :
      Claimed before owner after

theorem Claimed.reaches
    {after : Pager} (claimed : before.Claimed owner after) (sound : before.ledger.Sound none) :
    Reaches (Deed.Claims owner) before after := by
  cases claimed with
  | resident => exact .refl before
  | fetched _ _ turn => exact .turn turn sound rfl (by simp)

theorem Claimed.isResident
    {after : Pager} (claimed : before.Claimed owner after) (sound : before.ledger.Sound none) :
    ∃ page frame, after.ledger.pages owner = some page ∧ page.frame = some frame := by
  cases claimed with
  | resident present resident => exact ⟨_, _, present, resident⟩
  | fetched _ _ turn =>
      cases turn with
      | claimed present absent acquires arrives =>
          have moves := acquires.moves sound
          obtain ⟨flying, presentThen⟩ := moves.sound sound present absent
          obtain ⟨_, _, arrived, _⟩ := arrives.moves flying presentThen
          obtain ⟨new, pages, _, attached, _⟩ := arrived.pages
          exact ⟨new, _, by rw [pages, Function.update_self], attached⟩

theorem ClaimFails.reaches
    {error : PagingError} {after : Pager} (fails : before.ClaimFails owner error after)
    (sound : before.ledger.Sound none) : Reaches (Deed.Claims owner) before after := by
  cases fails with
  | absent | vacant => exact .refl before
  | missed turn => exact .turn turn sound rfl (by simp)

/-- How a claim ends: it halts only if no frame is free. -/
theorem ends_claim (ready : before.Ready) (pid : Pid) (address : Nat) :
    (claim pid address).Meets before
      ⟨fun _ after => before.Claimed ⟨pid, pageBase address⟩ after,
        fun error after => before.ClaimFails ⟨pid, pageBase address⟩ error after,
        fun reason after => before.ledger.free = [] ∧
          after.Exhausted before.config.frameCount reason ∧ before.Breaks after⟩ := by
  have sound := ready.sound
  simp only [claim, meets_bind, meets_requireSpace]
  cases found : before.space? pid with
  | none => exact .absent found
  | some space =>
      have same : space.page? (pageBase address) =
          before.ledger.pages ⟨pid, pageBase address⟩ := by
        rw [page?_of_space found, pageBase_idem]
      cases present : before.ledger.pages ⟨pid, pageBase address⟩ with
      | none =>
          simp only [same, present, meets_deny]
          exact .vacant found present
      | some page =>
          simp only [same, present]
          cases resident : page.frame with
          | some frame =>
              simp only [Page.isResident, resident, Option.isSome_some, if_true, meets_pure]
              exact .resident present resident
          | none =>
              simp only [Page.isResident, resident, Option.isSome_none, Bool.false_eq_true,
                if_false, meets_bind]
              refine (meets_acquireFrame ready).mono ?_ (fun _ _ => False.elim) fun _ _ => id
              intro frame held acquires
              obtain ⟨flying, presentThen⟩ :=
                (acquires.moves sound).sound sound present resident
              refine (meets_attach flying presentThen resident).mono ?_ ?_
                fun _ _ => False.elim
              · exact fun _ after arrives =>
                  .fetched present resident (.claimed present resident acquires arrives)
              · rintro error after ⟨rfl, returns⟩
                exact .missed (.missed present resident acquires returns)

/-- Claiming makes a page resident or fails to read it. -/
theorem meets_claim (ready : before.Ready) (pid : Pid) (address : Nat) :
    (claim pid address).Meets before
      (Proceeds (Deed.Claims ⟨pid, pageBase address⟩) before
        (fun _ after => ∃ page frame, after.ledger.pages ⟨pid, pageBase address⟩ = some page ∧
          page.frame = some frame)
        fun error after => before.ClaimFails ⟨pid, pageBase address⟩ error after) := by
  apply (ends_claim ready pid address).mono
  · exact fun _ _ claimed => ⟨claimed.reaches ready.sound, claimed.isResident ready.sound⟩
  · exact fun _ _ fails => ⟨fails.reaches ready.sound, fails.external, fails⟩
  · exact fun _ _ ⟨_, exhausted, breaks⟩ => ⟨Or.inl exhausted, before, .refl, breaks⟩

/-- Whatever comes of it, a claim is for its process. -/
theorem serves_claim (ready : before.Ready) (pid : Pid) (address : Nat) :
    (claim pid address).Meets before
      (Proceeds (Deed.Serves pid) before (fun _ _ => True) fun _ _ => True) :=
  (meets_claim ready pid address).weaken (fun _ => Deed.Claims.serves)
    (fun _ _ _ _ => trivial) fun _ _ _ _ => trivial

end Pager

end DemandPaging
