import DemandPaging.Pager.Fetch
import DemandPaging.Proofs.Ledger
import DemandPaging.Proofs.Replacement

/-!
# Sound ledgers

Frames, pages, translations, free frames, slots and the queue of the policy describe the same holdings
from different sides. The ledger is sound when they agree. A frame that moves from one page to another
is in flight for a while: it belongs to a page that does not have it yet or no longer has it.
-/

namespace DemandPaging

/-! ## What has to agree -/

/-- A page lies at its own aligned address in user memory, and its content fits. -/
structure Page.WellPlaced (page : Page) (owner : Owner) (kernelBase : Nat) : Prop where
  va : page.va = owner.va
  aligned : pageBase owner.va = owner.va
  nonnull : owner.va ≠ 0
  user : owner.va < kernelBase
  fits : page.kind.readLength ≤ pageSize

structure FramesLinked
    (pages : Owner → Option Page) (translations : Owner → Option Translation)
    (owners : Nat → Option Owner) (flight : Option (Owner × Nat)) : Prop where
  owner_of_page : ∀ owner page frame,
    pages owner = some page → page.frame = some frame → owners frame = some owner
  translation_of_page : ∀ owner page frame,
    pages owner = some page → page.frame = some frame →
      translations owner = some ⟨frameBase frame, page.writable⟩
  initialized : ∀ owner page frame load,
    pages owner = some page → page.frame = some frame → page.kind ≠ .pending load
  page_of_translation : ∀ owner translation,
    translations owner = some translation →
      ∃ page frame, pages owner = some page ∧ page.frame = some frame
  page_of_owner : ∀ owner frame,
    owners frame = some owner →
      flight = some (owner, frame) ∨
        ∃ page, pages owner = some page ∧ page.frame = some frame
  flying : ∀ owner frame,
    flight = some (owner, frame) →
      owners frame = some owner ∧ ∃ page, pages owner = some page ∧ page.frame = none

structure FreeListed
    (free : List Nat) (owners : Nat → Option Owner) (pinned : Nat → Bool) (frameCount : Nat) :
    Prop where
  nodup : free.Nodup
  mem_free : ∀ frame, frame ∈ free ↔ frame < frameCount ∧ owners frame = none
  inside : ∀ frame owner, owners frame = some owner → frame < frameCount
  owned : ∀ frame, pinned frame = true → owners frame ≠ none

structure SlotsLinked
    (pages : Owner → Option Page) (used : Nat → Bool) (slotCount : Nat) : Prop where
  inside : ∀ slot, used slot = true → slot < slotCount
  slot_of_page : ∀ owner page slot,
    pages owner = some page → page.kind = .anonymous (some slot) →
      used slot = true ∧ page.frame = none
  resident : ∀ owner page,
    pages owner = some page → page.kind = .anonymous none → page.frame ≠ none
  page_of_slot : ∀ slot,
    used slot = true →
      ∃ owner page, pages owner = some page ∧ page.kind = .anonymous (some slot)
  unique : ∀ owner other page otherPage slot,
    pages owner = some page → pages other = some otherPage →
      page.kind = .anonymous (some slot) → otherPage.kind = .anonymous (some slot) →
        owner = other

/-- The holdings agree, but for the frame in flight. -/
structure Ledger.Sound (ledger : Ledger) (flight : Option (Owner × Nat)) : Prop where
  placed : ∀ owner page,
    ledger.pages owner = some page → page.WellPlaced owner ledger.config.kernelBase
  frames : FramesLinked ledger.pages ledger.translations ledger.owners flight
  listed : FreeListed ledger.free ledger.owners ledger.pinned ledger.frameCount
  slots : SlotsLinked ledger.pages ledger.used ledger.slotCount
  tracked : ledger.policy.Tracks fun frame => ledger.owners frame ≠ none
  sized : ledger.frameCount = ledger.config.frameCount

section Parts

variable {pages : Owner → Option Page} {translations : Owner → Option Translation}
  {owners : Nat → Option Owner} {pinned : Nat → Bool} {used : Nat → Bool} {free : List Nat}
  {frameCount slotCount : Nat} {owner : Owner} {page new : Page} {frame slot : Nat}

/-! ## Frames -/

namespace FramesLinked

/-- A page that gives up its frame puts the frame in flight. -/
theorem unload
    (linked : FramesLinked pages translations owners none)
    (present : pages owner = some page) (resident : page.frame = some frame)
    (detached : new.frame = none) :
    FramesLinked (Function.update pages owner (some new))
      (Function.update translations owner none) owners (some (owner, frame)) := by
  have owned := linked.owner_of_page owner page frame present resident
  obtain ⟨ownerOf, translationOf, initialized, pageOfTranslation, pageOfOwner, _⟩ := linked
  constructor
  case flying =>
    rintro other otherFrame flight
    cases flight
    exact ⟨owned, new, Function.update_self .., detached⟩
  all_goals grind [Function.update_apply]

/-- A frame in flight may be meant for another page. -/
theorem retarget
    {flight : Option (Owner × Nat)} (linked : FramesLinked pages translations owners flight)
    (unclaimed : ∀ other, owners frame = some other → flight = some (other, frame))
    (inFlight : ∀ other otherFrame, flight = some (other, otherFrame) → otherFrame = frame)
    (present : pages owner = some page) (absent : page.frame = none) :
    FramesLinked pages translations (Function.update owners frame (some owner))
      (some (owner, frame)) := by
  obtain ⟨ownerOf, translationOf, initialized, pageOfTranslation, pageOfOwner, flying⟩ := linked
  constructor
  case owner_of_page =>
    intro other otherPage otherFrame otherPresent resident
    have owned := ownerOf other otherPage otherFrame otherPresent resident
    have apart : otherFrame ≠ frame := by
      rintro rfl
      obtain ⟨_, flyingPage, flyingPresent, flyingAbsent⟩ :=
        flying other otherFrame (unclaimed other owned)
      rw [otherPresent] at flyingPresent
      cases flyingPresent
      rw [resident] at flyingAbsent
      cases flyingAbsent
    rw [Function.update_of_ne apart]
    exact owned
  case flying =>
    rintro other otherFrame flight
    cases flight
    exact ⟨Function.update_self .., page, present, absent⟩
  case page_of_owner =>
    intro other otherFrame owned
    by_cases same : otherFrame = frame
    · subst same
      rw [Function.update_self] at owned
      cases owned
      exact Or.inl rfl
    · rw [Function.update_of_ne same] at owned
      rcases pageOfOwner other otherFrame owned with flight | resident
      · exact absurd (inFlight _ _ flight) same
      · exact Or.inr resident
  all_goals assumption

/-- The frame in flight arrives at its page. -/
theorem load
    (linked : FramesLinked pages translations owners (some (owner, frame)))
    (initialized : ∀ load, new.kind ≠ .pending load) (attached : new.frame = some frame) :
    FramesLinked (Function.update pages owner (some new))
      (Function.update translations owner (some ⟨frameBase frame, new.writable⟩)) owners
      none := by
  obtain ⟨owned, _⟩ := linked.flying owner frame rfl
  obtain ⟨ownerOf, translationOf, initializedOf, pageOfTranslation, pageOfOwner, _⟩ := linked
  constructor
  case page_of_owner =>
    intro other otherFrame otherOwned
    right
    by_cases same : other = owner
    · subst same
      rcases pageOfOwner other otherFrame otherOwned with flight | ⟨old, present, resident⟩
      · cases flight
        exact ⟨new, Function.update_self .., attached⟩
      · grind
    · grind [Function.update_apply]
  all_goals grind [Function.update_apply]

/-- The frame in flight becomes free. -/
theorem giveUp
    (linked : FramesLinked pages translations owners (some (owner, frame))) :
    FramesLinked pages translations (Function.update owners frame none) none := by
  obtain ⟨owned, page, present, absent⟩ := linked.flying owner frame rfl
  obtain ⟨ownerOf, translationOf, initialized, pageOfTranslation, pageOfOwner, _⟩ := linked
  constructor
  case owner_of_page =>
    intro other otherPage otherFrame otherPresent resident
    have otherOwned := ownerOf other otherPage otherFrame otherPresent resident
    have apart : otherFrame ≠ frame := by
      rintro rfl
      rw [owned] at otherOwned
      cases otherOwned
      rw [present] at otherPresent
      cases otherPresent
      rw [absent] at resident
      cases resident
    rw [Function.update_of_ne apart]
    exact otherOwned
  all_goals grind [Function.update_apply]

/-- A page without a frame may come, go or change. -/
theorem set
    {flight : Option (Owner × Nat)} (linked : FramesLinked pages translations owners flight)
    (absent : ∀ page, pages owner = some page → page.frame = none)
    {new : Option Page} (unloaded : ∀ page, new = some page → page.frame = none)
    (grounded : ∀ frame, flight ≠ some (owner, frame)) :
    FramesLinked (Function.update pages owner new) translations owners flight := by
  obtain ⟨ownerOf, translationOf, initialized, pageOfTranslation, pageOfOwner, flying⟩ := linked
  constructor <;> grind [Function.update_apply]

/-- A page goes together with its frame. -/
theorem remove
    (linked : FramesLinked pages translations owners none)
    (present : pages owner = some page) (resident : page.frame = some frame) :
    FramesLinked (Function.update pages owner none) (Function.update translations owner none)
      (Function.update owners frame none) none := by
  have unloaded : FramesLinked (Function.update pages owner (some { page with frame := none }))
      (Function.update translations owner none) owners (some (owner, frame)) :=
    linked.unload present resident rfl
  have once : Function.update pages owner none =
      Function.update (Function.update pages owner (some { page with frame := none })) owner
        none := (Function.update_idem ..).symm
  rw [once]
  exact unloaded.giveUp.set (by grind) (by simp) (by simp)

end FramesLinked

/-! ## Free frames -/

namespace FreeListed

theorem take
    {rest : List Nat} (listed : FreeListed free owners pinned frameCount)
    (first : free = frame :: rest) :
    FreeListed rest (Function.update owners frame (some owner))
      (Function.update pinned frame true) frameCount := by
  subst first
  obtain ⟨nodup, members, inside, owned⟩ := listed
  obtain ⟨absent, nodupRest⟩ := List.nodup_cons.mp nodup
  have bound := ((members frame).mp List.mem_cons_self).1
  constructor
  case nodup => exact nodupRest
  all_goals grind [Function.update_apply]

theorem retarget
    {old : Owner} (listed : FreeListed free owners pinned frameCount)
    (owned : owners frame = some old) :
    FreeListed free (Function.update owners frame (some owner))
      (Function.update pinned frame true) frameCount := by
  obtain ⟨nodup, members, inside, pinnedOwned⟩ := listed
  have bound := inside frame old owned
  constructor <;> grind [Function.update_apply]

theorem release
    (listed : FreeListed free owners pinned frameCount) (owned : owners frame = some owner) :
    FreeListed (frame :: free) (Function.update owners frame none)
      (Function.update pinned frame false) frameCount := by
  obtain ⟨nodup, members, inside, pinnedOwned⟩ := listed
  have bound := inside frame owner owned
  constructor
  case nodup =>
    have absent : frame ∉ free := by
      intro member
      rw [((members frame).mp member).2] at owned
      cases owned
    exact List.nodup_cons.mpr ⟨absent, nodup⟩
  all_goals grind [Function.update_apply]

theorem setPinned
    (listed : FreeListed free owners pinned frameCount) (owned : owners frame ≠ none)
    (on : Bool) :
    FreeListed free owners (Function.update pinned frame on) frameCount := by
  obtain ⟨nodup, members, inside, pinnedOwned⟩ := listed
  constructor <;> grind [Function.update_apply]

end FreeListed

/-! ## Slots -/

namespace SlotsLinked

/-- A page that holds no slot before and after may come, go or change. -/
theorem set
    (linked : SlotsLinked pages used slotCount)
    (without : ∀ page, pages owner = some page → page.kind.slot? = none)
    {new : Option Page} (still : ∀ page, new = some page → page.kind.slot? = none)
    (resident : ∀ page, new = some page → page.kind = .anonymous none → page.frame ≠ none) :
    SlotsLinked (Function.update pages owner new) used slotCount := by
  obtain ⟨inside, slotOf, residentOf, pageOf, unique⟩ := linked
  constructor
  case page_of_slot =>
    intro slot inUse
    obtain ⟨holder, page, present, held⟩ := pageOf slot inUse
    have apart : holder ≠ owner := by
      rintro rfl
      have missing := without page present
      rw [held] at missing
      cases missing
    exact ⟨holder, page, by rw [Function.update_of_ne apart]; exact present, held⟩
  all_goals grind [Function.update_apply, PageKind.slot?]

/-- A page takes a free slot. -/
theorem fill
    (linked : SlotsLinked pages used slotCount)
    (without : ∀ page, pages owner = some page → page.kind.slot? = none)
    (held : new.kind = .anonymous (some slot)) (detached : new.frame = none)
    (clear : used slot = false) (bound : slot < slotCount) :
    SlotsLinked (Function.update pages owner (some new)) (Function.update used slot true)
      slotCount := by
  obtain ⟨inside, slotOf, residentOf, pageOf, unique⟩ := linked
  constructor
  case page_of_slot =>
    intro other inUse
    by_cases same : other = slot
    · subst same
      exact ⟨owner, new, Function.update_self .., held⟩
    · rw [Function.update_of_ne same] at inUse
      obtain ⟨holder, page, present, otherHeld⟩ := pageOf other inUse
      have apart : holder ≠ owner := by
        rintro rfl
        have missing := without page present
        rw [otherHeld] at missing
        cases missing
      exact ⟨holder, page, by rw [Function.update_of_ne apart]; exact present, otherHeld⟩
  all_goals grind [Function.update_apply, PageKind.slot?]

/-- A page gives up its slot. -/
theorem empty
    (linked : SlotsLinked pages used slotCount)
    (present : pages owner = some page) (held : page.kind = .anonymous (some slot))
    {new : Option Page} (without : ∀ page, new = some page → page.kind.slot? = none)
    (resident : ∀ page, new = some page → page.kind = .anonymous none → page.frame ≠ none) :
    SlotsLinked (Function.update pages owner new) (Function.update used slot false)
      slotCount := by
  obtain ⟨inside, slotOf, residentOf, pageOf, unique⟩ := linked
  constructor
  case page_of_slot =>
    intro other inUse
    have different : other ≠ slot := by
      rintro rfl
      rw [Function.update_self] at inUse
      cases inUse
    rw [Function.update_of_ne different] at inUse
    obtain ⟨holder, otherPage, otherPresent, otherHeld⟩ := pageOf other inUse
    have apart : holder ≠ owner := by
      rintro rfl
      rw [present] at otherPresent
      cases otherPresent
      rw [held] at otherHeld
      cases otherHeld
      exact different rfl
    exact ⟨holder, otherPage, by rw [Function.update_of_ne apart]; exact otherPresent, otherHeld⟩
  all_goals grind [Function.update_apply, PageKind.slot?]

end SlotsLinked

end Parts

/-! ## Steps of the ledger -/

namespace Ledger

namespace Sound

variable {ledger : Ledger} {owner : Owner} {page new : Page} {frame slot : Nat}

theorem lt_frameCount
    {flight : Option (Owner × Nat)} (sound : ledger.Sound flight)
    (owned : ledger.owners frame = some owner) : frame < ledger.frameCount :=
  sound.listed.inside frame owner owned

theorem owner_of_page
    {flight : Option (Owner × Nat)} (sound : ledger.Sound flight)
    (present : ledger.pages owner = some page) (resident : page.frame = some frame) :
    ledger.owners frame = some owner :=
  sound.frames.owner_of_page owner page frame present resident

/-- The owner of a frame that is not in flight has it. -/
theorem page_of_owner
    (sound : ledger.Sound none) (owned : ledger.owners frame = some owner) :
    ∃ page, ledger.pages owner = some page ∧ page.frame = some frame := by
  rcases sound.frames.page_of_owner owner frame owned with flight | resident
  · cases flight
  · exact resident

theorem not_pending
    {flight : Option (Owner × Nat)} (sound : ledger.Sound flight)
    (present : ledger.pages owner = some page) (resident : page.frame = some frame)
    (load : LazyLoad) : page.kind ≠ .pending load :=
  sound.frames.initialized owner page frame load present resident

/-- No translation leads to a page that is not resident. -/
theorem untranslated
    {flight : Option (Owner × Nat)} (sound : ledger.Sound flight)
    (present : ledger.pages owner = some page) (absent : page.frame = none) :
    ledger.translations owner = none := by
  rw [Option.eq_none_iff_forall_ne_some]
  intro translation translated
  obtain ⟨other, frame, otherPresent, resident⟩ :=
    sound.frames.page_of_translation owner translation translated
  rw [present] at otherPresent
  cases otherPresent
  rw [absent] at resident
  cases resident

/-- A resident page holds no slot. -/
theorem slot?_eq_none
    {flight : Option (Owner × Nat)} (sound : ledger.Sound flight)
    (present : ledger.pages owner = some page) (resident : page.frame = some frame) :
    page.kind.slot? = none := by
  cases kind : page.kind with
  | pending load => rfl
  | file range => rfl
  | anonymous held =>
      cases held with
      | none => rfl
      | some slot =>
          have absent := (sound.slots.slot_of_page owner page slot present kind).2
          rw [resident] at absent
          cases absent

/-- Pages change place by place. -/
private theorem placed_update
    {flight : Option (Owner × Nat)} (sound : ledger.Sound flight) {new : Option Page}
    (placed : ∀ page, new = some page → page.WellPlaced owner ledger.config.kernelBase) :
    ∀ other page, Function.update ledger.pages owner new other = some page →
      page.WellPlaced other ledger.config.kernelBase := by
  intro other page present
  by_cases same : other = owner
  · subst same
    rw [Function.update_self] at present
    exact placed page present
  · rw [Function.update_of_ne same] at present
    exact sound.placed other page present

/-- An untouched page may be added where there is none. -/
theorem reserve
    (sound : ledger.Sound none) (vacant : ledger.pages owner = none)
    (placed : new.WellPlaced owner ledger.config.kernelBase) {load : LazyLoad}
    (pending : new.kind = .pending load) (absent : new.frame = none) :
    (ledger.setPage owner (some new)).Sound none where
  placed := sound.placed_update fun page same => by cases same; exact placed
  frames := sound.frames.set (by grind) (by grind) (by simp)
  listed := sound.listed
  slots := sound.slots.set (by grind) (by grind [PageKind.slot?]) (by grind)
  tracked := sound.tracked
  sized := sound.sized

/-- A page that keeps no slot may go while it has no frame. -/
theorem erase
    (sound : ledger.Sound none) (present : ledger.pages owner = some page)
    (absent : page.frame = none) (without : page.kind.slot? = none) :
    (ledger.setPage owner none).Sound none where
  placed := sound.placed_update (by simp)
  frames := sound.frames.set (by grind) (by simp) (by simp)
  listed := sound.listed
  slots := sound.slots.set (by grind) (by simp) (by simp)
  tracked := sound.tracked
  sized := sound.sized

/-- A page in a slot goes together with its slot. -/
theorem eraseSwapped
    (sound : ledger.Sound none) (present : ledger.pages owner = some page)
    (held : page.kind = .anonymous (some slot)) :
    ((ledger.setUsed slot false).setPage owner none).Sound none where
  placed := sound.placed_update (by simp)
  frames := by
    have absent := (sound.slots.slot_of_page owner page slot present held).2
    exact sound.frames.set (by grind) (by simp) (by simp)
  listed := sound.listed
  slots := sound.slots.empty present held (by simp) (by simp)
  tracked := sound.tracked
  sized := sound.sized

/-- A resident page goes together with its frame and its translation. -/
theorem eraseResident
    (sound : ledger.Sound none) (present : ledger.pages owner = some page)
    (resident : page.frame = some frame) :
    (((ledger.setTranslation owner none).release frame).setPage owner none).Sound none where
  placed := sound.placed_update (by simp)
  frames := sound.frames.remove present resident
  listed := sound.listed.release (sound.owner_of_page present resident)
  slots := by
    have without := sound.slot?_eq_none present resident
    exact sound.slots.set (by grind) (by simp) (by simp)
  tracked := by
    apply sound.tracked.released
    intro other
    simp only [release, setPage, setTranslation]
    grind [Function.update_apply]
  sized := sound.sized

/-- A free frame is handed to a page. -/
theorem take
    (sound : ledger.Sound none) {rest : List Nat} (first : ledger.free = frame :: rest)
    (present : ledger.pages owner = some page) (absent : page.frame = none) :
    ({ ledger with free := rest }.assign frame owner).Sound (some (owner, frame)) := by
  have unowned : ledger.owners frame = none :=
    ((sound.listed.mem_free frame).mp (by rw [first]; exact List.mem_cons_self)).2
  exact
    { placed := sound.placed
      frames := sound.frames.retarget (by simp [unowned]) (by simp) present absent
      listed := sound.listed.take first
      slots := sound.slots
      tracked := by
        refine Policy.Tracks.acquired sound.tracked (by simp [unowned]) fun other => ?_
        simp only [assign]
        grind [Function.update_apply]
      sized := sound.sized }

/-- The frame in flight is meant for another page from now on, and the policy that chose it is told. -/
theorem retarget
    {old : Owner} (sound : ledger.Sound (some (old, frame)))
    (present : ledger.pages owner = some page) (absent : page.frame = none) {policy : Policy}
    (tracks : (policy.acquired frame).Tracks fun frame => ledger.owners frame ≠ none) :
    ({ ledger with policy := policy }.assign frame owner).Sound (some (owner, frame)) := by
  obtain ⟨owned, _⟩ := sound.frames.flying old frame rfl
  have sameOwned : (fun other => Function.update ledger.owners frame (some owner) other ≠ none) =
      fun other => ledger.owners other ≠ none := by
    funext other
    grind [Function.update_apply]
  exact
    { placed := sound.placed
      frames := sound.frames.retarget (by grind) (by grind) present absent
      listed := sound.listed.retarget owned
      slots := sound.slots
      tracked := by
        simp only [assign, sameOwned]
        exact tracks
      sized := sound.sized }

/-- A page that has another store than a slot gives up its frame. -/
theorem unload
    (sound : ledger.Sound none) (present : ledger.pages owner = some page)
    (resident : page.frame = some frame) {range : FileRange} (file : page.kind = .file range) :
    ((ledger.setTranslation owner none).setPage owner
      (some { page with frame := none })).Sound (some (owner, frame)) where
  placed := sound.placed_update fun new same => by
    cases same
    exact { sound.placed owner page present with }
  frames := sound.frames.unload present resident rfl
  listed := sound.listed
  slots := sound.slots.set (by grind [PageKind.slot?]) (by grind [PageKind.slot?]) (by grind)
  tracked := sound.tracked
  sized := sound.sized

/-- A page of anonymous memory gives up its frame for a slot. -/
theorem unloadToSlot
    (sound : ledger.Sound none) (present : ledger.pages owner = some page)
    (resident : page.frame = some frame) (image : Image)
    (clear : ledger.used slot = false) (inside : slot < ledger.slotCount) :
    ((((ledger.setUsed slot true).setSlotImage slot image).setTranslation owner none).setPage
      owner (some { page with frame := none, kind := .anonymous (some slot) })).Sound
        (some (owner, frame)) where
  placed := sound.placed_update fun new same => by
    cases same
    exact { sound.placed owner page present with fits := Nat.zero_le pageSize }
  frames := sound.frames.unload present resident rfl
  listed := sound.listed
  slots := by
    have without := sound.slot?_eq_none present resident
    exact sound.slots.fill (by grind) rfl rfl clear inside
  tracked := sound.tracked
  sized := sound.sized

/-- The frame in flight arrives at a page that holds no slot. -/
theorem load
    (sound : ledger.Sound (some (owner, frame))) (present : ledger.pages owner = some page)
    (without : page.kind.slot? = none) {kind : PageKind} (after : kind.slot? = none)
    (initialized : ∀ load, kind ≠ .pending load) (fits : kind.readLength ≤ pageSize) :
    (((ledger.setTranslation owner (some ⟨frameBase frame, page.writable⟩)).setPage owner
      (some { page with frame := some frame, kind := kind })).setPinned frame false).Sound
        none where
  placed := sound.placed_update fun new same => by
    cases same
    exact { sound.placed owner page present with fits := fits }
  frames := sound.frames.load initialized rfl
  listed := by
    obtain ⟨owned, _⟩ := sound.frames.flying owner frame rfl
    exact sound.listed.setPinned (by simp [owned]) false
  slots := sound.slots.set (by grind) (by grind) (by grind)
  tracked := sound.tracked
  sized := sound.sized

/-- The frame in flight arrives at a page that gives up its slot. -/
theorem loadFromSlot
    (sound : ledger.Sound (some (owner, frame))) (present : ledger.pages owner = some page)
    (held : page.kind = .anonymous (some slot)) :
    ((((ledger.setUsed slot false).setTranslation owner
      (some ⟨frameBase frame, page.writable⟩)).setPage owner
        (some { page with frame := some frame, kind := .anonymous none })).setPinned frame
          false).Sound none where
  placed := sound.placed_update fun new same => by
    cases same
    exact { sound.placed owner page present with fits := Nat.zero_le pageSize }
  frames := sound.frames.load (by simp) rfl
  listed := by
    obtain ⟨owned, _⟩ := sound.frames.flying owner frame rfl
    exact sound.listed.setPinned (by simp [owned]) false
  slots := sound.slots.empty present held (by grind [PageKind.slot?]) (by grind)
  tracked := sound.tracked
  sized := sound.sized

/-- The frame in flight becomes free. -/
theorem giveUp (sound : ledger.Sound (some (owner, frame))) :
    (ledger.release frame).Sound none := by
  obtain ⟨owned, _⟩ := sound.frames.flying owner frame rfl
  exact
    { placed := sound.placed
      frames := sound.frames.giveUp
      listed := sound.listed.release owned
      slots := sound.slots
      tracked := by
        apply sound.tracked.released
        intro other
        simp only [release]
        grind [Function.update_apply]
      sized := sound.sized }

/-- Frames that belong to pages may be pinned and unpinned. -/
theorem setPinned
    (sound : ledger.Sound none) (owned : ledger.owners frame = some owner) (on : Bool) :
    (ledger.setPinned frame on).Sound none where
  placed := sound.placed
  frames := sound.frames
  listed := sound.listed.setPinned (by simp [owned]) on
  slots := sound.slots
  tracked := sound.tracked
  sized := sound.sized

/-- Contents of frames are of no account. -/
theorem setImage
    {flight : Option (Owner × Nat)} (sound : ledger.Sound flight) (frame : Nat)
    (image : Image) : (ledger.setImage frame image).Sound flight :=
  ⟨sound.placed, sound.frames, sound.listed, sound.slots, sound.tracked, sound.sized⟩

end Sound

/-- The ledger of a new virtual memory. -/
theorem sound_create
    (config : Config) (kind : PolicyKind) (device : Device) (files : FileTable) :
    (Pager.create config kind device files).ledger.Sound none := by
  have pages : ∀ owner, (Pager.create config kind device files).ledger.pages owner = none := by
    intro owner
    simp [Pager.ledger, Pager.pageOf, Pager.shown, Pager.space?, Pager.create]
  have translations :
      ∀ owner, (Pager.create config kind device files).ledger.translations owner = none := by
    intro owner
    simp [Pager.ledger, Pager.translationOf, Pager.shown, Pager.space?, Pager.create]
  have owners : ∀ frame, (Pager.create config kind device files).ledger.owners frame = none := by
    intro frame
    simp only [Pager.ledger, FramePool.owner?, Pager.create, FramePool.create,
      Array.getElem?_replicate]
    split <;> rename_i found
    · split at found <;> cases found
      rfl
    · rfl
  have pinned :
      ∀ frame, (Pager.create config kind device files).ledger.pinned frame = false := by
    intro frame
    simp only [Pager.ledger, FramePool.isPinned, Pager.create, FramePool.create,
      Array.getElem?_replicate]
    split <;> rename_i found
    · split at found <;> cases found
      rfl
    · rfl
  have used : ∀ slot, (Pager.create config kind device files).ledger.used slot = false :=
    fun slot => Bitmap.get_empty _ slot
  have counted : (Pager.create config kind device files).ledger.frameCount = config.frameCount := by
    simp [Pager.ledger, Pager.create, FramePool.create, FramePool.frameCount]
  exact
    { placed := fun owner page present => by simp [pages] at present
      frames := by constructor <;> simp [pages, translations, owners]
      listed := by
        constructor
        · exact List.nodup_range
        · intro frame
          rw [counted, owners]
          simp [Pager.ledger, Pager.create, FramePool.create]
        · simp [owners]
        · simp [pinned]
      slots := by constructor <;> simp [pages, used]
      tracked := Policy.tracks_create kind fun frame => by simp [owners]
      sized := counted }

end Ledger

end DemandPaging
