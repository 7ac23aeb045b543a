import DemandPaging.Proofs.Effects

/-!
# Tidy books

Moving pages leaves the layout of every process alone, and a page is marked as changed only if it may be
written.
-/

namespace DemandPaging

/-- Deeds after which the layout of a process may be another one. -/
def Deed.Replaces (deed : Deed) (pid : Pid) : Prop :=
  deed = .created pid ∨ deed = .removed pid ∨ ∃ reach, deed = .relaid pid reach

namespace Pager

variable {before held after : Pager} {owner : Owner} {page : Page} {frame : Nat} {deed : Deed}

/-! ## Layouts -/

theorem layout?_discarded (pager : Pager) (owner : Owner) (page : Page) :
    (pager.discarded owner page).layout? = pager.layout? :=
  @keeps_discarded _ owner page Pager.layout? (fun _ _ => rfl) (fun _ _ _ => layout?_writeBack _)
    (fun _ _ => rfl) (fun _ _ => @layout?_modifyTable _ owner.pid fun table => table.clear owner.va)
    (fun _ _ => rfl) (fun _ => layout?_erasePage) pager

theorem Saves.layout? {saved : Pager} (saves : before.Saves owner page frame saved) :
    saved.layout? = before.layout? := by
  cases saves with
  | toSlot anonymous taken complete => exact layout?_modifyPage ..
  | toFile file => exact layout?_writeBack _

theorem Acquires.layout? (acquires : before.Acquires owner frame held) :
    held.layout? = before.layout? := by
  cases acquires with
  | free taken => rfl
  | evicted full chosen present resident saves =>
      exact layout?_detached.trans (saves.layout?.trans before.layout?_selected)

/-- The layout of a process changes only when it is laid anew. -/
theorem Turn.layout? (turn : Turn deed before after) {pid : Pid} (kept : ¬ deed.Replaces pid) :
    after.layout? pid = before.layout? pid := by
  cases turn with
  | created absent =>
      rename_i other
      have apart : other ≠ pid := fun same => kept (Or.inl (by rw [same]))
      simp [Pager.layout?, space?, Std.ExtTreeMap.getElem?_insert, apart]
  | removed vacant =>
      rename_i other
      have apart : other ≠ pid := fun same => kept (Or.inr (Or.inl (by rw [same])))
      simp [Pager.layout?, space?, eraseSpace, Std.ExtTreeMap.getElem?_erase, apart]
  | relaid _ other pages table keyed =>
      have apart : other ≠ pid := fun same => kept (Or.inr (Or.inr ⟨_, by rw [same]⟩))
      rw [Pager.layout?, space?_modifySpace, if_neg apart]
      rfl
  | touched translated allowed => exact congrFun (layout?_modifyTable _) pid
  | dirtied present writable => exact congrFun (layout?_modifyTable _) pid
  | reserved found vacant placed pending absent =>
      rw [Pager.layout?, space?_modifySpace]
      split
      · rw [Option.map_map]
        rfl
      · rfl
  | discarded present => exact congrFun (before.layout?_discarded ..) pid
  | claimed present absent acquires arrives =>
      cases arrives
      exact congrFun ((layout?_modifyPage ..).trans ((layout?_putFetched ..).trans
        ((layout?_attached _).trans acquires.layout?))) pid
  | missed present absent acquires returns =>
      cases returns
      exact congrFun (layout?_detached.trans ((layout?_putFetched ..).trans
        ((layout?_attached _).trans acquires.layout?))) pid
  | _ => rfl

/-- What is recorded as a region stays until its process is removed or its layout changes there. -/
theorem Turn.region?
    (turn : Turn deed before after) {pid : Pid} {base : Nat} (unremoved : deed ≠ .removed pid)
    (unreached : ∀ reach, deed = .relaid pid reach → ¬ reach.Includes base) :
    after.region? pid base = before.region? pid base := by
  by_cases kept : deed.Replaces pid
  · rcases kept with rfl | rfl | ⟨reach, rfl⟩
    · cases turn with
      | created absent =>
          rw [region?_of_absent absent]
          simp [Pager.region?, Pager.layout?, space?, AddressSpace.empty, AddressSpace.layout]
    · exact absurd rfl unremoved
    · cases turn with
      | relaid _ _ pages table keyed kept =>
          rw [Pager.region?, Pager.layout?, space?_modifySpace, if_pos rfl, Pager.region?,
            Pager.layout?]
          cases before.space? pid with
          | none => rfl
          | some space => exact kept space base (unreached _ rfl)
  · rw [Pager.region?, turn.layout? kept]
    rfl

/-! ## Dirty bits -/

/-- A page without a frame has no dirty bit. -/
theorem dirtyOf_of_vacant
    (sound : before.ledger.Sound none)
    (vacant : ∀ page, before.ledger.pages owner = some page → page.frame = none) :
    before.dirtyOf owner = none := by
  rw [← Option.not_isSome_iff_eq_none, isSome_dirtyOf, Option.isSome_iff_exists]
  rintro ⟨translation, translated⟩
  obtain ⟨page, frame, present, resident⟩ :=
    sound.frames.page_of_translation owner translation translated
  rw [vacant page present] at resident
  cases resident

/-- A page with a frame is clean or dirty. -/
theorem dirtyOf_of_resident
    (sound : before.ledger.Sound none) (present : before.ledger.pages owner = some page)
    (resident : page.frame = some frame) : ∃ dirty, before.dirtyOf owner = some dirty := by
  rw [← Option.isSome_iff_exists, isSome_dirtyOf,
    sound.frames.translation_of_page owner page frame present resident]
  rfl

theorem dirtyOf_touched (pid : Pid) (va : Nat) (isWrite : Bool) :
    (before.touched pid va isWrite).dirtyOf =
      if isWrite then
        Function.update before.dirtyOf ⟨pid, pageBase va⟩
          ((before.dirtyOf ⟨pid, pageBase va⟩).map fun _ => true)
      else before.dirtyOf := by
  cases isWrite with
  | false => exact dirtyOf_setAccessed va true
  | true =>
      have written (table : PageTable) (other : Nat) :
          ((table.setAccessed va true).setDirty va true).dirty? other =
            if pageBase va = other then (table.dirty? other).map fun _ => true
            else table.dirty? other := by
        rw [PageTable.dirty?_setDirty, PageTable.dirty?_setAccessed]
      apply shown_modifySpace_update
      · intro space found
        refine (written space.table _).trans ?_
        rw [if_pos rfl, Pager.dirtyOf, shown, found]
        rfl
      · intro missing
        rw [Pager.dirtyOf, shown, missing]
        rfl
      · intro space _ other apart
        exact (written space.table other).trans (if_neg apart)

theorem dirtyOf_discarded
    (aligned : pageBase owner.va = owner.va) {other : Owner} (apart : other ≠ owner) :
    (before.discarded owner page).dirtyOf other = before.dirtyOf other := by
  have written (pager : Pager) (range : FileRange) (frame : Nat) :
      (pager.writeBack owner range frame).dirtyOf other = pager.dirtyOf other := by
    rw [dirtyOf_writeBack aligned, Function.update_of_ne apart]
  have cleared (pager : Pager) : (pager.modifyTable owner.pid fun table =>
      table.clear owner.va).dirtyOf other = pager.dirtyOf other := by
    rw [dirtyOf_clear, aligned]
    exact Function.update_of_ne apart ..
  exact @keeps_discarded _ owner page (fun pager => pager.dirtyOf other) (fun _ _ => rfl) written
    (fun _ _ => rfl) (fun pager _ => cleared pager) (fun _ _ => rfl)
    (fun _ => congrFun dirtyOf_erasePage other) before

theorem Acquires.dirtyOf
    (acquires : before.Acquires owner frame held) (sound : before.ledger.Sound none)
    (other : Owner) :
    held.dirtyOf other = before.dirtyOf other ∨ held.dirtyOf other = none := by
  cases acquires with
  | free taken => exact Or.inl rfl
  | evicted full chosen present resident saves =>
      rename_i victim page saved
      have aligned := (sound.placed victim page present).aligned
      have detached := @dirtyOf_detached saved victim aligned
      by_cases same : other = victim
      · subst same
        exact Or.inr ((congrFun detached other).trans (Function.update_self ..))
      · have kept : saved.dirtyOf other = before.dirtyOf other := by
          rw [← before.dirtyOf_selected]
          cases saves with
          | toSlot anonymous taken complete => exact congrFun (dirtyOf_modifyPage ..) other
          | toFile file => rw [dirtyOf_writeBack aligned, Function.update_of_ne same]
        exact Or.inl ((congrFun detached other).trans ((Function.update_of_ne same ..).trans kept))

theorem Arrives.dirtyOf
    (arrives : held.Arrives owner frame after) (aligned : pageBase owner.va = owner.va) :
    after.dirtyOf = Function.update held.dirtyOf owner (some false) := by
  cases arrives with
  | intro found present absent installed fetch complete =>
      rw [← dirtyOf_attached aligned found installed]
      exact (dirtyOf_modifyPage ..).trans (dirtyOf_putFetched ..)

theorem Returns.dirtyOf
    (returns : held.Returns owner frame after) (aligned : pageBase owner.va = owner.va) :
    after.dirtyOf = Function.update held.dirtyOf owner none := by
  cases returns with
  | intro found present absent installed fetch incomplete =>
      have attached := dirtyOf_attached aligned found installed
      refine (dirtyOf_detached aligned).trans ?_
      rw [dirtyOf_putFetched, attached, Function.update_idem]

/-- What a turn may do to a dirty bit: nothing, take it away with the frame, install it clean, or set it
for a page that may be written. -/
theorem Turn.dirtyOf
    (turn : Turn deed before after) (sound : before.ledger.Sound none) (owner : Owner) :
    after.dirtyOf owner = before.dirtyOf owner ∨ after.dirtyOf owner = none ∨
      (deed = .claimed owner ∧ after.dirtyOf owner = some false) ∨
      ((deed = .touched owner ∨ deed = .dirtied owner) ∧
        after.dirtyOf owner = (before.dirtyOf owner).map (fun _ => true) ∧
          ∃ page, after.ledger.pages owner = some page ∧ page.writable = true) := by
  have whole := turn
  cases turn with
  | created absent =>
      rename_i pid
      left
      refine congrFun (before.shown_createProcess pid _ absent _ fun va => ?_) owner
      simp [AddressSpace.empty, PageTable.empty, PageTable.dirty?]
  | removed vacant =>
      rename_i pid
      left
      refine congrFun (before.shown_eraseSpace pid _ fun va => ?_) owner
      apply dirtyOf_of_vacant sound
      intro page present
      rw [vacant] at present
      cases present
  | relaid _ pid pages table keyed kept =>
      exact Or.inl (congrFun (before.shown_modifySpace_of_same pid fun space va => by rw [table]) owner)
  | touched translated allowed =>
      rename_i pid va isWrite translation
      rw [dirtyOf_touched, ledger_touched]
      cases isWrite with
      | false => exact Or.inl rfl
      | true =>
          by_cases here : owner = ⟨pid, pageBase va⟩
          · subst here
            obtain ⟨page, frame, present, resident⟩ :=
              sound.frames.page_of_translation _ translation translated
            have same := sound.frames.translation_of_page _ page frame present resident
            rw [translated] at same
            cases same
            exact Or.inr (Or.inr (Or.inr
              ⟨Or.inl rfl, Function.update_self .., page, present, allowed rfl⟩))
          · exact Or.inl (Function.update_of_ne here ..)
  | dirtied present writable =>
      rename_i pid va page
      rw [dirtyOf_setDirty, ledger_setDirty]
      by_cases here : owner = ⟨pid, pageBase va⟩
      · subst here
        exact Or.inr (Or.inr (Or.inr
          ⟨Or.inr rfl, Function.update_self .., page, present, writable⟩))
      · exact Or.inl (Function.update_of_ne here ..)
  | reserved found vacant placed pending absent =>
      left
      refine congrFun (before.shown_modifySpace_of_same _ ?_) owner
      exact fun _ _ => rfl
  | discarded present =>
      rename_i there page
      by_cases here : owner = there
      · subst here
        refine Or.inr (Or.inl (dirtyOf_of_vacant (whole.sound sound) fun page presentThen => ?_))
        rw [(ledger_discarded sound present).pages, Function.update_self] at presentThen
        cases presentThen
      · exact Or.inl (dirtyOf_discarded (sound.placed there page present).aligned here)
  | claimed present absent acquires arrives =>
      rename_i held there page frame
      rw [arrives.dirtyOf (sound.placed there page present).aligned]
      by_cases here : owner = there
      · subst here
        exact Or.inr (Or.inr (Or.inl ⟨rfl, Function.update_self ..⟩))
      · rw [Function.update_of_ne here]
        exact (acquires.dirtyOf sound owner).imp id Or.inl
  | missed present absent acquires returns =>
      rename_i held there page frame
      rw [returns.dirtyOf (sound.placed there page present).aligned]
      by_cases here : owner = there
      · subst here
        exact Or.inr (Or.inl (Function.update_self ..))
      · rw [Function.update_of_ne here]
        exact (acquires.dirtyOf sound owner).imp id Or.inl
  | _ => exact Or.inl rfl

/-! ## Tidy books -/

/-- Only pages are marked as changed that may be written, and regions are recorded where they start. -/
structure Tidy (pager : Pager) : Prop where
  marked : ∀ owner, pager.dirtyOf owner = some true →
    ∃ page, pager.ledger.pages owner = some page ∧ page.writable = true
  keyed : ∀ pid layout, pager.layout? pid = some layout → layout.IsKeyed

theorem Turn.marked
    (turn : Turn deed before after) (sound : before.ledger.Sound none) (tidy : before.Tidy)
    (dirty : after.dirtyOf owner = some true) :
    ∃ page, after.ledger.pages owner = some page ∧ page.writable = true := by
  rcases turn.dirtyOf sound owner with same | gone | ⟨_, clean⟩ | ⟨_, _, marked⟩
  · obtain ⟨old, presentOld, writable⟩ := tidy.marked owner (same.symm.trans dirty)
    have translated : (after.ledger.translations owner).isSome := by
      rw [← isSome_dirtyOf, dirty]
      rfl
    obtain ⟨translation, translated⟩ := Option.isSome_iff_exists.mp translated
    obtain ⟨page, frame, present, resident⟩ :=
      (turn.sound sound).frames.page_of_translation owner translation translated
    have unreserved : deed ≠ .reserved owner page := by
      rintro rfl
      cases turn with
      | reserved found vacant placed pending absent =>
          rw [absent] at resident
          cases resident
    obtain ⟨earlier, presentEarlier, continues⟩ := (turn.step sound).continued present unreserved
    rw [presentOld] at presentEarlier
    cases presentEarlier
    exact ⟨page, present, continues.writable.trans writable⟩
  · rw [dirty] at gone
    cases gone
  · rw [dirty] at clean
    cases clean
  · exact marked

theorem Turn.keyed
    (turn : Turn deed before after) (tidy : before.Tidy) {pid : Pid} {layout : Layout}
    (found : after.layout? pid = some layout) : layout.IsKeyed := by
  by_cases kept : deed.Replaces pid
  · rcases kept with rfl | rfl | ⟨reach, rfl⟩
    · cases turn with
      | created absent =>
          simp only [Pager.layout?, space?, Std.ExtTreeMap.getElem?_insert_self, Option.map_some,
            Option.some.injEq] at found
          intro base region recorded
          rw [← found] at recorded
          simp [AddressSpace.layout, AddressSpace.empty] at recorded
    · cases turn with
      | removed vacant =>
          simp [Pager.layout?, space?, eraseSpace] at found
    · cases turn with
      | relaid _ _ pages table keyed kept =>
          rw [Pager.layout?, space?_modifySpace, if_pos rfl, Option.map_map,
            Option.map_eq_some_iff] at found
          obtain ⟨space, found, rfl⟩ := found
          apply keyed space
          apply tidy.keyed pid
          rw [Pager.layout?, found]
          rfl
  · rw [turn.layout? kept] at found
    exact tidy.keyed pid layout found

/-- Every turn leaves the books tidy. -/
theorem Turn.tidy
    (turn : Turn deed before after) (sound : before.ledger.Sound none) (tidy : before.Tidy) :
    after.Tidy where
  marked _ dirty := turn.marked sound tidy dirty
  keyed _ _ found := turn.keyed tidy found

end Pager

end DemandPaging
