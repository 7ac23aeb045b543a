import DemandPaging.Pager.Mapping
import DemandPaging.Proofs.Claiming
import DemandPaging.Proofs.Handles

/-!
# Discarding pages and ending processes

Pages are discarded one at a time, each with everything it holds. A process that exits discards all of
its pages, and so does one that ends because of a fatal error.
-/

namespace DemandPaging

namespace Pager

open PagerM

variable {α : Type} {before pager : Pager} {pid : Pid} {page : Page} {frame : Nat}

/-! ## Discarding a page -/

private theorem meets_saveOnDiscard
    (inside : ∀ frame, page.frame = some frame → frame < pager.frames.frameCount)
    (fits : page.kind.readLength ≤ pageSize) (pid : Pid) (ending : Ending Unit) :
    (saveOnDiscard pid page).Meets pager ending ↔
      ending.answers ⟨⟩ (pager.discardSaved ⟨pid, page.va⟩ page) := by
  unfold saveOnDiscard discardSaved
  cases kind : page.kind with
  | file range =>
      cases resident : page.frame with
      | none => exact meets_pure _ _ _
      | some frame =>
          rw [kind] at fits
          dsimp only
          split
          · exact meets_saveToFile (inside frame resident) fits _ _
          · exact meets_pure _ _ _
  | _ => exact meets_pure _ _ _

private theorem meets_releasePageSlot
    (held : ∀ slot, page.kind.slot? = some slot →
      slot < pager.swap.slotCount ∧ pager.swap.used.get slot = true) (ending : Ending Unit) :
    (releasePageSlot page).Meets pager ending ↔ ending.answers ⟨⟩ (pager.discardSlot page) := by
  unfold releasePageSlot discardSlot
  cases slotFound : page.kind.slot? with
  | none => exact meets_pure _ _ _
  | some slot =>
      obtain ⟨inside, used⟩ := held slot slotFound
      exact meets_giveBackSlot inside used ending

private theorem meets_releasePageFrame
    (held : ∀ frame, page.frame = some frame → frame < pager.frames.frameCount ∧
      ∃ owner, pager.ledger.owners frame = some owner) (pid : Pid) (ending : Ending Unit) :
    (releasePageFrame pid page).Meets pager ending ↔
      ending.answers ⟨⟩ (pager.discardFrame ⟨pid, page.va⟩ page) := by
  unfold releasePageFrame discardFrame
  cases resident : page.frame with
  | none => exact meets_pure _ _ _
  | some frame =>
      obtain ⟨inside, owner, owned⟩ := held frame resident
      simp only [meets_bind, meets_modify]
      exact @meets_releaseFrame (pager.modifyTable pid fun table => table.clear page.va) frame
        inside owner owned ending

private theorem ledger_discardSaved (pager : Pager) (owner : Owner) (page : Page) :
    (pager.discardSaved owner page).ledger = pager.ledger := by
  unfold discardSaved
  split
  · split
    · exact pager.ledger_writeBack ..
    · rfl
  · rfl

private theorem frames_discardSlot (pager : Pager) (page : Page) :
    (pager.discardSlot page).frames = pager.frames := by
  unfold discardSlot
  split <;> rfl

theorem meets_discardPage
    (sound : before.ledger.Sound none)
    (present : before.ledger.pages ⟨pid, page.va⟩ = some page) (ending : Ending Unit) :
    (discardPage pid page).Meets before ending ↔
      ending.answers ⟨⟩ (before.discarded ⟨pid, page.va⟩ page) := by
  let noted := before.note
    (.discarded ⟨pid, page.va⟩ page ((before.table pid).isDirty page.va))
  let kept := noted.discardSaved ⟨pid, page.va⟩ page
  have same : kept.ledger = before.ledger := noted.ledger_discardSaved ..
  have inside (frame : Nat) (resident : page.frame = some frame) :
      frame < before.frames.frameCount :=
    sound.lt_frameCount (sound.owner_of_page present resident)
  have slots (slot : Nat) (slotFound : page.kind.slot? = some slot) :
      slot < kept.swap.slotCount ∧ kept.swap.used.get slot = true := by
    have used := (sound.slots.slot_of_page _ page slot present
      (PageKind.slot?_eq_some_iff.mp slotFound)).1
    have bound := sound.slots.inside slot used
    rw [← same] at used bound
    exact ⟨bound, used⟩
  have frames (frame : Nat) (resident : page.frame = some frame) :
      frame < (kept.discardSlot page).frames.frameCount ∧
        ∃ owner, (kept.discardSlot page).ledger.owners frame = some owner := by
    have owned := sound.owner_of_page present resident
    have bound := sound.lt_frameCount owned
    rw [← same] at owned bound
    refine ⟨?_, ⟨pid, page.va⟩, ?_⟩
    · rw [frames_discardSlot]
      exact bound
    · show (kept.discardSlot page).frames.owner? frame = _
      rw [frames_discardSlot]
      exact owned
  have fits := (sound.placed _ page present).fits
  simp only [discardPage, meets_bind, meets_modify]
  refine (@meets_saveOnDiscard noted page inside fits pid _).trans ?_
  refine (@meets_releasePageSlot kept page slots _).trans ?_
  exact @meets_releasePageFrame (kept.discardSlot page) page frames pid _

/-- A page that is discarded is gone and the others stay. -/
theorem pages_discarded
    (sound : before.ledger.Sound none)
    (present : before.ledger.pages ⟨pid, page.va⟩ = some page) :
    (before.discarded ⟨pid, page.va⟩ page).ledger.pages =
      Function.update before.ledger.pages ⟨pid, page.va⟩ none :=
  (ledger_discarded sound present).pages

theorem reaches_discarded
    {allowed : Deed → Prop} (sound : before.ledger.Sound none)
    (present : before.ledger.pages ⟨pid, page.va⟩ = some page)
    (permitted : allowed (.discarded ⟨pid, page.va⟩ page)) :
    Reaches allowed before (before.discarded ⟨pid, page.va⟩ page) :=
  .turn (.discarded present) sound permitted (by simp)

/-! ## Exit -/

/-- Discarding different pages in order leaves the other pages. -/
theorem meets_discardPages
    {pages : List Page} (sound : before.ledger.Sound none)
    (present : ∀ page ∈ pages, before.ledger.pages ⟨pid, page.va⟩ = some page)
    (distinct : (pages.map Page.va).Nodup) :
    (discardPages pid pages).Meets before
      (Proceeds (Deed.Ends pid) before
        (fun _ after => (∀ va, after.ledger.pages ⟨pid, va⟩ =
          if va ∈ pages.map Page.va then none else before.ledger.pages ⟨pid, va⟩) ∧
            after.layout? = before.layout? ∧ GivesUp pid before after)
        fun _ _ => False) := by
  induction pages generalizing before with
  | nil => exact answers_here ⟨fun va => by simp, rfl, .refl pid before⟩
  | cons page rest inductionHypothesis =>
      have presentHere := present page List.mem_cons_self
      have reaches := @reaches_discarded before pid page (Deed.Ends pid) sound presentHere rfl
      have pages := pages_discarded sound presentHere
      rw [List.map_cons, List.nodup_cons] at distinct
      simp only [discardPages, meets_bind]
      rw [meets_discardPage sound presentHere]
      apply Meets.rebase reaches
      apply (inductionHypothesis (reaches.runs.sound sound) ?_ distinct.2).weaken (fun _ => id)
      · rintro _ after _ ⟨gone, laid, given⟩
        refine ⟨fun va => ?_, laid.trans (before.layout?_discarded ..),
          (givesUp_discarded sound presentHere).trans given⟩
        rw [gone, pages]
        by_cases later : va ∈ rest.map Page.va
        · simp [later]
        · by_cases here : va = page.va
          · simp [here]
          · simp [later, here]
      · exact fun _ _ _ => False.elim
      · intro other member
        have apart : other.va ≠ page.va := by
          intro same
          exact distinct.1 (by rw [← same]; exact List.mem_map_of_mem member)
        rw [pages, Function.update_of_ne (by simpa using apart)]
        exact present other (List.mem_cons_of_mem page member)

/-- The pages of a process in order are its pages. -/
theorem pageList_of_space
    {space : AddressSpace} (sound : before.ledger.Sound none)
    (found : before.space? pid = some space) :
    (∀ page ∈ space.pageList, before.ledger.pages ⟨pid, page.va⟩ = some page) ∧
      space.pageList.map Page.va = space.pages.keys := by
  have entries (va : Nat) (page : Page) (member : (va, page) ∈ space.pages.toList) :
      before.ledger.pages ⟨pid, va⟩ = some page ∧ page.va = va := by
    have present : before.ledger.pages ⟨pid, va⟩ = some page := by
      rw [← pages_of_space found]
      exact Std.ExtTreeMap.mem_toList_iff_getElem?_eq_some.mp member
    exact ⟨present, (sound.placed _ page present).va⟩
  constructor
  · intro page member
    obtain ⟨⟨va, _⟩, listed, rfl⟩ := List.mem_map.mp member
    obtain ⟨present, same⟩ := entries va _ listed
    rw [same]
    exact present
  · rw [AddressSpace.pageList, List.map_map, ← Std.ExtTreeMap.map_fst_toList_eq_keys]
    apply List.map_congr_left
    rintro ⟨va, page⟩ listed
    exact (entries va page listed).2

theorem reaches_closeRegions
    {allowed : Deed → Prop} (pager : Pager) (regions : List Region)
    (sound : pager.ledger.Sound none) (permitted : ∀ file, allowed (.closed file)) :
    Reaches allowed pager (pager.closeRegions regions) := by
  induction regions generalizing pager with
  | nil => exact .refl pager
  | cons region rest inductionHypothesis =>
      have closed := Reaches.turn (.closed pager region.file) sound (permitted region.file)
        (by simp)
      exact closed.trans (inductionHypothesis _ (by rw [ledger_closeFile]; exact sound))

/-- A process is gone after deeds by which it may end. -/
structure Ended (pid : Pid) (before after : Pager) : Prop where
  ends : Reaches (Deed.Ends pid) before after
  gone : after.space? pid = none

/-- A process is gone after its exit. -/
theorem meets_exitProcess (sound : before.ledger.Sound none) :
    (exitProcess pid).Meets before
      (Proceeds (Deed.Ends pid) before
        (fun _ after => before.space? pid ≠ none ∧ after.space? pid = none ∧ GivesUp pid before after)
        fun error after => error = .noSuchProcess pid ∧ before.space? pid = none ∧
          after = before) := by
  simp only [exitProcess, meets_bind, meets_requireSpace]
  cases found : before.space? pid with
  | none => exact fails_here id ⟨rfl, rfl, rfl⟩
  | some space =>
      obtain ⟨present, listed⟩ := pageList_of_space sound found
      have distinct : (space.pageList.map Page.va).Nodup := by
        rw [listed]
        exact Std.ExtTreeMap.nodup_keys
      refine (meets_bind ..).mp ((meets_discardPages sound present distinct).andThen ?_
        fun _ _ _ => False.elim)
      rintro _ middle reaches ⟨gone, laid, given⟩
      have vacant (va : Nat) : middle.ledger.pages ⟨pid, va⟩ = none := by
        rw [gone, listed, ← pages_of_space found]
        split
        · rfl
        · rename_i absent
          rw [Std.ExtTreeMap.mem_keys] at absent
          exact Std.ExtTreeMap.getElem?_eq_none absent
      have middleSound := reaches.runs.sound sound
      have closed : Reaches (Deed.Ends pid) middle (middle.closeRegions space.regionList) :=
        reaches_closeRegions middle space.regionList middleSound fun _ => trivial
      have stillVacant (va : Nat) :
          (middle.closeRegions space.regionList).ledger.pages ⟨pid, va⟩ = none := by
        rw [ledger_closeRegions]
        exact vacant va
      have removed : Reaches (Deed.Ends pid) (middle.closeRegions space.regionList)
          ((middle.closeRegions space.regionList).eraseSpace pid) :=
        .turn (.removed stillVacant) (closed.runs.sound middleSound) rfl (by simp)
      have layout : middle.layout? pid = some space.layout := by
        rw [laid, layout?, found]
        rfl
      exact ⟨closed.trans removed, Option.some_ne_none space, space?_eraseSpace ..,
        given.trans (givesUp_removed layout vacant)⟩

/-- Whatever comes of it, a process has ended after its exit. -/
theorem ends_exitProcess (sound : before.ledger.Sound none) :
    (exitProcess pid).Meets before
      (Proceeds (Deed.Ends pid) before (fun _ after => Ended pid before after)
        fun _ after => Ended pid before after) :=
  (meets_exitProcess sound).weaken (fun _ => id) (fun _ _ ends exited => ⟨ends, exited.2.1⟩)
    fun _ _ ends ⟨_, absent, same⟩ => ⟨ends, same ▸ absent⟩

/-! ## Fatal errors -/

/-- A process could not go on and ended, with every handle that it held. -/
structure Killed (pid : Pid) (error : PagingError) (before after : Pager) : Prop
    extends Ended pid before after where
  lethal : error.IsLethal pid
  givesUp : GivesUp pid before after

/-- A process that meets a fatal error ends where the program broke; without one nothing is done but by
the program. -/
theorem meets_killOnFatal
    {program : PagerM α} {allowed : Deed → Prop} {answers : α → Pager → Prop}
    {broke : PagingError → Pager → Prop} (ready : before.Ready)
    (meets : program.Meets before (Proceeds allowed before answers fun error after =>
      after.Bars pid error ∧ broke error after)) :
    (killOnFatal pid program).Meets before
      (Proceeds (fun deed => allowed deed ∨ deed.Ends pid) before
        (fun answer after => Reaches allowed before after ∧ answers answer after)
        fun error after => ∃ middle, Reaches allowed before middle ∧ broke error middle ∧
          Killed pid error middle after) := by
  have within : program.Meets before (Proceeds (fun deed => allowed deed ∨ deed.Ends pid) before
      (fun answer after => Reaches allowed before after ∧ answers answer after)
      fun error after => Reaches allowed before after ∧ after.Bars pid error ∧ broke error after) :=
    meets.weaken (fun _ => Or.inl) (fun _ _ => And.intro) fun _ _ => And.intro
  apply within.andThenAttempt
  · exact fun answer middle _ holds => answers_here holds
  · rintro error middle - external ⟨reaches, bars, broken⟩
    have middleSound := reaches.runs.sound ready.sound
    have present : middle.spaces.contains pid = (middle.space? pid).isSome := by
      rw [space?, Std.ExtTreeMap.isSome_getElem?_eq_contains]
    simp only [meets_bind, meets_get, present]
    split
    · rename_i ends
      have alive := (Bool.and_eq_true_iff.mp ends).2
      apply ((meets_exitProcess middleSound).weaken (fun _ => Or.inr) (fun _ _ => And.intro)
        fun _ _ _ => id).andThen
      · rintro _ after _ ⟨ended, _, gone, given⟩
        exact fails_here external ⟨middle, reaches, broken, ⟨ended, gone⟩, bars.isLethal, given⟩
      · rintro _ after _ ⟨_, absent, _⟩
        rw [absent] at alive
        cases alive
    · rename_i spared
      rw [meets_fail]
      refine fails_here external
        ⟨middle, reaches, broken, ⟨.refl middle, ?_⟩, bars.isLethal, .refl pid middle⟩
      rcases bars with fatal | ⟨_, gone⟩
      · simpa [fatal] using spared
      · exact gone

/-- The same if it does not matter where the program broke. -/
theorem proceeds_killOnFatal
    {program : PagerM α} {allowed : Deed → Prop} {answers : α → Pager → Prop} (ready : before.Ready)
    (meets : program.Meets before (Proceeds allowed before answers fun error after =>
      after.Bars pid error)) :
    (killOnFatal pid program).Meets before
      (Proceeds (fun deed => allowed deed ∨ deed.Ends pid) before
        (fun answer after => Reaches allowed before after ∧ answers answer after)
        fun error after => ∃ middle, Reaches allowed before middle ∧
          Killed pid error middle after) := by
  have broke : program.Meets before (Proceeds allowed before answers fun error after =>
      after.Bars pid error ∧ True) :=
    meets.weaken (fun _ => id) (fun _ _ _ => id) fun _ _ _ bars => ⟨bars, trivial⟩
  exact (meets_killOnFatal ready broke).weaken (fun _ => id) (fun _ _ _ => id)
    fun _ _ _ ⟨middle, reaches, _, killed⟩ => ⟨middle, reaches, killed⟩

/-! ## Removing a mapping -/

/-- Of the pages with the given indices none is left that belongs to the region. -/
theorem meets_discardMapped
    (sound : before.ledger.Sound none) (region : Region) {indices : List Nat}
    (inside : ∀ index ∈ indices, index < region.pageCount) :
    (discardMapped pid region indices).Meets before
      (Proceeds (Deed.Withdraws pid region) before
        (fun _ after => ∀ index ∈ indices, ∀ page,
          after.ledger.pages ⟨pid, pageBase (region.base + index * pageSize)⟩ = some page →
            page.region ≠ some region.base)
        fun _ _ => False) := by
  induction indices generalizing before with
  | nil => exact answers_here fun index member => absurd member List.not_mem_nil
  | cons index rest inductionHypothesis =>
      have later {middle : Pager} (sound : middle.ledger.Sound none)
          (here : ∀ page, middle.ledger.pages ⟨pid, pageBase (region.base + index * pageSize)⟩ =
            some page → page.region ≠ some region.base) :
          (discardMapped pid region rest).Meets middle
            (Proceeds (Deed.Withdraws pid region) middle
              (fun _ after => ∀ other ∈ index :: rest, ∀ page,
                after.ledger.pages ⟨pid, pageBase (region.base + other * pageSize)⟩ = some page →
                  page.region ≠ some region.base)
              fun _ _ => False) := by
        apply (inductionHypothesis sound fun other member =>
          inside other (List.mem_cons_of_mem index member)).weaken (fun _ => id)
        · intro _ after reaches gone other member page present
          rcases List.mem_cons.mp member with rfl | inRest
          · obtain ⟨old, presentOld, continues⟩ :=
              reaches.runs.continued sound present fun _ => id
            rw [continues.region]
            exact here old presentOld
          · exact gone other inRest page present
        · exact fun _ _ _ => id
      simp only [discardMapped, meets_bind, meets_get]
      have same := before.page?_eq pid (region.base + index * pageSize)
      cases found : before.page? pid (region.base + index * pageSize) with
      | none =>
          rw [found] at same
          refine later sound fun page present => ?_
          rw [← same] at present
          cases present
      | some page =>
          rw [found] at same
          have placed := sound.placed _ page same.symm
          have present : before.ledger.pages ⟨pid, page.va⟩ = some page := by
            rw [placed.va]
            exact same.symm
          simp only
          split
          · rename_i mapped
            have permitted : (Deed.discarded ⟨pid, page.va⟩ page).Withdraws pid region :=
              ⟨rfl, mapped, index, inside index List.mem_cons_self, placed.va⟩
            have reaches := reaches_discarded sound present permitted
            rw [meets_bind, meets_discardPage sound present]
            refine (later (reaches.runs.sound sound) fun other presentThen => ?_).rebase reaches
            rw [pages_discarded sound present, placed.va, Function.update_self] at presentThen
            cases presentThen
          · rename_i other
            refine later sound fun new presentNew => ?_
            rw [← same] at presentNew
            cases presentNew
            exact other

theorem turn_eraseRegion (pager : Pager) (pid : Pid) (base : Nat) :
    Turn (.relaid pid (.at base)) pager (pager.eraseRegion pid base) := by
  refine .relaid pager pid (fun _ => rfl) (fun _ => rfl)
    (fun space keyed other region recorded => ?_) fun space other outside => ?_
  · simp only [AddressSpace.layout, Std.ExtTreeMap.getElem?_erase] at recorded
    split at recorded
    · cases recorded
    · exact keyed other region recorded
  · have apart : base ≠ other := fun same => outside same.symm
    simp [Std.ExtTreeMap.getElem?_erase, apart]

theorem region?_eraseRegion (pager : Pager) (pid : Pid) (base : Nat) :
    (pager.eraseRegion pid base).region? pid base = none := by
  rw [region?, layout?, eraseRegion, space?_modifySpace, if_pos rfl]
  cases pager.space? pid <;> simp [AddressSpace.layout]

/-- A region is removed with the pages that belong to it. -/
theorem meets_unmap (sound : before.ledger.Sound none) (pid : Pid) (base : Nat) :
    (unmap pid base).Meets before
      (Proceeds (Deed.Unmaps pid base (before.region? pid base)) before
        (fun _ after => after.region? pid base = none ∧
          ∀ region, before.region? pid base = some region → ∀ index < region.pageCount, ∀ page,
            after.ledger.pages ⟨pid, pageBase (region.base + index * pageSize)⟩ = some page →
              page.region ≠ some region.base)
        fun _ after => before.space? pid = none ∧ after = before) := by
  simp only [unmap, meets_bind, meets_requireSpace]
  cases found : before.space? pid with
  | none => exact fails_here id ⟨rfl, rfl⟩
  | some space =>
      have same := region?_of_space found base
      dsimp only
      cases recorded : space.regions[base]? with
      | none =>
          rw [recorded] at same
          rw [meets_pure]
          refine answers_here ⟨same, fun region recorded => ?_⟩
          rw [same] at recorded
          cases recorded
      | some region =>
          rw [recorded] at same
          rw [same]
          have erased : Reaches (Deed.Unmaps pid base (some region)) before (before.eraseRegion pid base) :=
            .turn (turn_eraseRegion before pid base) sound ⟨rfl, rfl⟩ (by simp)
          have erasedSound := erased.runs.sound sound
          apply Meets.afterChange erased
          apply ((meets_discardMapped erasedSound region fun index => List.mem_range.mp).weaken
            (fun _ => Deed.Withdraws.unmaps) (fun _ _ => And.intro)
              fun _ _ _ => False.elim).andThen _ fun _ _ _ => id
          rintro _ middle - ⟨reaches, gone⟩
          refine meets_modify_turn (.closed middle region.file) (reaches.runs.sound erasedSound)
            ⟨region, rfl, trivial⟩ (by simp) ⟨?_, ?_⟩
          · have laid : middle.layout? pid = (before.eraseRegion pid base).layout? pid :=
              reaches.runs.layout? fun _ withdraws => withdraws.not_replaces pid
            have forgotten := before.region?_eraseRegion pid base
            rw [region?, ← laid] at forgotten
            exact forgotten
          · rintro other ⟨⟩ index inside
            exact gone index (List.mem_range.mpr inside)

end Pager

end DemandPaging
