import DemandPaging.Proofs.FatalErrors
import DemandPaging.Proofs.FileChanges
import DemandPaging.Proofs.Forking

/-!
# Regions and their pages

Where a region is recorded all of its pages are there, each with its part of the file, and a page that
belongs to a region lies in the region that is recorded under its start. Nothing else keeps regions apart: a
mapping is refused where it meets pages, and every region is full of pages of its own.
-/

namespace DemandPaging

/-- A page belongs to a region and maps the part of the file behind it, now or when it is first touched. -/
structure Page.MapsPart (page : Page) (region : Region) (index : Nat) : Prop where
  belongs : page.region = some region.base
  mapped : ∃ range, page.kind.mapped? = some range ∧ range.file = region.file ∧
    range.offset = region.offset + index * pageSize ∧ range.length ≤ pageSize

theorem Page.MapsPart.of_alike {new old : Page} {region : Region} {index : Nat}
    (part : old.MapsPart region index) (alike : new.Alike old) : new.MapsPart region index where
  belongs := alike.region.trans part.belongs
  mapped := by
    rw [alike.mapped]
    exact part.mapped

namespace Region

variable {region : Region} {kernelBase : Nat}

theorem mapsPart_page (region : Region) (length fileSize : Nat) (writable : Bool) (index : Nat) :
    (region.page length fileSize writable index).MapsPart region index :=
  ⟨rfl, _, rfl, rfl, rfl, Nat.min_le_left pageSize _⟩

theorem IsPlaced.page_inside
    (placed : region.IsPlaced kernelBase) {index : Nat} (inside : index < region.pageCount) :
    region.base + index * pageSize < region.base + region.length := by
  rw [← placed.length_eq]
  exact Nat.add_lt_add_left (Nat.mul_lt_mul_of_pos_right inside (by decide)) _

/-- A page inside a region is one of its pages. -/
theorem IsPlaced.exists_index
    {va : Nat} (placed : region.IsPlaced kernelBase) (aligned : pageBase va = va)
    (above : region.base ≤ va) (below : va < region.base + region.length) :
    ∃ index < region.pageCount, va = region.base + index * pageSize := by
  have start := pageBase_of_pageAligned placed.aligned
  have whole := placed.length_eq
  simp only [pageBase, pageSize] at start aligned whole
  exact ⟨(va - region.base) / pageSize, by simp only [pageSize]; omega,
    by simp only [pageSize]; omega⟩

end Region

namespace Pager

/-- What is recorded as the region of a process that starts at an address agrees with the pages of the
process. -/
structure RegionAgrees (pager : Pager) (pid : Pid) (base : Nat) : Prop where
  keyed : ∀ region, pager.region? pid base = some region → region.base = base
  placed : ∀ region, pager.region? pid base = some region → region.IsPlaced pager.config.kernelBase
  covered : ∀ region, pager.region? pid base = some region → ∀ index < region.pageCount,
    ∃ page, pager.pageOf ⟨pid, base + index * pageSize⟩ = some page ∧ page.MapsPart region index
  within : ∀ va page, pager.pageOf ⟨pid, va⟩ = some page → page.region = some base →
    ∃ region, pager.region? pid base = some region ∧ base ≤ va ∧ va < base + region.length

namespace RegionAgrees

variable {before after pager : Pager} {pid source : Pid} {base other : Nat}
  {region otherRegion : Region}

theorem of_forgotten
    (forgotten : pager.region? pid base = none)
    (gone : ∀ va page, pager.pageOf ⟨pid, va⟩ = some page → page.region ≠ some base) :
    pager.RegionAgrees pid base where
  keyed region recorded := by cases forgotten.symm.trans recorded
  placed region recorded := by cases forgotten.symm.trans recorded
  covered region recorded := by cases forgotten.symm.trans recorded
  within va page present belongs := absurd belongs (gone va page present)

theorem of_absent (absent : pager.space? pid = none) (base : Nat) : pager.RegionAgrees pid base :=
  of_forgotten (region?_of_absent absent base) fun va page present => by
    cases (pages_of_absent absent va).symm.trans present

/-- The same record and pages that are alike agree, also where another process has them. -/
theorem of_alike
    (agrees : before.RegionAgrees source base) (config : after.config = before.config)
    (recorded : after.region? pid base = before.region? source base)
    (onward : ∀ va page, before.pageOf ⟨source, va⟩ = some page → page.region = some base →
      ∃ new, after.pageOf ⟨pid, va⟩ = some new ∧ new.Alike page)
    (back : ∀ va new, after.pageOf ⟨pid, va⟩ = some new → new.region = some base →
      ∃ page, before.pageOf ⟨source, va⟩ = some page ∧ new.Alike page) :
    after.RegionAgrees pid base where
  keyed region found := agrees.keyed region (recorded ▸ found)
  placed region found := by
    rw [config]
    exact agrees.placed region (recorded ▸ found)
  covered region found index inside := by
    obtain ⟨page, present, part⟩ := agrees.covered region (recorded ▸ found) index inside
    have belongs : page.region = some base := by
      rw [part.belongs, agrees.keyed region (recorded ▸ found)]
    obtain ⟨new, presentThen, alike⟩ := onward _ page present belongs
    exact ⟨new, presentThen, part.of_alike alike⟩
  within va new present belongs := by
    obtain ⟨page, presentThen, alike⟩ := back va new present belongs
    rw [recorded]
    exact agrees.within va page presentThen (alike.region.symm.trans belongs)

/-- Where no page is there is no region, and nothing belongs to one. -/
theorem blank
    (agrees : pager.RegionAgrees pid base) (vacant : pager.pageOf ⟨pid, base⟩ = none) :
    pager.region? pid base = none ∧
      ∀ va page, pager.pageOf ⟨pid, va⟩ = some page → page.region ≠ some base := by
  have unrecorded : pager.region? pid base = none := by
    rw [Option.eq_none_iff_forall_ne_some]
    intro region recorded
    obtain ⟨page, present, _⟩ :=
      agrees.covered region recorded 0 (agrees.placed region recorded).pageCount_pos
    rw [Nat.zero_mul, Nat.add_zero, vacant] at present
    cases present
  refine ⟨unrecorded, fun va page present belongs => ?_⟩
  obtain ⟨region, recorded, _⟩ := agrees.within va page present belongs
  cases unrecorded.symm.trans recorded

/-- No region starts inside another one: the page there cannot belong to both. -/
theorem not_inside
    (agrees : pager.RegionAgrees pid base) (otherAgrees : pager.RegionAgrees pid other)
    (recorded : pager.region? pid base = some region)
    (otherRecorded : pager.region? pid other = some otherRegion) (different : base ≠ other) :
    ¬ (base ≤ other ∧ other < base + region.length) := by
  rintro ⟨above, below⟩
  have placed := agrees.placed region recorded
  have otherPlaced := otherAgrees.placed otherRegion otherRecorded
  have starts := agrees.keyed region recorded
  have otherStarts := otherAgrees.keyed otherRegion otherRecorded
  have aligned : pageBase other = other := by
    rw [← otherStarts]
    exact pageBase_of_pageAligned otherPlaced.aligned
  obtain ⟨index, inside, there⟩ := placed.exists_index aligned (by omega) (by omega)
  obtain ⟨page, present, part⟩ := agrees.covered region recorded index inside
  obtain ⟨first, presentFirst, firstPart⟩ :=
    otherAgrees.covered otherRegion otherRecorded 0 otherPlaced.pageCount_pos
  rw [starts] at there
  rw [← there] at present
  rw [Nat.zero_mul, Nat.add_zero] at presentFirst
  cases present.symm.trans presentFirst
  have same := part.belongs.symm.trans firstPart.belongs
  rw [starts, otherStarts] at same
  exact different (Option.some.inj same)

theorem disjoint
    (agrees : pager.RegionAgrees pid base) (otherAgrees : pager.RegionAgrees pid other)
    (recorded : pager.region? pid base = some region)
    (otherRecorded : pager.region? pid other = some otherRegion) (different : base ≠ other) :
    base + region.length ≤ other ∨ other + otherRegion.length ≤ base := by
  have after := agrees.not_inside otherAgrees recorded otherRecorded different
  have before := otherAgrees.not_inside agrees otherRecorded recorded different.symm
  omega

end RegionAgrees

/-! ## Runs -/

variable {before after pager : Pager} {allowed : Deed → Prop} {pid other : Pid} {base : Nat}

/-- A run that neither reaches the record of a region nor makes or discards pages of it leaves it as it
was. -/
theorem Runs.regionAgrees
    (runs : Runs allowed before after) (sound : before.ledger.Sound none)
    (agrees : before.RegionAgrees pid base) (unremoved : ¬ allowed (.removed pid))
    (unreached : ∀ reach, allowed (.relaid pid reach) → ¬ reach.Includes base)
    (kept : ∀ va page, allowed (.discarded ⟨pid, va⟩ page) → page.region = some base →
      before.pageOf ⟨pid, va⟩ = none)
    (unmade : ∀ va page, allowed (.reserved ⟨pid, va⟩ page) → page.region ≠ some base) :
    after.RegionAgrees pid base := by
  apply agrees.of_alike runs.config (runs.region? unremoved unreached)
  · intro va page present belongs
    obtain ⟨new, presentThen, continues⟩ := runs.continues sound present
      fun meanwhile continues permitted => by
        have vacant := kept va meanwhile permitted (continues.region.trans belongs)
        cases vacant.symm.trans present
    exact ⟨new, presentThen, continues.toAlike⟩
  · intro va new present belongs
    rcases runs.origin sound present with ⟨old, presentOld, continues⟩ | ⟨laid, permitted, alike⟩
    · exact ⟨old, presentOld, continues.toAlike⟩
    · exact absurd (alike.region.symm.trans belongs) (unmade va laid permitted)

end Pager

/-! ## Deeds that spare regions -/

namespace Deed

/-- Deeds that leave the regions of a process alone: they make and discard no page of a region. -/
def SparesRegions (pid : Pid) : Deed → Prop
  | reserved owner page | discarded owner page => owner.pid = pid → page.region = none
  | removed other => other ≠ pid
  | relaid other reach => other = pid → reach = .nowhere
  | _ => True

variable {deed : Deed} {pid other : Pid} {laid : Page → Prop}

theorem Bypasses.sparesRegions (bypasses : deed.Bypasses pid) : deed.SparesRegions pid := by
  cases deed <;> first | exact fun same => absurd same bypasses | exact bypasses | exact trivial

theorem Amends.sparesRegions (amends : deed.Amends other) : deed.SparesRegions pid := by
  cases deed <;> first | exact fun _ => amends.2.2 | exact trivial | exact absurd amends id

theorem Lays.sparesRegions
    (lays : deed.Lays other laid) (outside : ∀ page, laid page → page.region = none) :
    deed.SparesRegions pid := by
  cases deed <;> first
    | exact fun _ => outside _ lays.2
    | exact trivial
    | exact absurd lays id

end Deed

namespace Pager

open PagerM

section Calls

variable {before after pager : Pager} {allowed : Deed → Prop} {pid : Pid} {base : Nat}
  {config : Config} {events : List Event} {call : Call} {outcome : Except PagingError Answer}

theorem Runs.regionAgrees_of_spared
    (runs : Runs allowed before after) (sound : before.ledger.Sound none)
    (agrees : before.RegionAgrees pid base)
    (spares : ∀ deed, allowed deed → deed.SparesRegions pid) : after.RegionAgrees pid base := by
  apply runs.regionAgrees sound agrees
  · exact fun permitted => spares _ permitted rfl
  · intro reach permitted
    rw [spares _ permitted rfl]
    exact id
  · intro va page permitted belongs
    cases (spares _ permitted rfl).symm.trans belongs
  · intro va page permitted belongs
    cases (spares _ permitted rfl).symm.trans belongs

/-! ## Mapping and unmapping -/

variable {length fileSize : Nat} {writable : Bool}

/-- After a mapping was made or given up the pages that belong to it are those that were made for it. -/
theorem Runs.made_of_maps
    {va : Nat} {page : Page} (region : Region)
    (runs : Runs (Deed.Maps pid region.base (fun owner => before.pageOf owner = none)
      (region.Makes length fileSize writable)) before after)
    (sound : before.ledger.Sound none) (agrees : before.RegionAgrees pid region.base)
    (vacant : before.pageOf ⟨pid, region.base⟩ = none)
    (present : after.pageOf ⟨pid, va⟩ = some page) (belongs : page.region = some region.base) :
    ∃ index < region.pageCount, va = region.base + index * pageSize := by
  rcases runs.origin sound present with ⟨old, presentOld, alike⟩ | ⟨laid, ⟨_, makes⟩, alike⟩
  · exact absurd (alike.region.symm.trans belongs) ((agrees.blank vacant).2 va old presentOld)
  · obtain ⟨index, inside, rfl⟩ := makes
    have placed := (runs.sound sound).placed _ page present
    exact ⟨index, inside, placed.va.symm.trans alike.va⟩

/-- A mapping leaves the other regions as they were. -/
theorem Runs.regionAgrees_of_maps
    {other : Nat} (region : Region)
    (runs : Runs (Deed.Maps pid region.base (fun owner => before.pageOf owner = none)
      (region.Makes length fileSize writable)) before after)
    (sound : before.ledger.Sound none) (agrees : before.RegionAgrees pid other)
    (apart : other ≠ region.base) : after.RegionAgrees pid other := by
  apply runs.regionAgrees sound agrees
  · exact id
  · rintro reach ⟨_, rfl⟩
    exact apart
  · exact fun va page permitted _ => permitted.2
  · rintro va page ⟨_, index, _, rfl⟩ belongs
    exact apart (Option.some.inj belongs).symm

/-- A region agrees with the pages that a mapping was made of. -/
theorem regionAgrees_mapped
    {region : Region} (placed : region.IsPlaced after.config.kernelBase)
    (recorded : after.region? pid region.base = some region)
    (mapped : ∀ index < region.pageCount, after.pageOf ⟨pid, region.base + index * pageSize⟩ =
      some (region.page length fileSize writable index))
    (made : ∀ va page, after.pageOf ⟨pid, va⟩ = some page → page.region = some region.base →
      ∃ index < region.pageCount, va = region.base + index * pageSize) :
    after.RegionAgrees pid region.base where
  keyed other found := by
    cases recorded.symm.trans found
    rfl
  placed other found := by
    cases recorded.symm.trans found
    exact placed
  covered other found index inside := by
    cases recorded.symm.trans found
    exact ⟨_, mapped index inside, region.mapsPart_page length fileSize writable index⟩
  within va page present belongs := by
    obtain ⟨index, inside, rfl⟩ := made va page present belongs
    exact ⟨region, recorded, Nat.le_add_right .., placed.page_inside inside⟩

/-- Mapping a file keeps regions and pages in step, whether it succeeds, is refused, or is given up. -/
theorem Orderly.regionAgrees_map
    {start length offset : Nat} {writable : Bool} {file : FileId}
    (orderly : before.Orderly config events) (agrees : ∀ base, before.RegionAgrees pid base)
    (run : attempt (Call.map pid start length writable file offset).perform before =
      .ok outcome after) (base : Nat) : after.RegionAgrees pid base := by
  have sound := orderly.sound
  let mapping : Region := ⟨start, roundedLength length, file, offset⟩
  rcases (meets_map (orderly.unpinned.ready sound) pid start length writable file offset).of_answered
      run with ⟨_, _, maps, free, region, rfl, placed, recorded, mapped⟩ | ⟨_, _, maps, refused⟩
  · by_cases here : base = start
    · subst here
      rw [← maps.runs.config] at placed
      exact regionAgrees_mapped placed recorded mapped fun va page =>
        maps.runs.made_of_maps mapping sound (agrees base) free
    · exact maps.runs.regionAgrees_of_maps mapping sound (agrees base) here
  · -- A mapping fails before anything is done, for want of a handle, or when it is rolled back.
    rcases refused with same | ⟨free, ⟨ledger, layout⟩ | unmapped⟩
    · rw [same]
      exact agrees base
    · have pages : after.pageOf = before.pageOf := congrArg Ledger.pages ledger
      apply (agrees base).of_alike maps.runs.config
      · rw [region?, region?, layout]
      · intro va page present _
        exact ⟨page, pages ▸ present, .refl page⟩
      · intro va page present _
        exact ⟨page, pages ▸ present, .refl page⟩
    · by_cases here : base = start
      · subst here
        apply RegionAgrees.of_forgotten unmapped.forgotten
        intro va page present belongs
        obtain ⟨index, inside, there⟩ :=
          maps.runs.made_of_maps mapping sound (agrees base) free present belongs
        have aligned := ((maps.runs.sound sound).placed _ page present).aligned
        dsimp only at there aligned
        rw [there] at aligned
        apply unmapped.gone index inside page _ belongs
        dsimp only
        rw [aligned, ← there]
        exact present
      · exact maps.runs.regionAgrees_of_maps mapping sound (agrees base) here

/-- A region is unmapped with its pages and no others. -/
theorem Orderly.regionAgrees_unmap
    {start : Nat} (orderly : before.Orderly config events)
    (agrees : ∀ base, before.RegionAgrees pid base)
    (run : attempt (Call.unmap pid start).perform before = .ok outcome after) (base : Nat) :
    after.RegionAgrees pid base := by
  have sound := orderly.sound
  rcases (meets_unmap sound pid start).of_answered run with
    ⟨_, _, unmaps, forgotten, gone⟩ | ⟨_, _, _, _, same⟩
  · by_cases here : base = start
    · subst here
      apply RegionAgrees.of_forgotten forgotten
      intro va page present belongs
      obtain ⟨old, presentOld, continues⟩ := unmaps.runs.continued sound present
        fun _ ⟨_, _, withdraws⟩ => withdraws
      obtain ⟨region, recorded, above, below⟩ :=
        (agrees base).within va old presentOld (continues.region.symm.trans belongs)
      have starts := (agrees base).keyed region recorded
      have aligned := (sound.placed _ old presentOld).aligned
      subst starts
      obtain ⟨index, inside, rfl⟩ :=
        ((agrees _).placed region recorded).exists_index aligned above below
      apply gone region recorded index inside page _ belongs
      dsimp only at aligned
      rw [aligned]
      exact present
    · apply unmaps.runs.regionAgrees sound (agrees base)
      · rintro ⟨_, _, withdraws⟩
        exact withdraws
      · rintro reach ⟨_, rfl⟩
        exact here
      · rintro va page ⟨region, recorded, _, belongs, _⟩ other
        have starts := (agrees start).keyed region recorded
        rw [other, starts] at belongs
        exact absurd (Option.some.inj belongs) here
      · rintro va page ⟨_, _, withdraws⟩
        exact absurd withdraws id
  · rw [same]
    exact agrees base

/-! ## Forks -/

/-- A child has the regions of its parent and a copy of each of their pages. -/
theorem Orderly.regionAgrees_fork
    {parent child : Pid} (orderly : before.Orderly config events)
    (agrees : ∀ pid base, before.RegionAgrees pid base)
    (run : attempt (Call.fork parent child).perform before = .ok outcome after)
    (is : pid = parent ∨ pid = child) (base : Nat) : after.RegionAgrees pid base := by
  have sound := orderly.sound
  have meets := meets_fork sound orderly.unpinned orderly.tidy parent child
  -- The child is compared with its parent after the fork: the pages of both may have been touched by it.
  have ofParent (apart : parent ≠ child) : after.RegionAgrees parent base := by
    apply (meets.reaches_of_answered run).runs.regionAgrees_of_spared sound (agrees parent base)
    rintro deed (forks | ends)
    · exact (forks.bypasses apart.symm).sparesRegions
    · exact (ends.uses.bypasses apart.symm).sparesRegions
  rcases meets.of_answered run with
    ⟨_, _, _, forks, apart, created, _, _, found, replicated⟩ | ⟨_, _, _, failed⟩
  · rcases is with rfl | rfl
    · exact ofParent apart
    · have laid : after.layout? parent = before.layout? parent :=
        forks.runs.layout? fun deed forks => (forks.bypasses apart.symm).not_replaces
      have layout : after.layout? pid = after.layout? parent := by
        rw [replicated.layout, laid, layout?, found]
        rfl
      apply (ofParent apart).of_alike rfl
      · rw [region?, region?, layout]
      · intro va page present _
        obtain ⟨original, copy, mirrors⟩ := replicated.mirrorsOf (Or.inl rfl) present
        cases present.symm.trans mirrors.present
        exact ⟨copy, mirrors.copied, mirrors.alike⟩
      · intro va page present _
        obtain ⟨original, copy, mirrors⟩ := replicated.mirrorsOf (Or.inr rfl) present
        cases present.symm.trans mirrors.copied
        exact ⟨original, mirrors.present, mirrors.alike⟩
  · rcases failed with same | ⟨_, middle, _, ended⟩
    · rw [same]
      exact agrees pid base
    · by_cases ends : pid = child
      · rw [ends]
        exact .of_absent ended.gone base
      · have isParent := is.resolve_right ends
        subst isParent
        exact ofParent ends

/-! ## Every call -/

-- The bottom of the stack is a number that unification must not compute.
attribute [local irreducible] setupStack

/-- Whatever is called and whatever comes of it, regions and pages stay in step. -/
theorem Orderly.regionAgrees
    (orderly : before.Orderly config events) (agrees : ∀ pid base, before.RegionAgrees pid base)
    (run : attempt call.perform before = .ok outcome after) (pid : Pid) (base : Nat) :
    after.RegionAgrees pid base := by
  have sound := orderly.sound
  have ready := orderly.unpinned.ready sound
  have permitted := (orderly.performs run).1
  have spared {allowed : Deed → Prop} (reaches : Reaches allowed before after)
      (spares : ∀ deed, allowed deed → deed.SparesRegions pid) : after.RegionAgrees pid base :=
    reaches.runs.regionAgrees_of_spared sound (agrees pid base) spares
  by_cases accesses : call.access? = some pid
  · rcases orderly.accessed accesses run with ⟨_, _, amends⟩ | ⟨_, _, _, _, killed⟩
    · exact spared amends fun _ => Deed.Amends.sparesRegions
    · exact .of_absent killed.gone base
  by_cases concerned : call.Concerns pid
  · -- The other calls are told apart by how they treat the regions of the process they are made for.
    cases call with
    | createProcess other =>
        apply spared permitted
        rintro deed (rfl | ⟨_, ⟨⟩, _⟩)
        trivial
    | exitProcess other =>
        cases concerned
        rcases (meets_exitProcess sound).of_answered run with ⟨_, _, _, _, gone, _⟩ | ⟨_, _, _, _, _, same⟩
        · exact .of_absent gone base
        · rw [same]
          exact agrees pid base
    | fork parent child => exact orderly.regionAgrees_fork agrees run concerned base
    | allocate other type va writable =>
        exact spared ((meets_allocate sound other type va writable).reaches_of_answered run)
          fun _ lays => lays.sparesRegions fun _ => And.right
    | allocateLazily other va writable load =>
        exact spared ((meets_allocateLazily sound other va writable
          (admissible_of_run run)).reaches_of_answered run)
            fun _ lays => lays.sparesRegions fun _ => And.right
    | loadSegment other file segment =>
        exact spared ((meets_loadSegment sound other file segment).reaches_of_answered run)
          fun _ lays => lays.sparesRegions fun _ => And.right
    | setupStack other =>
        apply spared ((meets_setupStack ready other (admissible_of_run run)).reaches_of_answered run)
        rintro deed (serves | rfl)
        · exact serves.amends.sparesRegions
        · exact fun _ => rfl
    | setStackPointer other address =>
        apply spared permitted
        rintro deed (rfl | ⟨_, ⟨⟩, _⟩)
        exact fun _ => rfl
    | claim other va =>
        exact spared ((serves_claim ready other va).reaches_of_answered run)
          fun _ serves => serves.amends.sparesRegions
    | map other start length writable file offset =>
        cases concerned
        exact orderly.regionAgrees_map (agrees pid) run base
    | unmap other start =>
        cases concerned
        exact orderly.regionAgrees_unmap (agrees pid) run base
    | stackPointer | pageType | isResident =>
        apply spared permitted
        rintro deed (does | ⟨_, ⟨⟩, _⟩)
        exact absurd does id
    | handlePageFault | readUser | writeUser => exact absurd (congrArg some concerned.symm) accesses
    | stats | config => exact absurd concerned id
  · exact spared permitted fun deed permits => (permits.bypasses concerned).sparesRegions

end Calls

end Pager

/-! ## Every history -/

section Laws

variable {config : Config} {kind : PolicyKind} {device : Device} {files : FileTable}
  {events : List Event} {pager : Pager}

theorem History.regionAgrees
    (history : History config kind device files events pager) (pid : Pid) (base : Nat) :
    pager.RegionAgrees pid base := by
  induction history generalizing pid base with
  | start => exact .of_absent (by simp [Pager.space?, Pager.create]) base
  | call history run noted inductionHypothesis =>
      exact history.orderly.regionAgrees inductionHypothesis run pid base
  | @outside events pager otherFiles otherDevice _ same inductionHypothesis =>
      have ledger := @Pager.ledger_outside pager otherFiles otherDevice same
      have pages := congrArg Ledger.pages ledger
      apply (inductionHypothesis pid base).of_alike
      · rfl
      · rfl
      · exact fun va page present _ => ⟨page, (congrFun pages _).trans present, .refl page⟩
      · exact fun va page present _ => ⟨page, (congrFun pages _).symm.trans present, .refl page⟩

/-- In every state of a history the regions of a process are placed in user memory, are full of their pages,
hold every page that belongs to a region, and do not overlap. -/
theorem regions_agree_with_pages
    (history : History config kind device files events pager) (pid : Pid) :
    (∀ base, pager.RegionAgrees pid base) ∧
      ∀ base other region otherRegion, pager.region? pid base = some region →
        pager.region? pid other = some otherRegion → base ≠ other →
          base + region.length ≤ other ∨ other + otherRegion.length ≤ base :=
  ⟨history.regionAgrees pid, fun base other _ _ recorded otherRecorded =>
    (history.regionAgrees pid base).disjoint (history.regionAgrees pid other) recorded otherRecorded⟩

/-- A process maps a file at two places and makes a copy of itself. Then it unmaps the first and maps over
the second. -/
def mapForkUnmap : List Call :=
  [.createProcess 1, .map 1 4096 5000 true 0 0, .map 1 12288 1 false 0 0, .fork 1 2, .unmap 1 4096,
    .map 1 8192 5000 true 0 0]

/-- The copy keeps both regions, apart from each other, and in the original the mapping that would meet the
second one is refused. -/
theorem regions_agree_with_pages_of_copy :
    ∃ (events : List Event) (pager : Pager) (first second : Region),
      History { frameCount := 2 } .fifo (Device.blank .memory 8)
        ⟨#[.create .memory (Array.replicate 6000 1)]⟩ events pager ∧
      pager.region? 2 4096 = some first ∧ pager.region? 2 12288 = some second ∧
      4096 + first.length ≤ 12288 ∧ pager.RegionAgrees 2 4096 ∧ pager.region? 1 8192 = none := by
  have ended : (((Pager.create { frameCount := 2 } .fifo (Device.blank .memory 8)
      ⟨#[.create .memory (Array.replicate 6000 1)]⟩).play [] mapForkUnmap).any fun result =>
        (result.2.region? 2 4096).isSome && (result.2.region? 2 12288).isSome &&
          (result.2.region? 1 8192).isNone) = true := by
    decide +kernel
  obtain ⟨⟨events, pager⟩, played, recorded⟩ := (Option.any_eq_true ..).mp ended
  simp only [Bool.and_eq_true, Option.isSome_iff_exists, Option.isNone_iff_eq_none] at recorded
  obtain ⟨⟨⟨first, found⟩, second, otherFound⟩, refused⟩ := recorded
  have history := History.start.play played
  obtain ⟨agrees, apart⟩ := regions_agree_with_pages history 2
  refine ⟨events, pager, first, second, history, found, otherFound, ?_, agrees 4096, refused⟩
  have either := apart _ _ _ _ found otherFound (by decide)
  omega

end Laws

end DemandPaging
