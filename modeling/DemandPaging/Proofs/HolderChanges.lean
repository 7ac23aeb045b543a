import DemandPaging.Proofs.HandleCopies
import DemandPaging.Proofs.Regions

/-!
# Who gains and loses handles

A page or region keeps its handle from its reservation to its end, but for a page of a segment, which needs
none once it is loaded. What a call adds it adds as a whole or not at all, except for a segment, whose pages
before a failure stay.
-/

namespace DemandPaging

/-- A page of a segment got its content, which is memory of its own. -/
structure Page.LoadedFrom (new old : Page) : Prop where
  segment : ∃ range, old.kind = .pending (.segment range)
  anonymous : ∃ slot, new.kind = .anonymous slot

/-- The process of which a call may load pages. -/
def Call.loads? : Call → Option Pid
  | fork pid _ | setupStack pid | claim pid _ | handlePageFault pid _ | readUser pid .. | writeUser pid .. =>
      some pid
  | _ => none

/-- The process that a call may end. -/
def Call.ends? : Call → Option Pid
  | exitProcess pid => some pid
  | call => call.access?

theorem Call.loads?_of_access? {call : Call} {pid : Pid} (accesses : call.access? = some pid) :
    call.loads? = some pid := by
  cases call <;> cases accesses <;> rfl

theorem Call.ends?_of_access? {call : Call} {pid : Pid} (accesses : call.access? = some pid) :
    call.ends? = some pid := by
  cases call <;> cases accesses <;> rfl

/-- A page that goes on keeps its handle unless it is loaded from a segment. -/
theorem Page.Continues.handle? {new old : Page} (continues : new.Continues old) :
    new.kind.handle? = old.kind.handle? ∨ (new.kind.handle? = none ∧ new.LoadedFrom old) := by
  rcases kind : new.kind with load | slot | range
  · rw [continues.pending load kind]
    exact Or.inl rfl
  · have type := continues.type
    have mapped := continues.mapped
    simp only [Page.type, kind, PageKind.type, PageKind.mapped?] at type mapped
    rcases oldKind : old.kind with (_ | from' | _) | held | range
    · exact Or.inl rfl
    · exact Or.inr ⟨rfl, ⟨from', oldKind⟩, slot, kind⟩
    · rw [oldKind] at mapped
      cases mapped
    · exact Or.inl rfl
    · rw [oldKind] at mapped
      cases mapped
  · have mapped := continues.mapped
    simp only [kind, PageKind.mapped?] at mapped
    rcases oldKind : old.kind with (_ | _ | other) | held | other <;> rw [oldKind] at mapped <;>
      cases mapped <;> exact Or.inl rfl

namespace Pager

open PagerM

variable {before middle after : Pager} {allowed : Deed → Prop} {call : Call} {config : Config}
  {events : List Event} {outcome : Except PagingError Answer} {pid : Pid} {owner : Owner}
  {holder : Holder} {file : FileId} {page : Page} {base : Nat}

/-! ## Pages during a run -/

/-- A page that is not discarded keeps its handle, or it is claimed and loaded. -/
theorem Runs.handleAt_kept
    (runs : Runs allowed before after) (sound : before.ledger.Sound none)
    (present : before.pageOf owner = some page)
    (kept : ∀ new, new.Continues page → ¬ allowed (.discarded owner new)) :
    after.handleAt (.page owner) = before.handleAt (.page owner) ∨
      (after.handleAt (.page owner) = none ∧ allowed (.claimed owner) ∧
        ∃ new, after.pageOf owner = some new ∧ new.LoadedFrom page) := by
  obtain ⟨new, presentThen, continues⟩ := runs.continues sound present kept
  rw [handleAt_page present, handleAt_page presentThen]
  refine continues.handle?.imp id fun ⟨released, loaded⟩ => ⟨released, ?_, new, presentThen, loaded⟩
  by_contra unclaimed
  obtain ⟨range, pending⟩ := loaded.segment
  obtain ⟨slot, anonymous⟩ := loaded.anonymous
  have waits := runs.waits sound present pending (kept page (.refl page)) unclaimed
  cases waits.symm.trans presentThen
  cases pending.symm.trans anonymous

/-- A page holds a handle that it held before, or with which it was reserved. -/
theorem Runs.handleAt_origin
    (runs : Runs allowed before after) (sound : before.ledger.Sound none)
    (held : after.handleAt (.page owner) = some file) :
    before.handleAt (.page owner) = some file ∨
      ∃ laid, allowed (.reserved owner laid) ∧ laid.kind.handle? = some file := by
  obtain ⟨new, present, holds⟩ := Option.bind_eq_some_iff.mp held
  rcases runs.origin sound present with ⟨old, presentOld, continues⟩ | ⟨laid, permitted, continues⟩
  · rcases continues.handle? with same | ⟨none, _⟩
    · rw [handleAt_page presentOld, ← same]
      exact Or.inl holds
    · cases holds.symm.trans none
  · rcases continues.handle? with same | ⟨none, _⟩
    · exact Or.inr ⟨laid, permitted, same.symm.trans holds⟩
    · cases holds.symm.trans none

/-! ## How calls change what is held -/

/-- How a page or region may lose its handle by a call: its process ends, its region is removed, or it is a
page of a segment that is loaded. -/
inductive Releases (call : Call) (before after : Pager) : Holder → Prop
  | ended {holder : Holder} (ends : call.ends? = some holder.pid)
      (gone : after.space? holder.pid = none) : Releases call before after holder
  | unmapped {pid : Pid} {base : Nat} (isUnmap : call = .unmap pid base) :
      Releases call before after (.region pid base)
  | withdrawn {pid : Pid} {base va : Nat} {page : Page} (isUnmap : call = .unmap pid base)
      (present : before.pageOf ⟨pid, va⟩ = some page) (belongs : page.region = some base)
      (gone : after.pageOf ⟨pid, va⟩ = none) : Releases call before after (.page ⟨pid, va⟩)
  | loaded {owner : Owner} {page new : Page} (loads : call.loads? = some owner.pid)
      (present : before.pageOf owner = some page) (presentThen : after.pageOf owner = some new)
      (loaded : new.LoadedFrom page) : Releases call before after (.page owner)

/-- Something keeps its handle over a call, or the call releases it. -/
def KeepsOrReleases (call : Call) (before after : Pager) (holder : Holder) : Prop :=
  after.handleAt holder = before.handleAt holder ∨
    (after.handleAt holder = none ∧ Releases call before after holder)

end Pager

/-- Calls after which something holds a handle of a file that did not hold it before. -/
def Call.Opens (call : Call) (outcome : Except PagingError Answer) (holder : Holder) (file : FileId) :
    Prop :=
  match call with
  | allocateLazily pid va _ load => outcome.isOk ∧ holder = .page ⟨pid, pageBase va⟩ ∧
      (PageKind.pending load).handle? = some file
  | loadSegment pid named _ => (∃ va, holder = .page ⟨pid, va⟩) ∧ file = named
  | map pid _ _ _ named _ => outcome.isOk ∧ holder.pid = pid ∧ file = named
  | fork _ child => outcome.isOk ∧ holder.pid = child
  | _ => False

namespace Pager

open PagerM

section Calls

variable {before after : Pager} {call : Call} {config : Config} {events : List Event}
  {outcome : Except PagingError Answer} {pid : Pid} {owner : Owner} {file : FileId} {page : Page}

/-! ## Pages during a call -/

/-- A page that is not reserved leaves everything as it was, but for its handle. -/
theorem closes_reservePage (before : Pager) (pid : Pid) (page : Page) :
    (reservePage pid page).Meets before
      ⟨fun _ _ => True, fun _ after => after = before.closeHandle page, fun _ _ => True⟩ := by
  refine (meets_bind ..).mpr ((meets_insist ..).mpr ⟨fun _ => ?_, fun _ => trivial⟩)
  refine (meets_bind ..).mpr ((meets_insist ..).mpr ⟨fun _ => ?_, fun _ => trivial⟩)
  refine (meets_bind ..).mpr ((meets_attempt ..).mpr ?_)
  have refused : (insertPage pid page).Meets before
      ⟨fun _ _ => True, fun _ after => after = before, fun _ _ => True⟩ := by
    refine (meets_bind ..).mpr ((still_checkUserAddress page.va before).mono (fun _ middle same => ?_)
      (fun _ _ => id) fun _ _ _ => trivial)
    subst same
    dsimp only
    rw [meets_bind, meets_requireSpace]
    cases middle.space? pid with
    | none => rfl
    | some space =>
        dsimp only
        split
        · rfl
        · trivial
  exact refused.mono (fun _ _ _ => trivial) (fun _ _ same => congrArg (closeHandle · page) same)
    fun _ _ _ => trivial

theorem handleAt_closeHandle (pager : Pager) (page : Page) :
    (pager.closeHandle page).handleAt = pager.handleAt := by
  unfold closeHandle
  split <;> rfl

theorem KeepsOrReleases.of_same {holder : Holder} (same : after = before) :
    KeepsOrReleases call before after holder := by
  rw [same]
  exact Or.inl rfl

/-- A page goes with its process. -/
theorem KeepsOrReleases.ended (ends : call.ends? = some owner.pid) (gone : after.space? owner.pid = none) :
    KeepsOrReleases call before after (.page owner) :=
  Or.inr ⟨handleAt_of_vacant (pages_of_absent gone owner.va), .ended ends gone⟩

/-- A page that is not discarded keeps its handle unless it is loaded. -/
theorem KeepsOrReleases.undiscarded
    {allowed : Deed → Prop} (reaches : Reaches allowed before after) (sound : before.ledger.Sound none)
    (present : before.pageOf owner = some page)
    (kept : ∀ new, new.Continues page → ¬ allowed (.discarded owner new))
    (claims : allowed (.claimed owner) → call.loads? = some owner.pid) :
    KeepsOrReleases call before after (.page owner) :=
  (reaches.runs.handleAt_kept sound present kept).imp id fun ⟨released, claimed, _, presentThen, loaded⟩ =>
    ⟨released, .loaded (claims claimed) present presentThen loaded⟩

/-! ## Pages that are there before a call -/

theorem Orderly.releases_exited
    (orderly : before.Orderly config events) {pid : Pid}
    (run : attempt (Call.exitProcess pid).perform before = .ok outcome after) (own : owner.pid = pid) :
    KeepsOrReleases (.exitProcess pid) before after (.page owner) := by
  cases own
  rcases (meets_exitProcess orderly.sound).of_answered run with ⟨_, _, _, _, gone, _⟩ | ⟨_, _, _, _, _, same⟩
  · exact .ended rfl gone
  · exact .of_same same

/-- A fork may load the pages of the parent, and those of the child are not there before it. -/
theorem Orderly.releases_forked
    (orderly : before.Orderly config events) {parent child : Pid}
    (run : attempt (Call.fork parent child).perform before = .ok outcome after)
    (present : before.pageOf owner = some page) :
    KeepsOrReleases (.fork parent child) before after (.page owner) := by
  have sound := orderly.sound
  have notChild (absent : before.space? child = none) : owner.pid ≠ child := by
    rintro rfl
    cases (pages_of_absent absent owner.va).symm.trans present
  have loads (absent : before.space? child = none)
      (forks : Deed.Forks before.ledger.pages parent child (.claimed owner)) :
      (Call.fork parent child).loads? = some owner.pid := by
    rcases forks with isParent | isChild
    · exact congrArg some isParent.symm
    · exact absurd isChild (notChild absent)
  rcases (meets_fork sound orderly.unpinned orderly.tidy parent child).of_answered run with
    ⟨_, _, _, forks, _, created, creation, _⟩ | ⟨_, _, reaches, same | ⟨absent, _⟩⟩
  · have absent : before.space? child = none := ((meets_createProcess sound child).of_ok creation).2.1
    exact .undiscarded forks sound present (fun _ _ => id) (loads absent)
  · exact .of_same same
  · refine .undiscarded reaches sound present ?_ ?_
    · rintro new _ (forks | ends)
      · exact forks
      · exact notChild absent ends
    · rintro (forks | ends)
      · exact loads absent forks
      · exact absurd ends id

/-- A page is withdrawn with its region, and only then. -/
theorem Orderly.releases_unmapped
    (orderly : before.Orderly config events) (agrees : ∀ pid base, before.RegionAgrees pid base) {start : Nat}
    (run : attempt (Call.unmap owner.pid start).perform before = .ok outcome after)
    (present : before.pageOf owner = some page) :
    KeepsOrReleases (.unmap owner.pid start) before after (.page owner) := by
  have sound := orderly.sound
  rcases (meets_unmap sound owner.pid start).of_answered run with
    ⟨_, _, unmaps, forgotten, _⟩ | ⟨_, _, _, _, same⟩
  · by_cases belongs : page.region = some start
    · cases presentThen : after.pageOf owner with
      | none =>
          exact Or.inr ⟨handleAt_of_vacant presentThen, .withdrawn rfl present belongs presentThen⟩
      | some new =>
          obtain ⟨old, presentOld, continues⟩ := unmaps.runs.continued sound presentThen
            fun _ ⟨_, _, withdraws⟩ => withdraws
          cases presentOld.symm.trans present
          obtain ⟨_, recorded, _⟩ := (orderly.regionAgrees agrees run owner.pid start).within
            owner.va new presentThen (continues.region.trans belongs)
          cases forgotten.symm.trans recorded
    · refine .undiscarded unmaps sound present ?_ ?_
      · rintro new continues ⟨region, recorded, _, belongsNow, _⟩
        rw [continues.region, (agrees owner.pid start).keyed region recorded] at belongsNow
        exact belongs belongsNow
      · rintro ⟨_, _, withdraws⟩
        exact absurd withdraws id
  · exact .of_same same

/-- A page that is there before a call keeps its handle, or it is loaded, or it goes with its process or its
region. -/
theorem Orderly.releases_page
    (orderly : before.Orderly config events) (agrees : ∀ pid base, before.RegionAgrees pid base)
    (run : attempt call.perform before = .ok outcome after) (present : before.pageOf owner = some page) :
    KeepsOrReleases call before after (.page owner) := by
  have sound := orderly.sound
  have permitted := (orderly.performs run).1
  by_cases accesses : call.access? = some owner.pid
  · rcases orderly.accessed accesses run with ⟨_, _, amends⟩ | ⟨_, _, _, _, killed⟩
    · exact .undiscarded amends sound present (fun _ _ => id) fun _ => Call.loads?_of_access? accesses
    · exact .ended (Call.ends?_of_access? accesses) killed.gone
  by_cases concerned : call.Concerns owner.pid
  · cases call with
    | exitProcess pid => exact orderly.releases_exited run concerned
    | fork parent child => exact orderly.releases_forked run present
    | unmap pid start =>
        cases concerned
        exact orderly.releases_unmapped agrees run present
    | map pid start length writable named offset =>
        refine .undiscarded permitted sound present ?_ ?_
        · rintro new _ (⟨_, vacant⟩ | ⟨_, ⟨⟩, _⟩)
          cases Eq.symm vacant |>.trans present
        · rintro (does | ⟨_, ⟨⟩, _⟩)
          exact absurd does id
    | handlePageFault | readUser | writeUser => exact absurd (congrArg some concerned.symm) accesses
    | stats | config => exact absurd concerned id
    | createProcess | setStackPointer =>
        refine .undiscarded permitted sound present ?_ ?_
        · rintro new _ (⟨⟨⟩⟩ | ⟨_, ⟨⟩, _⟩)
        · rintro (⟨⟨⟩⟩ | ⟨_, ⟨⟩, _⟩)
    | claim | setupStack =>
        refine .undiscarded permitted sound present ?_ ?_
        · rintro new _ (does | ⟨_, ⟨⟩, _⟩)
          exact absurd does id
        · exact fun _ => congrArg some concerned.symm
    | _ =>
        refine .undiscarded permitted sound present ?_ ?_
        · rintro new _ (does | ⟨_, ⟨⟩, _⟩)
          exact absurd does id
        · rintro (does | ⟨_, ⟨⟩, _⟩)
          exact absurd does id
  · refine .undiscarded permitted sound present ?_ ?_
    · exact fun new _ permits => (permits.bypasses concerned).not_discarded rfl
    · exact fun permits => absurd (permits.touches (Or.inr (Or.inl rfl))) concerned

/-! ## Pages that come with a call -/

theorem handle?_of_zero (zero : page.kind = .pending .zero) : page.kind.handle? = none := by
  rw [zero]
  rfl

/-- A page that comes with a handle was reserved with it. -/
theorem Reaches.opening
    {allowed : Deed → Prop} (reaches : Reaches allowed before after) (sound : before.ledger.Sound none)
    (vacant : before.pageOf owner = none) (held : after.handleAt (.page owner) = some file) :
    ∃ laid, allowed (.reserved owner laid) ∧ laid.kind.handle? = some file := by
  rcases reaches.runs.handleAt_origin sound held with was | opened
  · cases (handleAt_of_vacant vacant).symm.trans was
  · exact opened

theorem not_holds_of_unchanged (vacant : before.pageOf owner = none)
    (same : after.handleAt = before.handleAt) : after.handleAt (.page owner) ≠ some file := by
  rw [same, handleAt_of_vacant vacant]
  exact nofun

theorem not_holds_of_gone (gone : after.space? owner.pid = none) :
    after.handleAt (.page owner) ≠ some file := by
  rw [handleAt_of_vacant (pages_of_absent gone owner.va)]
  exact nofun

theorem Orderly.opens_allocated
    (orderly : before.Orderly config events) {pid : Pid} {va : Nat} {writable : Bool} {load : LazyLoad}
    (run : attempt (Call.allocateLazily pid va writable load).perform before = .ok outcome after)
    (vacant : before.pageOf owner = none) (held : after.handleAt (.page owner) = some file) :
    (Call.allocateLazily pid va writable load).Opens outcome (.page owner) file := by
  have sound := orderly.sound
  rcases (@meets_reservePage before pid ⟨pageBase va, writable, false, none, none, .pending load⟩ load
      sound (pageAligned_pageBase va) (admissible_of_run run) rfl rfl).of_answered run with
    ⟨_, rfl, reaches, _⟩ | ⟨_, rfl, _, _⟩
  · obtain ⟨laid, ⟨rfl, rfl⟩, holds⟩ := reaches.opening sound vacant held
    exact ⟨rfl, rfl, holds⟩
  · have refused : (Call.allocateLazily pid va writable load).perform.Meets before
        ⟨fun _ _ => True, fun _ after => after = before.closeHandle _, fun _ _ => True⟩ :=
      (meets_bind ..).mpr ((closes_reservePage before pid _).mono (fun _ _ => id) (fun _ _ => id)
        fun _ _ => id)
    rcases refused.of_attempt run with ⟨_, ⟨⟩, _⟩ | ⟨_, _, same⟩
    refine absurd held (not_holds_of_unchanged vacant ?_)
    rw [same]
    exact handleAt_closeHandle ..

/-- A page that a mapping made does not outlast it, since it belongs to the region. -/
theorem not_holds_of_unmapped
    {start length : Nat} {region : Region} {fileSize : Nat} {writable : Bool} (sound : before.ledger.Sound none)
    (agrees : before.RegionAgrees owner.pid start) (starts : region.base = start)
    (maps : Reaches (Deed.Maps owner.pid start (fun owner => before.ledger.pages owner = none)
      (region.Makes length fileSize writable)) before after)
    (blank : before.ledger.pages ⟨owner.pid, start⟩ = none) (unmapped : after.Unmapped owner.pid region)
    (vacant : before.pageOf owner = none) : after.handleAt (.page owner) ≠ some file := by
  subst starts
  intro held
  obtain ⟨new, present, _⟩ := Option.bind_eq_some_iff.mp held
  rcases maps.runs.origin sound present with ⟨old, presentOld, _⟩ | ⟨laid, ⟨_, makes⟩, continues⟩
  · cases vacant.symm.trans presentOld
  · obtain ⟨_, _, rfl⟩ := makes
    have belongs : new.region = some region.base := continues.region
    obtain ⟨index, inside, there⟩ := maps.runs.made_of_maps region sound agrees blank present belongs
    have aligned := ((maps.runs.sound sound).placed _ new present).aligned
    refine absurd belongs (unmapped.gone index inside new ?_)
    rw [← there, aligned]
    exact present

theorem Orderly.opens_mapped
    (orderly : before.Orderly config events) (agrees : ∀ pid base, before.RegionAgrees pid base)
    {start length : Nat} {writable : Bool} {named : FileId} {offset : Nat}
    (run : attempt (Call.map owner.pid start length writable named offset).perform before = .ok outcome after)
    (vacant : before.pageOf owner = none) (held : after.handleAt (.page owner) = some file) :
    (Call.map owner.pid start length writable named offset).Opens outcome (.page owner) file := by
  have sound := orderly.sound
  rcases (meets_map (orderly.unpinned.ready sound) owner.pid start length writable named
      offset).of_answered run with ⟨_, rfl, maps, _⟩ | ⟨_, rfl, maps, refused⟩
  · obtain ⟨laid, ⟨_, makes⟩, holds⟩ := maps.opening sound vacant held
    obtain ⟨_, _, rfl⟩ := makes
    exact ⟨rfl, rfl, (Option.some.inj holds).symm⟩
  · exfalso
    rcases refused with same | ⟨blank, ⟨ledger, layout⟩ | unmapped⟩
    · exact not_holds_of_unchanged vacant (same ▸ rfl) held
    · refine not_holds_of_unchanged vacant (handleAt_of_pages layout fun other => ?_) held
      rw [handleAt, handleAt, ledger]
    · exact not_holds_of_unmapped sound (agrees owner.pid start) rfl maps blank unmapped vacant held

theorem Orderly.opens_forked
    (orderly : before.Orderly config events) {parent child : Pid}
    (run : attempt (Call.fork parent child).perform before = .ok outcome after)
    (vacant : before.pageOf owner = none) (held : after.handleAt (.page owner) = some file) :
    (Call.fork parent child).Opens outcome (.page owner) file := by
  have sound := orderly.sound
  rcases (meets_fork sound orderly.unpinned orderly.tidy parent child).of_answered run with
    ⟨_, rfl, _, forks, _⟩ | ⟨_, rfl, reaches, same | ⟨_, _, _, ended⟩⟩
  · obtain ⟨laid, ⟨isChild, _⟩, _⟩ := forks.opening sound vacant held
    exact ⟨rfl, isChild⟩
  · exact absurd held (not_holds_of_unchanged vacant (same ▸ rfl))
  · obtain ⟨laid, ⟨isChild, _⟩ | ends, _⟩ := reaches.opening sound vacant held
    · exact absurd held (not_holds_of_gone (isChild ▸ ended.gone))
    · exact absurd ends id

/-- A page that comes with a handle comes with a call that opens one for it. -/
theorem Orderly.opens_page
    (orderly : before.Orderly config events) (agrees : ∀ pid base, before.RegionAgrees pid base)
    (run : attempt call.perform before = .ok outcome after) (vacant : before.pageOf owner = none)
    (held : after.handleAt (.page owner) = some file) : call.Opens outcome (.page owner) file := by
  have sound := orderly.sound
  have permitted := (orderly.performs run).1
  have unopened {allowed : Deed → Prop} (reaches : Reaches allowed before after)
      (plain : ∀ laid, allowed (.reserved owner laid) → laid.kind.handle? = none) :
      call.Opens outcome (.page owner) file := by
    obtain ⟨laid, reserves, holds⟩ := reaches.opening sound vacant held
    cases (plain laid reserves).symm.trans holds
  by_cases accesses : call.access? = some owner.pid
  · rcases orderly.accessed accesses run with ⟨_, _, amends⟩ | ⟨_, _, _, _, killed⟩
    · exact unopened amends fun laid reserves => handle?_of_zero reserves.2.1
    · exact absurd held (not_holds_of_gone killed.gone)
  by_cases concerned : call.Concerns owner.pid
  · cases call with
    | allocate pid type va writable =>
        apply unopened permitted
        rintro laid (lays | ⟨_, ⟨⟩, _⟩)
        exact handle?_of_zero lays.2.2
    | allocateLazily pid va writable load => exact orderly.opens_allocated run vacant held
    | loadSegment pid named segment =>
        cases concerned
        obtain ⟨laid, lays | ⟨_, ⟨⟩, _⟩, holds⟩ := permitted.opening sound vacant held
        rcases lays.2 with zero | ⟨range, kind, rfl⟩
        · cases (handle?_of_zero zero).symm.trans holds
        · rw [kind] at holds
          exact ⟨⟨owner.va, rfl⟩, (Option.some.inj holds).symm⟩
    | map pid start length writable named offset =>
        cases concerned
        exact orderly.opens_mapped agrees run vacant held
    | fork parent child => exact orderly.opens_forked run vacant held
    | setupStack | claim =>
        apply unopened permitted
        rintro laid (does | ⟨_, ⟨⟩, _⟩)
        exact handle?_of_zero does.2
    | unmap pid start =>
        apply unopened permitted
        rintro laid (⟨_, _, withdraws⟩ | ⟨_, ⟨⟩, _⟩)
        exact absurd withdraws id
    | createProcess | setStackPointer =>
        apply unopened permitted
        rintro laid (⟨⟨⟩⟩ | ⟨_, ⟨⟩, _⟩)
    | handlePageFault | readUser | writeUser => exact absurd (congrArg some concerned.symm) accesses
    | stats | config => exact absurd concerned id
    | _ =>
        apply unopened permitted
        rintro laid (does | ⟨_, ⟨⟩, _⟩)
        exact absurd does id
  · apply unopened permitted
    exact fun laid permits => absurd rfl (permits.bypasses concerned).not_reserved

/-! ## Regions during a call -/

/-- A region is the one that was recorded before a call, or it is forgotten with its process or by a call
that removes it, or it comes with a call that opens its handle. -/
def RegionChanges (call : Call) (outcome : Except PagingError Answer) (before after : Pager) (pid : Pid)
    (base : Nat) : Prop :=
  after.region? pid base = before.region? pid base ∨
    (after.region? pid base = none ∧ Releases call before after (.region pid base)) ∨
    (before.region? pid base = none ∧ ∀ region, after.region? pid base = some region →
      call.Opens outcome (.region pid base) region.file)

theorem RegionChanges.of_same (same : after = before) (base : Nat) :
    RegionChanges call outcome before after pid base := by
  rw [same]
  exact Or.inl rfl

theorem RegionChanges.ended
    (ends : call.ends? = some pid) (gone : after.space? pid = none) (base : Nat) :
    RegionChanges call outcome before after pid base :=
  Or.inr (Or.inl ⟨region?_of_absent gone base, .ended ends gone⟩)

theorem Orderly.changes_region_forked
    (orderly : before.Orderly config events) {parent child : Pid}
    (run : attempt (Call.fork parent child).perform before = .ok outcome after) (pid : Pid) (base : Nat) :
    RegionChanges (.fork parent child) outcome before after pid base := by
  have sound := orderly.sound
  rcases (meets_fork sound orderly.unpinned orderly.tidy parent child).of_answered run with
    ⟨_, rfl, _, forks, _, created, creation, _⟩ | ⟨_, _, reaches, same | ⟨absent, _, _, ended⟩⟩
  · by_cases isChild : pid = child
    · subst isChild
      have absent : before.space? pid = none := ((meets_createProcess sound pid).of_ok creation).2.1
      exact Or.inr (Or.inr ⟨region?_of_absent absent base, fun _ _ => ⟨rfl, rfl⟩⟩)
    · exact Or.inl (forks.runs.region? id fun _ relaid => absurd relaid isChild)
  · exact .of_same same base
  · by_cases isChild : pid = child
    · subst isChild
      exact Or.inl ((region?_of_absent ended.gone base).trans (region?_of_absent absent base).symm)
    · refine Or.inl (reaches.runs.region? ?_ ?_)
      · rintro (forks | ends)
        · exact forks
        · exact isChild ends
      · rintro reach (relaid | ends)
        · exact absurd relaid isChild
        · exact absurd ends id

theorem Orderly.changes_region_mapped
    (orderly : before.Orderly config events) (agrees : ∀ base, before.RegionAgrees pid base)
    {start length : Nat} {writable : Bool} {named : FileId} {offset : Nat}
    (run : attempt (Call.map pid start length writable named offset).perform before = .ok outcome after)
    (base : Nat) :
    RegionChanges (.map pid start length writable named offset) outcome before after pid base := by
  have meets := meets_map (orderly.unpinned.ready orderly.sound) pid start length writable named offset
  by_cases here : base = start
  · subst here
    rcases meets.of_answered run with
      ⟨_, rfl, _, free, region, rfl, _, recorded, _⟩ | ⟨_, _, _, same | ⟨free, ⟨_, layout⟩ | unmapped⟩⟩
    · refine Or.inr (Or.inr ⟨((agrees base).blank free).1, fun other found => ?_⟩)
      cases recorded.symm.trans found
      exact ⟨rfl, rfl, rfl⟩
    · exact .of_same same base
    · exact Or.inl (by rw [region?, region?, layout])
    · exact Or.inl (unmapped.forgotten.trans ((agrees base).blank free).1.symm)
  · refine Or.inl ((meets.reaches_of_answered run).runs.region? id ?_)
    rintro reach ⟨_, rfl⟩
    exact here

theorem Orderly.changes_region_unmapped
    (orderly : before.Orderly config events) {start : Nat}
    (run : attempt (Call.unmap pid start).perform before = .ok outcome after) (base : Nat) :
    RegionChanges (.unmap pid start) outcome before after pid base := by
  have meets := meets_unmap orderly.sound pid start
  by_cases here : base = start
  · subst here
    rcases meets.of_answered run with ⟨_, _, _, forgotten, _⟩ | ⟨_, _, _, _, same⟩
    · exact Or.inr (Or.inl ⟨forgotten, .unmapped rfl⟩)
    · exact .of_same same base
  · refine Or.inl ((meets.reaches_of_answered run).runs.region? ?_ ?_)
    · rintro ⟨_, _, withdraws⟩
      exact withdraws
    · rintro reach ⟨_, rfl⟩
      exact here

theorem Orderly.changes_region
    {base : Nat} (orderly : before.Orderly config events)
    (agrees : ∀ pid base, before.RegionAgrees pid base)
    (run : attempt call.perform before = .ok outcome after) :
    RegionChanges call outcome before after pid base := by
  have permitted := (orderly.performs run).1
  by_cases accesses : call.access? = some pid
  · rcases orderly.accessed accesses run with ⟨_, _, amends⟩ | ⟨_, _, _, _, killed⟩
    · exact Or.inl (amends.runs.region? id fun _ relaid => absurd relaid id)
    · exact .ended (Call.ends?_of_access? accesses) killed.gone base
  by_cases concerned : call.Concerns pid
  · cases call with
    | exitProcess other =>
        cases concerned
        rcases (meets_exitProcess orderly.sound).of_answered run with
          ⟨_, _, _, _, gone, _⟩ | ⟨_, _, _, _, _, same⟩
        · exact .ended rfl gone base
        · exact .of_same same base
    | fork parent child => exact orderly.changes_region_forked run pid base
    | map other start length writable named offset =>
        cases concerned
        exact orderly.changes_region_mapped (agrees pid) run base
    | unmap other start =>
        cases concerned
        exact orderly.changes_region_unmapped run base
    | setupStack other =>
        refine Or.inl (permitted.runs.region? ?_ ?_)
        · rintro (does | ⟨_, ⟨⟩, _⟩)
          exact does
        · rintro reach (⟨_, rfl⟩ | ⟨_, ⟨⟩, _⟩)
          exact id
    | createProcess other =>
        refine Or.inl (permitted.runs.region? ?_ ?_)
        · rintro (⟨⟨⟩⟩ | ⟨_, ⟨⟩, _⟩)
        · rintro reach (⟨⟨⟩⟩ | ⟨_, ⟨⟩, _⟩)
    | setStackPointer other address =>
        refine Or.inl (permitted.runs.region? ?_ ?_)
        · rintro (⟨⟨⟩⟩ | ⟨_, ⟨⟩, _⟩)
        · rintro reach (⟨⟨⟩⟩ | ⟨_, ⟨⟩, _⟩)
          exact id
    | handlePageFault | readUser | writeUser => exact absurd (congrArg some concerned.symm) accesses
    | stats | config => exact absurd concerned id
    | _ =>
        refine Or.inl (permitted.runs.region? ?_ ?_)
        · rintro (does | ⟨_, ⟨⟩, _⟩)
          exact does
        · rintro reach (does | ⟨_, ⟨⟩, _⟩)
          exact absurd does id
  · left
    have layout := permitted.runs.layout? fun deed permits => (permits.bypasses concerned).not_replaces
    rw [region?, region?, layout]

/-- After a call everything holds the handle that it held before, or it released it, or it holds one that
the call opened. -/
theorem Orderly.handleAt_call
    (orderly : before.Orderly config events) (agrees : ∀ pid base, before.RegionAgrees pid base)
    (run : attempt call.perform before = .ok outcome after) (holder : Holder) :
    after.handleAt holder = before.handleAt holder ∨
      (after.handleAt holder = none ∧ Releases call before after holder) ∨
      ∃ file, before.handleAt holder = none ∧ after.handleAt holder = some file ∧
        call.Opens outcome holder file := by
  cases holder with
  | page owner =>
      cases present : before.pageOf owner with
      | some page => exact (orderly.releases_page agrees run present).imp id Or.inl
      | none =>
          have free : before.handleAt (.page owner) = none := handleAt_of_vacant present
          cases held : after.handleAt (.page owner) with
          | none => exact Or.inl free.symm
          | some file =>
              exact Or.inr (Or.inr ⟨file, free, rfl, orderly.opens_page agrees run present held⟩)
  | region pid base =>
      simp only [handleAt]
      rcases orderly.changes_region agrees run with same | ⟨forgotten, releases⟩ | ⟨unrecorded, opens⟩
      · exact Or.inl (by rw [same])
      · exact Or.inr (Or.inl ⟨by rw [forgotten]; rfl, releases⟩)
      · rw [unrecorded]
        cases recorded : after.region? pid base with
        | none => exact Or.inl rfl
        | some region => exact Or.inr (Or.inr ⟨region.file, rfl, rfl, opens region recorded⟩)

end Calls

end Pager

end DemandPaging
