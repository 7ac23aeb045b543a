import DemandPaging.Proofs.HolderChanges
import DemandPaging.Proofs.Roster

/-!
# Handles are conserved

Between calls every open handle of a file is held outside the virtual memory, by a region or by a page. So
whatever a call does and wherever it fails, it opens and closes as many handles as regions and pages gain and
lose.
-/

namespace DemandPaging

/-- The file of which a call takes over a handle. -/
def Call.handsOver? : Call → Option FileId
  | allocateLazily _ _ _ load => (PageKind.pending load).handle?
  | _ => none

/-- Histories with the handles that are held outside the virtual memory. All handles are held outside at the
start; somebody outside may open and close handles between calls, and hands one over with a lazy load. -/
inductive HandleHistory (config : Config) (kind : PolicyKind) (device : Device) (files : FileTable) :
    (FileId → Nat) → Pager → Prop
  | start : HandleHistory config kind device files files.handles (Pager.create config kind device files)
  | call {outside : FileId → Nat} {before after : Pager} {call : Call}
      {outcome : Except PagingError Answer}
      (history : HandleHistory config kind device files (outside + inHand call.handsOver?) before)
      (run : PagerM.attempt call.perform before = .ok outcome after) :
      HandleHistory config kind device files outside after
  | outside {outside now : FileId → Nat} {pager : Pager} {otherFiles : FileTable} {otherDevice : Device}
      (history : HandleHistory config kind device files outside pager)
      (changed : otherFiles.handles + outside = pager.files.handles + now)
      (same : otherDevice.sectors = pager.swap.device.sectors) :
      HandleHistory config kind device files now
        { pager with files := otherFiles, swap := { pager.swap with device := otherDevice } }

namespace Pager

variable {before after pager : Pager} {call : Call} {outcome : Except PagingError Answer}
  {config : Config} {events : List Event} {loose : FileId → Nat} {file : FileId}

/-! ## Counting what is held -/

/-- The regions of all processes. -/
def regionRoster (pager : Pager) : List (Owner × Region) :=
  pager.listed AddressSpace.regions

/-- The number of regions on a file. -/
def regionsOn (pager : Pager) (file : FileId) : Nat :=
  pager.regionRoster.countP fun entry => entry.2.file == file

/-- The number of pages that were not touched yet and are to be loaded from a file. -/
def pendingOn (pager : Pager) (file : FileId) : Nat :=
  pager.roster.countP fun entry =>
    match entry.2.kind with
    | .pending load => load.range?.map FileRange.file == some file
    | _ => false

/-- The number of pages that hold a part of a file. -/
def filePagesOn (pager : Pager) (file : FileId) : Nat :=
  pager.roster.countP fun entry =>
    match entry.2.kind with
    | .file range => range.file == file
    | _ => false

/-- A page holds a handle if it is to be loaded from a file, or if it holds a part of one. -/
theorem countP_handle? (pager : Pager) (file : FileId) :
    (pager.roster.countP fun entry => entry.2.kind.handle? == some file) =
      pager.pendingOn file + pager.filePagesOn file := by
  rw [pendingOn, filePagesOn, List.countP_eq_countP_filter_add _ _ fun entry : Owner × Page =>
    match entry.2.kind with
    | .pending _ => true
    | _ => false]
  simp only [List.countP_filter]
  congr 1
  · apply List.countP_congr
    rintro ⟨owner, page⟩ _
    cases page.kind <;> simp [PageKind.handle?]
  · apply List.countP_congr
    rintro ⟨owner, page⟩ _
    cases page.kind <;> simp [PageKind.handle?]

theorem mem_regionRoster (pager : Pager) (owner : Owner) (region : Region) :
    (owner, region) ∈ pager.regionRoster ↔ pager.region? owner.pid owner.va = some region := by
  rw [regionRoster, mem_listed, region?, layout?]
  cases pager.space? owner.pid with
  | none => simp
  | some space => simp [AddressSpace.layout]

/-- The handles that are held are counted by going through all regions and pages. -/
theorem held_eq (pager : Pager) (file : FileId) :
    pager.held file = pager.regionsOn file + pager.pendingOn file + pager.filePagesOn file := by
  let regions := (pager.regionRoster.filter fun entry => entry.2.file == file).map
    fun entry => Holder.region entry.1.pid entry.1.va
  let pages := (pager.roster.filter fun entry => entry.2.kind.handle? == some file).map
    fun entry => Holder.page entry.1
  have distinctRegions : regions.Nodup := by
    rw [List.Nodup, List.pairwise_map]
    apply ((pager.listed_distinct AddressSpace.regions).filter _).imp
    rintro ⟨⟨pid, base⟩, _⟩ ⟨⟨other, start⟩, _⟩ apart same
    cases same
    exact apart rfl
  have distinctPages : pages.Nodup := by
    rw [List.Nodup, List.pairwise_map]
    apply (pager.roster_distinct.filter _).imp
    exact fun apart same => apart (Holder.page.inj same)
  have apart : regions.Disjoint pages := by
    intro holder isRegion isPage
    obtain ⟨_, _, rfl⟩ := List.mem_map.mp isRegion
    obtain ⟨_, _, same⟩ := List.mem_map.mp isPage
    cases same
  have listed : pager.allHolders file = (regions ++ pages).toFinset := by
    ext holder
    simp only [allHolders, List.coe_toFinset, Set.mem_ofPred_eq, List.mem_append, regions, pages,
      List.mem_map, List.mem_filter, Prod.exists, beq_iff_eq, mem_roster, mem_regionRoster]
    cases holder with
    | page owner => simp [handleAt, Option.bind_eq_some_iff]
    | region pid base =>
        simp only [handleAt, Option.map_eq_some_iff, Holder.region.injEq, reduceCtorEq, and_false,
          exists_false, or_false]
        constructor
        · rintro ⟨region, recorded, same⟩
          exact ⟨⟨pid, base⟩, region, ⟨recorded, same⟩, rfl, rfl⟩
        · rintro ⟨⟨_, _⟩, region, ⟨recorded, same⟩, rfl, rfl⟩
          exact ⟨region, recorded, same⟩
  rw [held, listed, Set.ncard_coe_finset,
    List.toFinset_card_of_nodup (distinctRegions.append distinctPages apart), List.length_append,
    List.length_map, List.length_map, ← List.countP_eq_length_filter, ← List.countP_eq_length_filter,
    countP_handle?, ← Nat.add_assoc]
  rfl

theorem held_of_isEmpty (empty : pager.spaces.isEmpty = true) : pager.held = 0 := by
  funext file
  have none : pager.allHolders file = ∅ := by
    apply Set.eq_empty_of_forall_notMem
    intro holder holds
    have absent : pager.space? holder.pid = none := by
      rw [space?, Std.ExtTreeMap.isEmpty_iff.mp empty]
      exact Std.ExtTreeMap.getElem?_empty
    cases (handleAt_of_absent absent).symm.trans holds
  rw [held, none, Set.ncard_empty]
  rfl

/-! ## Every call -/

open PagerM

-- The bottom of the stack is a number that unification must not compute.
attribute [local irreducible] setupStack

/-- Whatever is called and whatever comes of it, the handles balance, and a handle that is handed over is not
loose any more. -/
theorem Orderly.balances
    (orderly : before.Orderly config events) (agrees : ∀ pid base, before.RegionAgrees pid base)
    (run : attempt call.perform before = .ok outcome after)
    (balances : before.Balances (loose + inHand call.handsOver?)) : after.Balances loose := by
  have sound := orderly.sound
  have ready := orderly.unpinned.ready sound
  cases accesses : call.access? with
  | some pid =>
      have nothing : call.handsOver? = none := by
        cases call <;> cases accesses <;> rfl
      rw [nothing, inHand_none, add_zero] at balances
      rcases orderly.accessed accesses run with ⟨_, _, amends⟩ | ⟨_, middle, _, amends, killed⟩
      · exact balances.givesUp (amends.runs.givesUp sound fun _ => id)
      · exact (balances.givesUp (amends.runs.givesUp sound fun _ => id)).givesUp killed.givesUp
  | none =>
      have answered {α : Type} {program : PagerM α} {answer : α → Answer}
          (performs : call.perform = program >>= fun result => pure (answer result))
          (meets : program.Meets before (balancing loose)) : after.Balances loose := by
        have whole : call.perform.Meets before (balancing loose) := by
          rw [performs]
          exact settling_bind meets fun _ _ balanced => balanced
        rcases whole.of_attempt run with ⟨_, _, balanced⟩ | ⟨_, _, balanced⟩
        · exact balanced
        · exact balanced
      have looked (balances : before.Balances loose) (still : call.perform.IsStill) :
          after.Balances loose := by
        rcases (still before).of_attempt run with ⟨_, _, same⟩ | ⟨_, _, same⟩
        · exact same ▸ balances
        · exact same ▸ balances
      cases call with
      | allocateLazily pid va writable load => exact answered rfl (balancing_reservePage balances)
      | createProcess pid => exact answered rfl (balancing_createProcess balances pid)
      | exitProcess pid => exact answered rfl (balancing_exitProcess balances sound pid)
      | fork parent child =>
          exact answered rfl
            (balancing_fork balances sound orderly.unpinned orderly.tidy parent child)
      | allocate pid type va writable => exact answered rfl (balancing_allocate balances pid type va writable)
      | loadSegment pid file segment => exact answered rfl (balancing_loadSegment balances pid file segment)
      | setupStack pid =>
          exact answered rfl (balancing_setupStack balances ready pid (admissible_of_run run))
      | setStackPointer pid address => exact answered rfl (balancing_setStackPointer balances pid address)
      | claim pid va => exact answered rfl (balancing_claim balances ready pid va)
      | map pid start length writable named offset =>
          exact answered rfl (balancing_map balances sound pid start length writable named offset
            fun vacant => ((agrees pid start).blank vacant).1)
      | unmap pid base => exact answered rfl (balancing_unmap balances sound pid base)
      | handlePageFault | readUser | writeUser => cases accesses
      | stackPointer pid | pageType pid va | isResident pid va =>
          exact looked balances (still_bind (still_requireSpace pid) fun _ => still_pure _)
      | stats =>
          exact looked balances (still_get fun _ =>
            still_bind (still_subtractWords _ _) fun _ => still_pure _)
      | config => exact looked balances (still_get fun _ => still_pure _)

end Pager

section Laws

variable {config : Config} {kind : PolicyKind} {device : Device} {files : FileTable}
  {outside : FileId → Nat} {pager : Pager}

namespace HandleHistory

theorem history (history : HandleHistory config kind device files outside pager) :
    ∃ events, History config kind device files events pager := by
  induction history with
  | start => exact ⟨[], .start⟩
  | call _ run inductionHypothesis =>
      obtain ⟨events, earlier⟩ := inductionHypothesis
      obtain ⟨_, _, activity, tells⟩ := earlier.orderly.performs run
      exact ⟨_, @History.call config kind device files ⟨_, _, activity⟩ _ _ _ earlier run tells.noted⟩
  | outside _ _ same inductionHypothesis =>
      obtain ⟨events, earlier⟩ := inductionHypothesis
      exact ⟨events, .outside earlier same⟩

theorem balances (history : HandleHistory config kind device files outside pager) :
    pager.Balances outside := by
  induction history with
  | start =>
      have none : (Pager.create config kind device files).held = 0 := Pager.held_of_isEmpty rfl
      rw [Pager.Balances, none]
      rfl
  | call earlier run inductionHypothesis =>
      obtain ⟨events, earlier⟩ := earlier.history
      exact earlier.orderly.balances earlier.regionAgrees run inductionHypothesis
  | outside _ changed _ inductionHypothesis =>
      rename_i outside now pager otherFiles otherDevice _ _
      show otherFiles.handles = now + pager.held
      rw [Pager.Balances] at inductionHypothesis
      funext file
      have before := congrFun inductionHypothesis file
      have after := congrFun changed file
      simp only [Pi.add_apply] at before after ⊢
      omega

/-- Calls that take over no handle leave those outside as they are. -/
theorem play
    {events allEvents : List Event} {final : Pager} {calls : List Call}
    (history : HandleHistory config kind device files outside pager)
    (played : pager.play events calls = some (allEvents, final))
    (keeps : ∀ call ∈ calls, call.handsOver? = none) :
    HandleHistory config kind device files outside final := by
  induction calls generalizing events pager with
  | nil =>
      cases played
      exact history
  | cons call rest inductionHypothesis =>
      unfold Pager.play at played
      split at played
      · rename_i outcome after run
        have none := keeps call List.mem_cons_self
        have keptOutside :
            HandleHistory config kind device files (outside + inHand call.handsOver?) pager := by
          rw [none, inHand_none, add_zero]
          exact history
        exact inductionHypothesis (.call keptOutside run) played fun other member =>
          keeps other (List.mem_cons_of_mem call member)
      · cases played

end HandleHistory

/-- Between calls the open handles of a file are those outside, one for each region on it, one for each page
that is still to be loaded from it and one for each page that holds a part of it; so without processes they
are those outside. Whatever a call does and however it fails, everything else keeps the handle that it held,
and a page that stays gives its handle back exactly when it is loaded from a segment. -/
theorem handles_conserved (history : HandleHistory config kind device files outside pager) :
    (∀ file, pager.files.handles file =
      outside file + (pager.regionsOn file + pager.pendingOn file + pager.filePagesOn file)) ∧
    (pager.spaces.isEmpty = true → pager.files.handles = outside) ∧
    ∀ call outcome after, PagerM.attempt call.perform pager = .ok outcome after →
      (∀ holder, after.handleAt holder = pager.handleAt holder ∨
        (after.handleAt holder = none ∧ Pager.Releases call pager after holder) ∨
        ∃ file, pager.handleAt holder = none ∧ after.handleAt holder = some file ∧
          call.Opens outcome holder file) ∧
      ∀ owner page new, pager.pageOf owner = some page → after.pageOf owner = some new →
        (after.handleAt (.page owner) ≠ pager.handleAt (.page owner) ↔ new.LoadedFrom page) := by
  have balances := history.balances
  refine ⟨fun file => ?_, fun empty => ?_, fun call outcome after run => ?_⟩
  · rw [← pager.held_eq, balances]
    rfl
  · rw [balances, Pager.held_of_isEmpty empty, add_zero]
  · obtain ⟨events, history⟩ := history.history
    refine ⟨history.orderly.handleAt_call history.regionAgrees run, ?_⟩
    intro owner page new present presentThen
    constructor
    · intro differs
      rcases history.orderly.releases_page history.regionAgrees run present with same | ⟨_, releases⟩
      · exact absurd same differs
      · cases releases with
        | ended _ gone => cases (Pager.pages_of_absent gone owner.va).symm.trans presentThen
        | withdrawn _ _ _ gone => cases gone.symm.trans presentThen
        | loaded _ presentOld presentNew loaded =>
            cases presentOld.symm.trans present
            cases presentNew.symm.trans presentThen
            exact loaded
    · rintro ⟨⟨range, pending⟩, slot, anonymous⟩
      rw [Pager.handleAt_page present, Pager.handleAt_page presentThen, pending, anonymous]
      exact nofun

/-- A process loads a segment of one page and maps the file twice, but reads only from the first mapping. -/
def loadAndMap : List Call :=
  [.createProcess 1, .loadSegment 1 0 ⟨4096, 0, 4, 4092, true⟩, .writeUser 1 4096 #[7],
    .map 1 8192 4 true 0 0, .readUser 1 8192 1, .map 1 12288 4 false 0 0]

/-- A file of four bytes of which eight more handles can be opened. -/
def scarceFile : FileTable :=
  ⟨#[{ BackingFile.create .memory #[1, 2, 3, 4] with reopens := .budget 8 }]⟩

/-- The process cannot be copied, since the file cannot be opened for the last page. What was opened for the
copy is closed, and four handles are held besides the one outside. -/
theorem handles_conserved_of_refused_copy :
    ∃ pager, pager.space? 2 = none ∧ pager.files.handles 0 = 5 ∧
      HandleHistory { frameCount := 2 } .fifo (Device.blank .memory 32) scarceFile scarceFile.handles
        pager := by
  have ended : (((Pager.create { frameCount := 2 } .fifo (Device.blank .memory 32) scarceFile).play []
      (loadAndMap ++ [.fork 1 2])).any fun result =>
        (result.2.space? 2).isNone && result.2.regionsOn 0 == 2 && result.2.pendingOn 0 == 1 &&
          result.2.filePagesOn 0 == 1) = true := by
    decide +kernel
  obtain ⟨⟨events, pager⟩, played, counts⟩ := (Option.any_eq_true ..).mp ended
  simp only [Bool.and_eq_true, Option.isNone_iff_eq_none, beq_iff_eq] at counts
  obtain ⟨⟨⟨refused, regions⟩, pending⟩, filePages⟩ := counts
  have history := HandleHistory.start.play played (by decide)
  refine ⟨pager, refused, ?_, history⟩
  rw [(handles_conserved history).1 0, regions, pending, filePages]
  rfl

end Laws

end DemandPaging
