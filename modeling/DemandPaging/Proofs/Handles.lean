import DemandPaging.Proofs.Files
import DemandPaging.Proofs.Proceeds
import Mathlib.Data.Set.Card

/-!
# Handles of files

Pages and regions hold one handle of a file each. A process that is served, or that ends, closes as many
handles of every file as it gives up, and takes none from another process.
-/

namespace DemandPaging

namespace FileTable

variable {table : FileTable} {file : FileId} {old : BackingFile}

/-- The number of open handles of a file; none if there is no such file. -/
def handles (table : FileTable) (file : FileId) : Nat :=
  match table.get? file with
  | some backing => backing.handles
  | none => 0

theorem handles_of_get? (found : table.get? file = some old) : table.handles file = old.handles := by
  rw [handles, found]

theorem handles_put (found : table.get? file = some old) (backing : BackingFile) :
    (table.put file backing).handles = Function.update table.handles file backing.handles := by
  funext other
  have inside : file < table.files.size := (Array.getElem?_eq_some_iff.mp found).1
  simp only [handles, get?, put, Array.getElem?_setIfInBounds]
  by_cases same : other = file
  · subst same
    rw [Function.update_self, if_pos rfl, if_pos inside]
  · rw [Function.update_of_ne same, if_neg (Ne.symm same)]
    rfl

theorem handles_put_of_same
    {backing : BackingFile} (found : table.get? file = some old)
    (same : backing.handles = old.handles) : (table.put file backing).handles = table.handles := by
  rw [handles_put found, same, ← handles_of_get? found, Function.update_eq_self]

/-- Closing a handle is counting down, also where there is nothing to close. -/
theorem handles_close (table : FileTable) (file : FileId) :
    (table.close file).handles = Function.update table.handles file (table.handles file - 1) := by
  unfold close
  cases found : table.get? file with
  | some old =>
      rw [handles_put found, handles_of_get? found]
      rfl
  | none =>
      have none : table.handles file = 0 := by rw [handles, found]
      rw [none, Nat.zero_sub, ← none, Function.update_eq_self]

@[simp]
theorem handles_readAt (table : FileTable) (file : FileId) (offset length : Nat) :
    (table.readAt file offset length).1.handles = table.handles := by
  unfold readAt
  cases found : table.get? file with
  | none => rfl
  | some old =>
      apply handles_put_of_same found
      unfold BackingFile.readAt
      cases old.reads.isOpen <;> rfl

@[simp]
theorem handles_writeAt (table : FileTable) (file : FileId) (offset : Nat) (bytes : Array UInt8) :
    (table.writeAt file offset bytes).1.handles = table.handles := by
  unfold writeAt
  cases found : table.get? file with
  | none => rfl
  | some old =>
      apply handles_put_of_same found
      unfold BackingFile.writeAt
      cases old.writes.isOpen <;> rfl

end FileTable

/-! ## Pages -/

namespace PageKind

variable {kind after : PageKind} {swap : SwapSpace} {files : FileTable} {image : Image}

/-- A page that was touched holds a handle if and only if it maps a file. -/
theorem handle?_of_initialized (initialized : ∀ load, kind ≠ .pending load) :
    kind.handle? = kind.mapped?.map FileRange.file := by
  rcases kind with load | held | range
  · exact absurd rfl (initialized load)
  · rfl
  · rfl

/-- A fetch that fails closes nothing. -/
theorem handles_fetch_of_incomplete (incomplete : (kind.fetch swap files image).kind = none) :
    (kind.fetch swap files image).files.handles = files.handles := by
  have unchanged {range : FileRange} {read : FileTable × Option (Array UInt8)}
      (done : files.readAt range.file range.offset range.length = read) :
      read.1.handles = files.handles := by
    rw [← done]
    exact files.handles_readAt ..
  unfold fetch at incomplete ⊢
  split at incomplete
  · cases incomplete
  · cases incomplete
  · split at incomplete
    · exact unchanged ‹_›
    · split at incomplete
      · cases incomplete
      · rename_i short
        rw [if_neg short]
        exact unchanged ‹_›
  · split at incomplete
    · exact unchanged ‹_›
    · cases incomplete
  · split at incomplete
    · exact unchanged ‹_›
    · cases incomplete
  · split <;> rfl

/-- A fetch that succeeds closes the handle of a page that holds none from then on. -/
theorem handles_fetch_of_complete (complete : (kind.fetch swap files image).kind = some after) :
    (kind.handle? = kind.mapped?.map FileRange.file ∧
      (kind.fetch swap files image).files.handles = files.handles) ∨
    ∃ file, kind.handle? = some file ∧ kind.mapped? = none ∧
      (kind.fetch swap files image).files.handles = (files.close file).handles := by
  have unchanged {range : FileRange} {read : FileTable × Option (Array UInt8)}
      (done : files.readAt range.file range.offset range.length = read) :
      read.1.handles = files.handles := by
    rw [← done]
    exact files.handles_readAt ..
  unfold fetch at complete ⊢
  split at complete
  · exact Or.inl ⟨rfl, rfl⟩
  · exact Or.inl ⟨rfl, rfl⟩
  · split at complete
    · cases complete
    · split at complete
      · rename_i range _ _ _ read whole
        refine Or.inr ⟨range.file, rfl, rfl, ?_⟩
        rw [if_pos whole, FileTable.handles_close, FileTable.handles_close, unchanged read]
      · cases complete
  · split at complete
    · cases complete
    · exact Or.inl ⟨rfl, unchanged ‹_›⟩
  · split at complete
    · cases complete
    · exact Or.inl ⟨rfl, unchanged ‹_›⟩
  · refine Or.inl ⟨rfl, ?_⟩
    split <;> rfl

end PageKind

/-! ## Holders of handles -/

/-- What may hold a handle of a file. -/
inductive Holder where
  | page (owner : Owner)
  /-- The region of a process that starts at an address. -/
  | region (pid : Pid) (base : Nat)
  deriving DecidableEq

def Holder.pid : Holder → Pid
  | page owner => owner.pid
  | region pid _ => pid

namespace Pager

/-- The file that something holds a handle of. -/
def handleAt (pager : Pager) : Holder → Option FileId
  | .page owner => (pager.ledger.pages owner).bind fun page => page.kind.handle?
  | .region pid base => (pager.region? pid base).map Region.file

/-- The pages and regions of a process that hold a handle of a file. -/
def holders (pager : Pager) (pid : Pid) (file : FileId) : Set Holder :=
  {holder | holder.pid = pid ∧ pager.handleAt holder = some file}

/-- The number of handles of a file that the pages and regions of a process hold. -/
noncomputable def handlesOf (pager : Pager) (pid : Pid) (file : FileId) : Nat :=
  (pager.holders pid file).ncard

variable {before middle after : Pager} {allowed : Deed → Prop} {deed : Deed} {pid : Pid}
  {owner : Owner} {holder : Holder} {file : FileId}

theorem handleAt_page {page : Page} (present : before.ledger.pages owner = some page) :
    before.handleAt (.page owner) = page.kind.handle? := by
  rw [handleAt, present, Option.bind_some]

theorem handleAt_of_vacant (vacant : before.ledger.pages owner = none) :
    before.handleAt (.page owner) = none := by
  rw [handleAt, vacant, Option.bind_none]

/-- What something holds is a matter of its process. -/
theorem handleAt_congr (same : after.space? holder.pid = before.space? holder.pid) :
    after.handleAt holder = before.handleAt holder := by
  cases holder with
  | page owner =>
      have pages : after.ledger.pages owner = before.ledger.pages owner :=
        congrArg (fun space? => space?.bind fun (space : AddressSpace) => space.pages[owner.va]?) same
      rw [handleAt, handleAt, pages]
  | region pid base =>
      have layout : after.layout? pid = before.layout? pid :=
        congrArg (Option.map AddressSpace.layout) same
      rw [handleAt, handleAt, region?, region?, layout]

theorem handleAt_of_absent (absent : before.space? holder.pid = none) :
    before.handleAt holder = none := by
  cases holder with
  | page owner => exact handleAt_of_vacant (pages_of_absent absent owner.va)
  | region pid base => exact congrArg (Option.map Region.file) (region?_of_absent absent base)

theorem handlesOf_of_absent (absent : before.space? pid = none) (file : FileId) :
    before.handlesOf pid file = 0 := by
  have none : before.holders pid file = ∅ := by
    apply Set.eq_empty_of_forall_notMem
    rintro holder ⟨rfl, held⟩
    cases (handleAt_of_absent absent).symm.trans held
  rw [handlesOf, none, Set.ncard_empty]

/-- What a process holds is one of its pages or one of its regions. -/
theorem finite_holders (pager : Pager) (pid : Pid) (file : FileId) :
    (pager.holders pid file).Finite := by
  cases found : pager.space? pid with
  | none =>
      apply Set.finite_empty.subset
      rintro (owner | ⟨other, base⟩) ⟨rfl, held⟩
      · obtain ⟨page, present, _⟩ := Option.bind_eq_some_iff.mp held
        obtain ⟨space, foundSpace⟩ := space?_of_page present
        cases foundSpace.symm.trans found
      · obtain ⟨region, recorded, _⟩ := Option.map_eq_some_iff.mp held
        cases recorded.symm.trans (region?_of_absent found base)
  | some space =>
      apply (List.finite_toSet (space.pages.keys.map (fun va => Holder.page ⟨pid, va⟩) ++
        space.regions.keys.map (Holder.region pid))).subset
      rintro (owner | ⟨other, base⟩) ⟨rfl, held⟩
      · obtain ⟨page, present, _⟩ := Option.bind_eq_some_iff.mp held
        have listed : owner.va ∈ space.pages.keys := by
          rw [Std.ExtTreeMap.mem_keys, Std.ExtTreeMap.mem_iff_isSome_getElem?]
          exact Option.isSome_of_eq_some ((pages_of_space found owner.va).trans present)
        exact List.mem_append_left _ (List.mem_map_of_mem listed)
      · obtain ⟨region, recorded, _⟩ := Option.map_eq_some_iff.mp held
        have listed : base ∈ space.regions.keys := by
          rw [Std.ExtTreeMap.mem_keys, Std.ExtTreeMap.mem_iff_isSome_getElem?]
          exact Option.isSome_of_eq_some ((region?_of_space found base).symm.trans recorded)
        exact List.mem_append_right _ (List.mem_map_of_mem listed)

/-! ## Giving up handles -/

/-- A process gave up handles that were closed, and no other process gained or lost one. -/
structure GivesUp (pid : Pid) (before after : Pager) : Prop where
  closed : ∀ file, ∃ count, after.files.handles file = before.files.handles file - count ∧
    after.handlesOf pid file + count = before.handlesOf pid file
  others : ∀ holder, holder.pid ≠ pid → after.handleAt holder = before.handleAt holder

namespace GivesUp

theorem of_same (same : after.handleAt = before.handleAt)
    (unclosed : after.files.handles = before.files.handles) : GivesUp pid before after where
  closed file := ⟨0, by rw [unclosed, Nat.sub_zero], by rw [handlesOf, holders, same]; rfl⟩
  others holder _ := by rw [same]

theorem refl (pid : Pid) (pager : Pager) : GivesUp pid pager pager :=
  .of_same rfl rfl

theorem trans (first : GivesUp pid before middle) (second : GivesUp pid middle after) :
    GivesUp pid before after where
  closed file := by
    obtain ⟨early, closedEarly, heldEarly⟩ := first.closed file
    obtain ⟨late, closedLate, heldLate⟩ := second.closed file
    exact ⟨early + late, by omega, by omega⟩
  others holder other := (second.others holder other).trans (first.others holder other)

/-- One holder gives up its handle, which is closed. -/
theorem of_closed (held : before.handleAt holder = some file)
    (given : after.handleAt = Function.update before.handleAt holder none)
    (closed : after.files.handles = (before.files.close file).handles) :
    GivesUp holder.pid before after where
  closed other := by
    rw [closed, FileTable.handles_close]
    -- What is removed from the holders of its file is no holder of another file.
    by_cases same : other = file
    · subst same
      have removed : after.holders holder.pid other = before.holders holder.pid other \ {holder} := by
        ext there
        by_cases here : there = holder <;> simp [holders, given, here]
      refine ⟨1, by rw [Function.update_self], ?_⟩
      rw [handlesOf, handlesOf, removed]
      exact Set.ncard_sdiff_singleton_add_one ⟨rfl, held⟩ (before.finite_holders ..)
    · have kept : after.holders holder.pid other = before.holders holder.pid other := by
        ext there
        by_cases here : there = holder
        · subst here
          simp [holders, given, held, Ne.symm same]
        · simp [holders, given, here]
      exact ⟨0, by rw [Function.update_of_ne same, Nat.sub_zero], by rw [handlesOf, kept]; rfl⟩
  others there other := by
    rw [given, Function.update_of_ne fun same => other (congrArg Holder.pid same)]

end GivesUp

/-! ## What a turn does to handles -/

section Moves

variable {held saved : Pager} {page : Page} {frame : Nat}

/-- Regions hold what they held if the layouts stay, so it is enough to look at pages. -/
theorem handleAt_of_pages (layout : after.layout? = before.layout?)
    (pages : ∀ owner, after.handleAt (.page owner) = before.handleAt (.page owner)) :
    after.handleAt = before.handleAt := by
  funext holder
  cases holder with
  | page owner => exact pages owner
  | region pid base => rw [handleAt, handleAt, region?, region?, layout]

theorem handleAt_update (layout : after.layout? = before.layout?)
    (pages : ∀ other, other ≠ owner → after.handleAt (.page other) = before.handleAt (.page other)) :
    after.handleAt = Function.update before.handleAt (.page owner) (after.handleAt (.page owner)) := by
  funext holder
  by_cases here : holder = .page owner
  · rw [here, Function.update_self]
  · rw [Function.update_of_ne here]
    cases holder with
    | page other => exact pages other fun same => here (congrArg Holder.page same)
    | region pid base => rw [handleAt, handleAt, region?, region?, layout]

/-- A page that was touched holds the same handle wherever it moves. -/
theorem handle?_of_continues {new old : Page} (continues : new.Continues old)
    (initialized : ∀ load, new.kind ≠ .pending load) :
    new.kind.handle? = old.kind.mapped?.map FileRange.file := by
  rw [PageKind.handle?_of_initialized initialized, continues.mapped]

theorem handles_writeBack (range : FileRange) :
    (before.writeBack owner range frame).files.handles = before.files.handles := by
  rw [files_writeBack]
  split
  · exact before.files.handles_writeAt ..
  · rfl

theorem Saves.handles (saves : before.Saves owner page frame saved) :
    saved.files.handles = before.files.handles := by
  cases saves with
  | toSlot anonymous taken complete => rfl
  | toFile file => exact handles_writeBack _

theorem Acquires.handles (acquires : before.Acquires owner frame held) :
    held.files.handles = before.files.handles := by
  cases acquires with
  | free taken => rfl
  | evicted full chosen present resident saves =>
      exact saves.handles.trans (congrArg FileTable.handles before.files_selected)

/-- Handing out a frame moves no handle: a page that gives up its frame keeps its own. -/
theorem Acquires.givesUp (acquires : before.Acquires owner frame held)
    (sound : before.ledger.Sound none) : GivesUp pid before held := by
  apply GivesUp.of_same
  · apply handleAt_of_pages acquires.layout?
    intro other
    rcases (acquires.moves sound).pages other with
      same | ⟨old, new, present, resident, _, presentThen, _, continues⟩
    · rw [handleAt, handleAt, same]
    · have initialized := sound.not_pending present resident
      have still : ∀ load, new.kind ≠ .pending load := fun load pending =>
        initialized load (continues.pending load pending)
      rw [handleAt_page present, handleAt_page presentThen, handle?_of_continues continues still,
        PageKind.handle?_of_initialized initialized]
  · exact acquires.handles

/-- A page that gets its first content from a segment gives up its handle; every other page keeps it. -/
theorem Arrives.givesUp (arrives : held.Arrives owner frame after)
    (sound : held.ledger.Sound (some (owner, frame))) : GivesUp owner.pid held after := by
  have moves := arrives
  cases arrives with
  | intro found present absent installed fetch complete =>
      rename_i space page table fetched kind
      subst fetch
      obtain ⟨_, _, arrived, _⟩ := moves.moves sound present
      obtain ⟨new, pages, continues, _, initialized⟩ := arrived.pages
      generalize afterIs : Pager.modifyFrames _ _ = after at *
      have layout : after.layout? = held.layout? := by
        rw [← afterIs]
        exact (layout?_modifyPage ..).trans ((layout?_putFetched ..).trans (layout?_attached _))
      have files : after.files =
          (page.kind.fetch held.swap held.files (held.frames.image frame)).files := by
        rw [← afterIs]
        exact files_putFetched ..
      have presentThen : after.ledger.pages owner = some new := by
        rw [pages, Function.update_self]
      have here : after.handleAt (.page owner) = page.kind.mapped?.map FileRange.file := by
        rw [handleAt_page presentThen, handle?_of_continues continues initialized]
      have elsewhere (other : Owner) (apart : other ≠ owner) :
          after.handleAt (.page other) = held.handleAt (.page other) := by
        rw [handleAt, handleAt, pages, Function.update_of_ne apart]
      rcases PageKind.handles_fetch_of_complete complete with ⟨kept, same⟩ |
        ⟨file, holds, unmapped, closed⟩
      · apply GivesUp.of_same
        · apply handleAt_of_pages layout
          intro other
          by_cases same : other = owner
          · rw [same, here, handleAt_page present, kept]
          · exact elsewhere other same
        · rw [files, same]
      · have given := handleAt_update layout elsewhere
        rw [here, unmapped, Option.map_none] at given
        exact .of_closed ((handleAt_page present).trans holds) given (by rw [files, closed])

/-- A page that could not be read keeps its handle. -/
theorem Returns.givesUp (returns : held.Returns owner frame after)
    (sound : held.ledger.Sound (some (owner, frame))) : GivesUp pid held after := by
  have moves := returns
  cases returns with
  | intro found present absent installed fetch incomplete =>
      subst fetch
      have pages := (moves.moves sound present).1.pages
      apply GivesUp.of_same
      · apply handleAt_of_pages
        · exact layout?_detached.trans ((layout?_putFetched ..).trans (layout?_attached _))
        · intro other
          rw [handleAt, handleAt, pages]
      · refine Eq.trans (congrArg FileTable.handles (files_putFetched ..)) ?_
        exact PageKind.handles_fetch_of_incomplete incomplete

end Moves

/-- The pager after a page gave back its frame or slot because it is discarded. -/
def emptied (pager : Pager) (owner : Owner) (page : Page) : Pager :=
  (((pager.note (.discarded owner page ((pager.table owner.pid).isDirty owner.va))).discardSaved owner
    page).discardSlot page).discardFrame owner page

theorem handles_emptied (pager : Pager) (owner : Owner) (page : Page) :
    (pager.emptied owner page).files.handles = pager.files.handles := by
  have slot (other : Pager) : (other.discardSlot page).files = other.files := by
    unfold discardSlot
    split <;> rfl
  have frame (other : Pager) : (other.discardFrame owner page).files = other.files := by
    unfold discardFrame
    split <;> rfl
  rw [emptied, frame, slot, discardSaved]
  split
  · split
    · exact handles_writeBack _
    · rfl
  · rfl

/-- A page that is discarded gives up its handle. -/
theorem givesUp_discarded {page : Page} (sound : before.ledger.Sound none)
    (present : before.ledger.pages owner = some page) :
    GivesUp owner.pid before (before.discarded owner page) := by
  have pages := (ledger_discarded sound present).pages
  have layout := before.layout?_discarded owner page
  have gone : (before.discarded owner page).handleAt (.page owner) = none := by
    rw [handleAt, pages, Function.update_self, Option.bind_none]
  have given := @handleAt_update before _ owner layout fun other apart => by
    rw [handleAt, handleAt, pages, Function.update_of_ne apart]
  rw [gone] at given
  have files : (before.discarded owner page).files = ((before.emptied owner page).closeHandle page).files :=
    rfl
  have unclosed := before.handles_emptied owner page
  cases holds : page.kind.handle? with
  | some file =>
      have closed : (before.discarded owner page).files = (before.emptied owner page).files.close file := by
        rw [files, closeHandle, holds]
        rfl
      apply GivesUp.of_closed ((handleAt_page present).trans holds) given
      rw [closed, FileTable.handles_close, FileTable.handles_close, unclosed]
  | none =>
      have closed : (before.discarded owner page).files = (before.emptied owner page).files := by
        rw [files, closeHandle, holds]
      apply GivesUp.of_same
      · rw [given, ← (handleAt_page present).trans holds, Function.update_eq_self]
      · rw [closed, unclosed]

/-- A turn that serves a process, or that discards one of its pages, closes the handles that the process
gives up. -/
theorem Turn.givesUp (turn : Turn deed before after) (sound : before.ledger.Sound none)
    (gives : deed.Amends pid ∨ ∃ owner page, deed = .discarded owner page ∧ owner.pid = pid) :
    GivesUp pid before after := by
  rcases gives with amends | ⟨owner, page, rfl, rfl⟩
  · cases turn with
    | counted _ change => exact .of_same rfl rfl
    | touched translated allowed =>
        refine .of_same (handleAt_of_pages (layout?_modifyTable _) fun owner => ?_) rfl
        rw [handleAt, handleAt, ledger_touched]
    | stored present resident dirty bytes => exact .of_same rfl rfl
    | reserved found vacant placed pending absent =>
        rename_i other page space load
        obtain ⟨_, zero, _⟩ := amends
        have shown := before.ledger_insertPage other found page
        refine .of_same (handleAt_of_pages (layout?_modifySpace fun _ => rfl) fun owner => ?_) rfl
        by_cases here : owner = ⟨other, page.va⟩
        · have presentThen : (before.modifySpace other fun space => { space with
              pages := space.pages.insert page.va page }).ledger.pages owner = some page := by
            rw [shown, here]
            exact Function.update_self ..
          rw [handleAt_page presentThen, zero, handleAt_of_vacant (here ▸ vacant)]
          rfl
        · rw [handleAt, handleAt, shown]
          exact congrArg (Option.bind · _) (Function.update_of_ne here ..)
    | claimed present absent acquires arrives =>
        obtain ⟨flying, _⟩ := (acquires.moves sound).sound sound present absent
        have arrived := arrives.givesUp flying
        rw [show _ = pid from amends] at arrived
        exact (acquires.givesUp sound).trans arrived
    | missed present absent acquires returns =>
        obtain ⟨flying, _⟩ := (acquires.moves sound).sound sound present absent
        exact (acquires.givesUp sound).trans (returns.givesUp flying)
    | _ => exact absurd amends id
  · cases turn with
    | discarded present => exact givesUp_discarded sound present

theorem Runs.givesUp (runs : Runs allowed before after) (sound : before.ledger.Sound none)
    (amends : ∀ deed, allowed deed → deed.Amends pid) : GivesUp pid before after := by
  induction runs with
  | refl => exact .refl pid before
  | tail runs permitted turn inductionHypothesis =>
      exact inductionHypothesis.trans (turn.givesUp (runs.sound sound) (Or.inl (amends _ permitted)))

/-! ## The end of a process -/

theorem space?_eraseSpace (pager : Pager) (pid : Pid) : (pager.eraseSpace pid).space? pid = none := by
  simp [space?, eraseSpace]

theorem spaces_closeRegions (pager : Pager) (regions : List Region) :
    (pager.closeRegions regions).spaces = pager.spaces := by
  induction regions generalizing pager with
  | nil => rfl
  | cons region rest inductionHypothesis => exact inductionHypothesis (pager.closeFile region.file)

theorem handles_closeRegions (pager : Pager) (regions : List Region) (file : FileId) :
    (pager.closeRegions regions).files.handles file =
      pager.files.handles file - regions.countP fun region => region.file == file := by
  induction regions generalizing pager with
  | nil => rfl
  | cons region rest inductionHypothesis =>
      have once : (pager.closeFile region.file).files.handles =
          Function.update pager.files.handles region.file (pager.files.handles region.file - 1) :=
        pager.files.handles_close region.file
      have rest := inductionHypothesis (pager.closeFile region.file)
      rw [once] at rest
      rw [List.countP_cons]
      refine rest.trans ?_
      by_cases same : region.file = file
      · rw [if_pos (beq_iff_eq.mpr same), ← same, Function.update_self]
        omega
      · rw [if_neg (mt beq_iff_eq.mp same), Function.update_of_ne (Ne.symm same), Nat.add_zero]

/-- A process without pages holds as many handles as it has regions of the file. -/
theorem handlesOf_of_vacant
    {space : AddressSpace} (found : before.space? pid = some space)
    (vacant : ∀ va, before.ledger.pages ⟨pid, va⟩ = none) (file : FileId) :
    before.handlesOf pid file = space.regionList.countP fun region => region.file == file := by
  let recorded := (space.regions.toList.filter fun entry => entry.2.file == file).map
    fun entry => Holder.region pid entry.1
  have distinct : recorded.Nodup := by
    rw [List.Nodup, List.pairwise_map]
    apply (space.regions.distinct_keys_toList.filter _).imp
    rintro ⟨base, _⟩ ⟨other, _⟩ apart same
    cases same
    exact apart Std.ReflCmp.compare_self
  have listed : before.holders pid file = recorded.toFinset := by
    ext holder
    simp only [List.coe_toFinset, Set.mem_ofPred_eq, recorded, List.mem_map, List.mem_filter,
      Std.ExtTreeMap.mem_toList_iff_getElem?_eq_some, Prod.exists, beq_iff_eq]
    constructor
    · rintro ⟨rfl, held⟩
      cases holder with
      | page owner =>
          cases (@handleAt_of_vacant before owner (vacant owner.va)).symm.trans held
      | region pid base =>
          obtain ⟨region, there, same⟩ := Option.map_eq_some_iff.mp held
          exact ⟨base, region, ⟨(region?_of_space found base).symm.trans there, same⟩, rfl⟩
    · rintro ⟨base, region, ⟨there, same⟩, rfl⟩
      refine ⟨rfl, ?_⟩
      rw [handleAt, region?_of_space found, there, Option.map_some, same]
  rw [handlesOf, listed, Set.ncard_coe_finset, List.toFinset_card_of_nodup distinct, List.length_map,
    ← List.countP_eq_length_filter, AddressSpace.regionList, List.countP_map]
  rfl

/-- A process whose pages are gone gives up the handles of its regions and holds none afterwards. -/
theorem givesUp_removed
    {space : AddressSpace} (laid : before.layout? pid = some space.layout)
    (vacant : ∀ va, before.ledger.pages ⟨pid, va⟩ = none) :
    GivesUp pid before ((before.closeRegions space.regionList).eraseSpace pid) where
  closed file := by
    obtain ⟨now, found, same⟩ := Option.map_eq_some_iff.mp laid
    have regions : now.regionList = space.regionList :=
      congrArg (fun layout => layout.regions.toList.map Prod.snd) same
    refine ⟨before.handlesOf pid file, ?_, ?_⟩
    · rw [handlesOf_of_vacant found vacant, regions]
      exact before.handles_closeRegions space.regionList file
    · rw [handlesOf_of_absent (space?_eraseSpace ..), Nat.zero_add]
  others holder other := by
    apply handleAt_congr
    rw [space?, eraseSpace, spaces_closeRegions, Std.ExtTreeMap.getElem?_erase, if_neg, space?]
    rw [Std.LawfulEqCmp.compare_eq_iff_eq]
    exact Ne.symm other

end Pager

end DemandPaging
