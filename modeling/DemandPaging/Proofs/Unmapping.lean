import DemandPaging.Proofs.MappingRequests
import DemandPaging.Proofs.Removals

/-!
# What removing a mapping leaves

Removing a mapping takes its region and its pages away and nothing else, and what the pages owed the file is
written to it. Where no region starts nothing happens, and a mapping that was just made is taken back entirely.
-/

namespace DemandPaging

/-! ## The pages of a region -/

/-- The page of a region with an index. -/
def Region.owner (region : Region) (pid : Pid) (index : Nat) : Owner :=
  ⟨pid, region.base + index * pageSize⟩

/-- The pages of a region, from the lowest on. -/
def Region.owners (region : Region) (pid : Pid) : List Owner :=
  (List.range region.pageCount).map (region.owner pid)

theorem Region.owner_injective (region : Region) (pid : Pid) : Function.Injective (region.owner pid) := by
  intro first second same
  have va := congrArg Owner.va same
  simp only [Region.owner, pageSize] at va
  omega

/-- A page of a mapping has no slot. -/
theorem Page.MapsPart.without_slot {page : Page} {region : Region} {index : Nat}
    (part : page.MapsPart region index) : page.kind.slot? = none := by
  obtain ⟨range, mapped, _⟩ := part.mapped
  cases kind : page.kind with
  | anonymous slot =>
      rw [kind] at mapped
      cases mapped
  | _ => rfl

namespace Pager

open PagerM

variable {before middle after pager : Pager} {pid : Pid} {region : Region} {owner other : Owner} {page : Page}

/-- Whether the page of a process is the part of a region with an index. -/
def HasPart (pager : Pager) (pid : Pid) (region : Region) (index : Nat) : Prop :=
  ∃ page, pager.pageOf (region.owner pid index) = some page ∧ page.MapsPart region index

/-- What is unsaved of a part of a region belongs in its part of the file. -/
theorem HasPart.range {index : Nat} {range : FileRange} {bytes : Array UInt8}
    (part : pager.HasPart pid region index) (owes : pager.unsaved (region.owner pid index) = some (range, bytes)) :
    range.offset = region.offset + index * pageSize ∧ range.length ≤ pageSize := by
  obtain ⟨page, present, mapsPart⟩ := part
  obtain ⟨other, frame, loaded, _⟩ := unsaved_eq_some_iff.mp owes
  cases loaded.present.symm.trans present
  obtain ⟨found, mapped, _, offset, length⟩ := mapsPart.mapped
  rw [loaded.file] at mapped
  cases mapped
  exact ⟨offset, length⟩

/-- Different parts of a region have nothing in the file in common. -/
theorem HasPart.apart {index otherIndex : Nat} {range otherRange : FileRange} {bytes otherBytes : Array UInt8}
    (part : pager.HasPart pid region index) (otherPart : pager.HasPart pid region otherIndex)
    (owes : pager.unsaved (region.owner pid index) = some (range, bytes))
    (otherOwes : pager.unsaved (region.owner pid otherIndex) = some (otherRange, otherBytes))
    (different : index ≠ otherIndex) (file : FileId) (position : Nat) (covers : range.Covers file position) :
    ¬ otherRange.Covers file position := by
  intro otherCovers
  obtain ⟨start, length⟩ := part.range owes
  obtain ⟨otherStart, otherLength⟩ := otherPart.range otherOwes
  obtain ⟨_, above, below⟩ := covers
  obtain ⟨_, otherAbove, otherBelow⟩ := otherCovers
  simp only [pageSize] at start length otherStart otherLength
  omega

/-- Parts of a region are withdrawn one by one. -/
theorem withdraws_parts
    {indices : List Nat} (sound : before.ledger.Sound none) (tidy : before.Tidy)
    (aligned : pageAligned region.base = true) (distinct : indices.Nodup)
    (parts : ∀ index ∈ indices, before.HasPart pid region index) :
    Withdraws before (indices.foldl (withdrawn pid region) before) (indices.map (region.owner pid)) ∧
      ∃ later, Flushes before (indices.foldl (withdrawn pid region) before) (indices.map (region.owner pid))
        later := by
  induction indices generalizing before with
  | nil => exact ⟨.refl before, [], .refl before⟩
  | cons index rest inductionHypothesis =>
      have part := parts index List.mem_cons_self
      obtain ⟨page, present, mapsPart⟩ := part
      have place : (⟨pid, page.va⟩ : Owner) = region.owner pid index :=
        congrArg (Owner.mk pid) (sound.placed _ page present).va
      have turn := Turn.discarded present
      have first := withdraws_discarded sound present mapsPart.without_slot
      obtain ⟨earlier, flushes⟩ := flushes_discarded sound tidy present
      have fresh : index ∉ rest := (List.nodup_cons.mp distinct).1
      have elsewhere (otherIndex : Nat) (member : otherIndex ∈ rest) :
          region.owner pid otherIndex ∉ [region.owner pid index] := by
        intro same
        exact fresh (region.owner_injective pid (List.mem_singleton.mp same) ▸ member)
      have withdraws : withdrawn pid region before index = before.discarded (region.owner pid index) page := by
        rw [withdrawn_of_belongs aligned present mapsPart.belongs, place]
      rw [List.foldl_cons, List.map_cons, withdraws]
      have remaining := @inductionHypothesis (before.discarded (region.owner pid index) page) (turn.sound sound)
        (turn.tidy sound tidy) (List.nodup_cons.mp distinct).2 fun otherIndex member => by
          obtain ⟨other, there, otherPart⟩ := parts otherIndex (List.mem_cons_of_mem index member)
          refine ⟨other, ?_, otherPart⟩
          rw [first.pages, if_neg (elsewhere otherIndex member)]
          exact there
      obtain ⟨others, later, flushesLater⟩ := remaining
      refine ⟨first.cons others, later ++ earlier, flushes.cons flushesLater ?same ?fresh ?apart⟩
      case same =>
        intro other member
        obtain ⟨otherIndex, inRest, rfl⟩ := List.mem_map.mp member
        have apart := elsewhere otherIndex inRest
        refine unsaved_congr ?_ ?_ first.images
        · rw [first.pages, if_neg apart]
        · rw [dirtyOf_eq, dirtyOf_eq, first.entries, if_neg apart]
      case fresh =>
        intro member
        obtain ⟨otherIndex, inRest, same⟩ := List.mem_map.mp member
        exact elsewhere otherIndex inRest (List.mem_singleton.mpr same)
      case apart =>
        intro other member range bytes otherRange otherBytes owes otherOwes
        obtain ⟨otherIndex, inRest, rfl⟩ := List.mem_map.mp member
        have otherPart := parts otherIndex (List.mem_cons_of_mem index inRest)
        exact (parts index List.mem_cons_self).apart otherPart owes otherOwes fun same => fresh (same ▸ inRest)

/-! ## The region and its pages -/

/-- A region is gone from a process with its pages, their frames and their entries in the page table, and what
was unsaved was written. -/
structure RemovesRegion (before after : Pager) (pid : Pid) (region : Region) (later : List Activity) : Prop
    extends Withdraws before after (region.owners pid), Flushes before after (region.owners pid) later where
  layouts : ∀ other, after.layout? other =
    (before.layout? other).map fun layout => if other = pid then layout.forgetting region.base else layout

theorem layout?_withdrawn (pid : Pid) (region : Region) (pager : Pager) (index : Nat) :
    (withdrawn pid region pager index).layout? = pager.layout? := by
  unfold withdrawn
  split
  · split
    · exact pager.layout?_discarded ..
    · rfl
  · rfl

theorem layout?_foldl_withdrawn (pid : Pid) (region : Region) (pager : Pager) (indices : List Nat) :
    (indices.foldl (withdrawn pid region) pager).layout? = pager.layout? := by
  induction indices generalizing pager with
  | nil => rfl
  | cons index rest inductionHypothesis =>
      rw [List.foldl_cons, inductionHypothesis, layout?_withdrawn]

theorem removesRegion_unmapped
    (sound : before.ledger.Sound none) (tidy : before.Tidy) (agrees : before.RegionAgrees pid region.base)
    (recorded : before.region? pid region.base = some region) :
    ∃ later, before.RemovesRegion (before.unmapped pid region) pid region later := by
  have turn := turn_eraseRegion before pid region.base
  have pages : (before.eraseRegion pid region.base).pageOf = before.pageOf :=
    before.shown_modifySpace_of_same pid fun _ _ => rfl
  have entries : (before.eraseRegion pid region.base).entryOf = before.entryOf :=
    before.shown_modifySpace_of_same pid fun _ _ => rfl
  have unsaved : (before.eraseRegion pid region.base).unsaved = before.unsaved := by
    funext owner
    refine unsaved_congr (congrFun pages owner) ?_ rfl
    rw [dirtyOf_eq, dirtyOf_eq, entries]
  have parts (index : Nat) (member : index ∈ List.range region.pageCount) :
      (before.eraseRegion pid region.base).HasPart pid region index := by
    obtain ⟨page, present, part⟩ := agrees.covered region recorded index (List.mem_range.mp member)
    exact ⟨page, (congrFun pages _).trans present, part⟩
  obtain ⟨withdraws, later, flushes⟩ := withdraws_parts (turn.sound sound) (turn.tidy sound tidy)
    (agrees.placed region recorded).aligned List.nodup_range parts
  refine ⟨later, ⟨⟨withdraws.config, withdraws.swap, fun owner => ?pages, fun owner => ?entries, withdraws.images,
    withdraws.owners⟩, ⟨flushes.noted, ?tried, flushes.counters, fun file => ?size, ?saved, fun file index spared => ?kept⟩,
    fun other => ?layouts⟩⟩
  case pages =>
    rw [← pages]
    exact withdraws.pages owner
  case entries =>
    rw [← entries]
    exact withdraws.entries owner
  case tried =>
    rw [flushes.tried, unsaved]
    rfl
  case size =>
    refine Eq.trans ?_ (flushes.size file)
    rw [unmapped, closeFile, FileTable.content_close]
  case saved =>
    intro owner member range bytes owes noted index below inside
    rw [unmapped, closeFile, FileTable.content_close]
    exact flushes.saved owner member range bytes ((congrFun unsaved owner).trans owes) noted index below inside
  case kept =>
    rw [unmapped, closeFile, FileTable.content_close]
    exact flushes.kept file index spared
  case layouts =>
    rw [← layout?_eraseRegion]
    exact congrFun (layout?_foldl_withdrawn pid region (before.eraseRegion pid region.base) _) other

/-- The pages of a region are those that belong to it. -/
theorem RegionAgrees.mem_owners_iff
    (agrees : before.RegionAgrees pid region.base) (sound : before.ledger.Sound none)
    (recorded : before.region? pid region.base = some region) (present : before.pageOf owner = some page) :
    owner ∈ region.owners pid ↔ owner.pid = pid ∧ page.region = some region.base := by
  constructor
  · intro member
    obtain ⟨index, inside, rfl⟩ := List.mem_map.mp member
    obtain ⟨other, there, part⟩ := agrees.covered region recorded index (List.mem_range.mp inside)
    cases there.symm.trans present
    exact ⟨rfl, part.belongs⟩
  · rintro ⟨rfl, belongs⟩
    obtain ⟨found, again, above, below⟩ := agrees.within owner.va page present belongs
    cases recorded.symm.trans again
    have aligned := (sound.placed owner page present).aligned
    obtain ⟨index, inside, va⟩ := (agrees.placed region recorded).exists_index aligned above below
    refine List.mem_map.mpr ⟨index, List.mem_range.mpr inside, ?_⟩
    rw [Region.owner, ← va]

/-- The frames of the pages that went are free. -/
theorem Withdraws.mem_free_iff
    {gone : List Owner} (withdraws : Withdraws before after gone) (sound : before.ledger.Sound none)
    (afterSound : after.ledger.Sound none) (frame : Nat) :
    frame ∈ after.frames.free ↔
      frame ∈ before.frames.free ∨ ∃ owner ∈ gone, before.frames.owner? frame = some owner := by
  have count : after.frames.frameCount = before.frames.frameCount := by
    rw [show after.frames.frameCount = after.config.frameCount from afterSound.sized,
      show before.frames.frameCount = before.config.frameCount from sound.sized, withdraws.config]
  have free := afterSound.listed.mem_free frame
  have freeBefore := sound.listed.mem_free frame
  have owners := withdraws.owners frame
  refine free.trans (Iff.trans ?_ (or_congr_left freeBefore.symm))
  change frame < after.frames.frameCount ∧ after.frames.owner? frame = none ↔
    (frame < before.frames.frameCount ∧ before.frames.owner? frame = none) ∨ _
  rw [count]
  constructor
  · rintro ⟨inside, unowned⟩
    cases owned : before.frames.owner? frame with
    | none => exact Or.inl ⟨inside, rfl⟩
    | some owner =>
        refine Or.inr ⟨owner, ?_, rfl⟩
        by_contra stays
        rw [(owners owner).mpr ⟨owned, stays⟩] at unowned
        cases unowned
  · intro freed
    have unowned (before? : before.frames.owner? frame = none ∨ ∃ owner ∈ gone,
        before.frames.owner? frame = some owner) : after.frames.owner? frame = none := by
      rw [Option.eq_none_iff_forall_ne_some]
      intro other owned
      obtain ⟨there, stays⟩ := (owners other).mp owned
      rcases before? with none | ⟨owner, goes, same⟩
      · cases none.symm.trans there
      · cases same.symm.trans there
        exact stays goes
    rcases freed with ⟨inside, none⟩ | ⟨owner, goes, owned⟩
    · exact ⟨inside, unowned (Or.inl none)⟩
    · exact ⟨sound.listed.inside frame owner owned, unowned (Or.inr ⟨owner, goes, owned⟩)⟩

/-! ## The call -/

theorem run_unmap_of_region
    (sound : before.ledger.Sound none) (recorded : before.region? pid region.base = some region) :
    attempt (Call.unmap pid region.base).perform before = .ok (.ok .done) (before.unmapped pid region) := by
  apply attempt_of_ok
  apply Meets.run
  rw [Call.perform, meets_bind, meets_unmap_of_region sound recorded]
  exact ⟨rfl, rfl⟩

theorem run_unmap_of_none
    {base : Nat} (alive : before.space? pid ≠ none) (unrecorded : before.region? pid base = none) :
    attempt (Call.unmap pid base).perform before = .ok (.ok .done) before := by
  apply attempt_of_ok
  apply Meets.run
  rw [Call.perform, meets_bind, meets_unmap_of_none alive unrecorded]
  exact ⟨rfl, rfl⟩

/-- A region that was removed is not recorded. -/
theorem RemovesRegion.unrecorded
    {later : List Activity} (removes : before.RemovesRegion after pid region later) :
    after.region? pid region.base = none := by
  rw [region?, removes.layouts]
  cases before.layout? pid with
  | none => rfl
  | some layout => simp [Layout.forgetting]

theorem RemovesRegion.alive
    {later : List Activity} (removes : before.RemovesRegion after pid region later)
    (alive : before.space? pid ≠ none) : after.space? pid ≠ none := by
  rw [Ne, ← layout?_eq_none_iff] at alive
  rw [Ne, ← layout?_eq_none_iff, removes.layouts, Option.map_eq_none_iff]
  exact alive

/-- A mapping that was made is taken back. -/
theorem Orderly.unmaps_mapped
    {config : Config} {events : List Event} {base length offset : Nat} {writable : Bool} {file : FileId}
    {answer : Answer} (orderly : before.Orderly config events) (agrees : before.RegionAgrees pid base)
    (run : attempt (Call.map pid base length writable file offset).perform before = .ok (.ok answer) after) :
    ∃ final, attempt (Call.unmap pid base).perform after = .ok (.ok .done) final ∧ before.Restores final := by
  have afterSound := (orderly.performs run).1.runs.sound orderly.sound
  have meets : (Call.map pid base length writable file offset).perform.Meets before
      { answers := fun _ after => before.Mappable pid base length file offset ∧
          before.BeginsMapping after pid ⟨base, roundedLength length, file, offset⟩ length
            (before.files.size file) writable (roundedLength length / pageSize)
        fails := fun _ _ => True
        halts := fun _ _ => True } := by
    rw [Call.perform, meets_bind]
    exact (begins_map orderly.sound agrees).mono (fun _ _ made => made.2) (fun _ _ _ => trivial)
      fun _ _ never => never.elim
  obtain ⟨mappable, begun⟩ := meets.of_ok (ok_of_attempt run)
  have accepts (index : Nat) (inside : index < roundedLength length / pageSize) :=
    mappable.accepts mappable.alive mappable.vacant inside
  have blank := (agrees.blank (by simpa using (accepts 0 mappable.pageCount_pos).vacant)).1
  refine ⟨_, run_unmap_of_region afterSound (begun.recorded mappable.alive), ?_⟩
  exact begun.restores_unmapped mappable.aligned (Nat.le_refl _) blank fun index inside =>
    (accepts index inside).vacant

end Pager

open Pager

section Laws

variable {config : Config} {kind : PolicyKind} {device : Device} {files : FileTable} {events : List Event}
  {before : Pager} {pid : Pid}

/-- Removing a mapping of a process in a state of a history always succeeds. Where no region starts nothing
happens. Else the region goes with the pages that belong to it and nothing else: their frames are free, and those
that were in frames and changed are written to the file once; to remove the mapping again changes nothing. A
mapping that was just made is taken back entirely. -/
theorem unmapping_undoes_mapping
    (history : History config kind device files events before) (alive : before.space? pid ≠ none) (base : Nat) :
    (before.region? pid base = none →
      PagerM.attempt (Call.unmap pid base).perform before = .ok (.ok .done) before) ∧
    (∀ region, before.region? pid base = some region → ∃ after later,
      PagerM.attempt (Call.unmap pid base).perform before = .ok (.ok .done) after ∧ region.base = base ∧
      before.RemovesRegion after pid region later ∧
      (∀ owner ∈ region.owners pid, before.pageOf owner ≠ none) ∧
      (∀ owner page, before.pageOf owner = some page →
        (owner ∈ region.owners pid ↔ owner.pid = pid ∧ page.region = some base)) ∧
      (∀ frame, frame ∈ after.frames.free ↔ frame ∈ before.frames.free ∨
        ∃ owner ∈ region.owners pid, before.frames.owner? frame = some owner) ∧
      PagerM.attempt (Call.unmap pid base).perform after = .ok (.ok .done) after) ∧
    ∀ length writable file offset answer after,
      PagerM.attempt (Call.map pid base length writable file offset).perform before = .ok (.ok answer) after →
        ∃ final, PagerM.attempt (Call.unmap pid base).perform after = .ok (.ok .done) final ∧
          before.Restores final := by
  have orderly := history.orderly
  have sound := orderly.sound
  have agrees := history.regionAgrees pid base
  refine ⟨run_unmap_of_none alive, fun region recorded => ?_, fun _ _ _ _ _ _ => orderly.unmaps_mapped agrees⟩
  obtain rfl := agrees.keyed region recorded
  have run := run_unmap_of_region sound recorded
  have afterSound := (orderly.performs run).1.runs.sound sound
  obtain ⟨later, removes⟩ := removesRegion_unmapped sound orderly.tidy agrees recorded
  refine ⟨_, later, run, rfl, removes, ?_, fun owner page => agrees.mem_owners_iff sound recorded,
    removes.toWithdraws.mem_free_iff sound afterSound,
    run_unmap_of_none (removes.alive alive) removes.unrecorded⟩
  intro owner member
  obtain ⟨index, inside, rfl⟩ := List.mem_map.mp member
  obtain ⟨page, present, _⟩ := agrees.covered region recorded index (List.mem_range.mp inside)
  exact fun absent => Option.some_ne_none page (present.symm.trans absent)

/-- A mapping of two bytes, of which one was changed, is removed, and again. -/
theorem unmapping_undoes_mapping_of_changed_page :
    ∃ before after later, ∃ region : Region, before.region? 1 4096 = some region ∧
      PagerM.attempt (Call.unmap 1 4096).perform before = .ok (.ok .done) after ∧
      (before.unsaved ⟨1, 4096⟩).isSome ∧ before.RemovesRegion after 1 region later ∧
      PagerM.attempt (Call.unmap 1 4096).perform after = .ok (.ok .done) after := by
  have ended : (((Pager.create { frameCount := 1 } .fifo (Device.blank .memory 0)
      ⟨#[.create .memory #[1, 2]]⟩).play [] mappedPage).any fun result =>
        (result.2.region? 1 4096).isSome && (result.2.unsaved ⟨1, 4096⟩).isSome) = true := by
    decide +kernel
  obtain ⟨⟨events, before⟩, played, known⟩ := (Option.any_eq_true ..).mp ended
  rw [Bool.and_eq_true, Option.isSome_iff_exists] at known
  obtain ⟨⟨region, recorded⟩, owes⟩ := known
  have alive : before.space? 1 ≠ none := by
    intro absent
    cases (region?_of_absent absent 4096).symm.trans recorded
  obtain ⟨_, removes, _⟩ := unmapping_undoes_mapping (History.start.play played) alive 4096
  obtain ⟨after, later, run, _, removed, _, _, _, again⟩ := removes region recorded
  exact ⟨before, after, later, region, recorded, run, owes, removed, again⟩

end Laws

end DemandPaging
