import DemandPaging.Proofs.Heeding

/-!
# Calls that heed dirty bits

Only a write marks a page as changed, and only if it gets as far as the page; a fork copies the mark of
the parent's page to the child. Every other call leaves no page marked that was not.
-/

namespace DemandPaging

namespace Pager

open PagerM

variable {marks : Owner → Prop} {before : Pager}

/-! ## Reserving, claiming and discarding -/

theorem heeds_closeHandle (pager : Pager) (page : Page) : Heeds marks pager (pager.closeHandle page) := by
  unfold closeHandle
  split
  · exact .of_same rfl rfl (pager.files.content_close _)
  · exact .refl pager

theorem heeds_closeHandles (pager : Pager) (pages : List Page) :
    Heeds marks pager (pages.foldl closeHandle pager) := by
  induction pages generalizing pager with
  | nil => exact .refl pager
  | cons page rest inductionHypothesis =>
      exact (pager.heeds_closeHandle page).trans (inductionHypothesis (pager.closeHandle page))

theorem heedful_insertPage (pid : Pid) (page : Page) : (insertPage pid page).IsHeedful marks := by
  refine heedful_bind (still_checkUserAddress _).heedful fun _ =>
    heedful_bind (still_requireSpace pid).heedful fun space => ?_
  split
  · exact (still_fail _).heedful
  · exact heedful_modify fun _ => heeds_modifySpace pid fun _ => rfl

theorem heedful_reservePage (pid : Pid) (page : Page) : (reservePage pid page).IsHeedful marks := by
  refine heedful_bind (still_insist _ _).heedful fun _ => heedful_bind (still_insist _ _).heedful fun _ =>
    heedful_bind (heedful_attempt (heedful_insertPage pid page)) fun outcome => ?_
  split
  · exact (still_pure ()).heedful
  · exact heedful_bind (heedful_modify fun pager => pager.heeds_closeHandle page) fun _ =>
      (still_fail _).heedful

theorem heedful_allocate (pid : Pid) (type : PageType) (va : Nat) (writable : Bool) :
    (allocate pid type va writable).IsHeedful marks := by
  cases type with
  | anonymous => exact heedful_reservePage _ _
  | file => exact (still_fail _).heedful

theorem heedful_claim (pid : Pid) (address : Nat) : (claim pid address).IsHeedful marks := by
  refine heedful_bind (still_requireSpace pid).heedful fun space => ?_
  split
  · exact (still_deny _ _).heedful
  · split
    · exact (still_pure ()).heedful
    · exact heedful_bind (heedful_acquireFrame _) fun _ => heedful_attach _ _ _

theorem heedful_saveOnDiscard (pid : Pid) (page : Page) : (saveOnDiscard pid page).IsHeedful marks := by
  unfold saveOnDiscard
  split
  · split
    · exact heedful_saveToFile _ _ _
    · exact (still_pure ()).heedful
  · exact (still_pure ()).heedful

theorem heedful_releasePageSlot (page : Page) : (releasePageSlot page).IsHeedful marks := by
  unfold releasePageSlot
  split
  · exact heedful_giveBackSlot _
  · exact (still_pure ()).heedful

theorem heedful_releasePageFrame (pid : Pid) (page : Page) :
    (releasePageFrame pid page).IsHeedful marks := by
  unfold releasePageFrame
  split
  · exact heedful_bind (heedful_modify fun _ => heeds_clear pid page.va) fun _ => heedful_releaseFrame _
  · exact (still_pure ()).heedful

theorem heedful_discardPage (pid : Pid) (page : Page) : (discardPage pid page).IsHeedful marks := by
  refine heedful_bind (heedful_note fun _ => id) fun _ =>
    heedful_bind (heedful_saveOnDiscard pid page) fun _ =>
      heedful_bind (heedful_releasePageSlot page) fun _ =>
        heedful_bind (heedful_releasePageFrame pid page) fun _ => heedful_modify fun pager => ?_
  exact (pager.heeds_closeHandle page).trans (heeds_modifySpace pid fun _ => rfl)

/-! ## Processes -/

theorem heedful_createProcess (pid : Pid) : (createProcess pid).IsHeedful marks := by
  refine heedful_get fun pager => ?_
  split
  · exact (still_fail _).heedful pager
  · rename_i free
    have absent : pager.space? pid = none := by simpa [space?] using free
    rw [meets_set]
    have same := pager.shown_createProcess pid (fun space va => space.table.dirty? va) absent
      pager.config.stackTop fun va => by simp [AddressSpace.empty, PageTable.empty, PageTable.dirty?]
    exact .of_same same rfl rfl

theorem heedful_discardPages (pid : Pid) (pages : List Page) :
    (discardPages pid pages).IsHeedful marks := by
  induction pages with
  | nil => exact (still_pure ()).heedful
  | cons page rest inductionHypothesis =>
      exact heedful_bind (heedful_discardPage pid page) fun _ => inductionHypothesis

theorem heeds_closeRegions (pager : Pager) (regions : List Region) :
    Heeds marks pager (pager.closeRegions regions) := by
  induction regions generalizing pager with
  | nil => exact .refl pager
  | cons region rest inductionHypothesis =>
      have closed : Heeds marks pager (pager.closeFile region.file) :=
        .of_same rfl rfl (pager.files.content_close _)
      exact closed.trans (inductionHypothesis _)

theorem heeds_eraseSpace (pager : Pager) (pid : Pid) : Heeds marks pager (pager.eraseSpace pid) := by
  refine .of_fewer (fun owner marked => ?_) rfl rfl
  by_cases here : pid = owner.pid
  · subst here
    simp [dirtyOf, shown, space?, eraseSpace] at marked
  · simpa [dirtyOf, shown, space?, eraseSpace, Std.ExtTreeMap.getElem?_erase, here] using marked

theorem heedful_exitProcess (pid : Pid) : (exitProcess pid).IsHeedful marks :=
  heedful_bind (still_requireSpace pid).heedful fun space =>
    heedful_bind (heedful_discardPages pid _) fun _ => heedful_modify fun pager =>
      (pager.heeds_closeRegions space.regionList).trans (heeds_eraseSpace _ pid)

/-- The end of a process writes back only what was marked. -/
theorem heeding_killOnFatal
    {α : Type} {program : PagerM α} (pid : Pid) (meets : program.Meets before (heeding marks before)) :
    (killOnFatal pid program).Meets before (heeding marks before) := by
  refine heeding_bind ((meets_attempt ..).mpr (meets.mono ?_ ?_ fun _ _ => id))
  · exact fun answer after heeds => ⟨heeds, (still_pure answer).heedful after⟩
  · refine fun error after heeds => ⟨heeds, ?_⟩
    refine heedful_get (fun pager => ?_) after
    dsimp only
    split
    · exact heedful_bind (heedful_exitProcess pid) (fun _ => (still_fail error).heedful) pager
    · exact (still_fail error).heedful pager

theorem heedful_killOnFatal
    {α : Type} {program : PagerM α} (pid : Pid) (heedful : program.IsHeedful marks) :
    (killOnFatal pid program).IsHeedful marks :=
  fun before => heeding_killOnFatal pid (heedful before)

/-! ## Segments and stacks -/

theorem heedful_segmentLoad (file : FileId) (va offset left : Nat) :
    (segmentLoad file va offset left).IsHeedful marks := by
  unfold segmentLoad
  split
  · exact (still_pure _).heedful
  · refine heedful_bind (heedful_reopenFile file) fun opened => ?_
    split
    · exact (still_pure _).heedful
    · exact (still_fail _).heedful

theorem heedful_reserveSegment (pid : Pid) (file : FileId) (writable : Bool) (pages va offset left : Nat) :
    (reserveSegment pid file writable pages va offset left).IsHeedful marks := by
  induction pages generalizing va offset left with
  | zero => exact (still_pure ()).heedful
  | succ pages inductionHypothesis =>
      refine heedful_bind (heedful_segmentLoad file va offset left) fun load =>
        heedful_bind (heedful_reservePage pid _) fun _ =>
          heedful_bind (still_addWords _ _).heedful fun _ => ?_
      split
      · exact (still_fail _).heedful
      · exact inductionHypothesis _ _ _

theorem heedful_loadSegment (pid : Pid) (file : FileId) (segment : Segment) :
    (loadSegment pid file segment).IsHeedful marks := by
  unfold loadSegment
  split
  · exact (still_fail _).heedful
  · iterate 3 (split; exact (still_fail _).heedful)
    exact heedful_reserveSegment _ _ _ _ _ _ _

theorem heedful_setStackPointer (pid : Pid) (address : Nat) :
    (setStackPointer pid address).IsHeedful marks :=
  heedful_bind (still_requireSpace pid).heedful fun _ =>
    heedful_modify fun _ => heeds_modifySpace pid fun _ => rfl

theorem heedful_setupStack (pid : Pid) : (setupStack pid).IsHeedful marks := by
  intro pager
  rw [setupStack, meets_bind, meets_get]
  dsimp only
  refine heedful_bind (still_subtractWords _ _).heedful (fun _ =>
    heedful_bind (heedful_reservePage pid _) fun _ => heedful_bind (heedful_claim pid _) fun _ =>
      heedful_bind (still_requireSpace pid).heedful fun _ => ?_) pager
  exact heedful_modify fun _ => heeds_modifySpace pid fun _ => rfl

/-! ## Mappings -/

theorem heedful_insertRegion (pid : Pid) (region : Region) :
    IsHeedful (modify fun pager => pager.insertRegion pid region) marks :=
  heedful_modify fun _ => heeds_modifySpace pid fun _ => rfl

theorem heedful_eraseRegion (pid : Pid) (base : Nat) :
    IsHeedful (modify fun pager => pager.eraseRegion pid base) marks :=
  heedful_modify fun _ => heeds_modifySpace pid fun _ => rfl

theorem heedful_discardMapped (pid : Pid) (region : Region) (indices : List Nat) :
    (discardMapped pid region indices).IsHeedful marks := by
  induction indices with
  | nil => exact (still_pure ()).heedful
  | cons index rest inductionHypothesis =>
      refine heedful_get fun pager => ?_
      dsimp only
      split
      · split
        · exact heedful_bind (heedful_discardPage _ _) (fun _ => inductionHypothesis) pager
        · exact inductionHypothesis pager
      · exact inductionHypothesis pager

theorem heedful_unmap (pid : Pid) (base : Nat) : (unmap pid base).IsHeedful marks := by
  refine heedful_bind (still_requireSpace pid).heedful fun space => ?_
  split
  · exact (still_pure ()).heedful
  · exact heedful_bind (heedful_eraseRegion pid base) fun _ =>
      heedful_bind (heedful_discardMapped _ _ _) fun _ =>
        heedful_modify fun pager => .of_same rfl rfl (pager.files.content_close _)

theorem heedful_makePages (region : Region) (length fileSize : Nat) (writable : Bool) (pages index : Nat) :
    (makePages region length fileSize writable pages index).IsHeedful marks := by
  induction pages generalizing index with
  | zero => exact (still_pure _).heedful
  | succ pages inductionHypothesis =>
      refine heedful_bind (still_subtractWords _ _).heedful fun _ =>
        heedful_bind (heedful_reopenFile _) fun opened => ?_
      split
      · refine heedful_bind (heedful_attempt (inductionHypothesis _)) fun outcome => ?_
        split
        · exact (still_pure _).heedful
        · exact heedful_bind (heedful_modify fun pager => pager.heeds_closeHandle _) fun _ =>
            (still_fail _).heedful
      · exact (still_fail _).heedful

theorem heedful_reservePages (pid : Pid) (pages : List Page) : (reservePages pid pages).IsHeedful marks := by
  induction pages with
  | nil => exact (still_pure ()).heedful
  | cons page rest inductionHypothesis =>
      refine heedful_bind (heedful_attempt (heedful_reservePage pid page)) fun outcome => ?_
      split
      · exact inductionHypothesis
      · exact heedful_bind (heedful_modify fun pager => pager.heeds_closeHandles rest) fun _ =>
          (still_fail _).heedful

theorem heedful_mapPages (pid : Pid) (base length fileSize : Nat) (writable : Bool) :
    (mapPages pid base length fileSize writable).IsHeedful marks := by
  refine heedful_bind (still_requireSpace pid).heedful fun space => ?_
  split
  · exact (still_fail _).heedful
  · exact heedful_bind (heedful_makePages _ _ _ _ _ _) fun pages => heedful_reservePages pid pages

theorem heedful_mapRegion (pid : Pid) (region : Region) (length fileSize : Nat) (writable : Bool) :
    (mapRegion pid region length fileSize writable).IsHeedful marks := by
  refine heedful_bind (heedful_insertRegion pid region) fun _ =>
    heedful_bind (heedful_attempt (heedful_mapPages _ _ _ _ _)) fun outcome => ?_
  split
  · exact (still_pure _).heedful
  · exact heedful_bind (heedful_unmap pid _) fun _ => (still_fail _).heedful

theorem still_checkMapping (base length : Nat) (file : FileId) (offset : Nat) :
    (checkMapping base length file offset).IsStill := by
  refine still_bind (still_checkUserAddress base) fun _ => still_get fun pager => ?_
  dsimp only
  iterate 4 (split; exact still_fail _)
  split
  · exact still_deny _ _
  · split
    · exact still_fail _
    · exact still_pure _

theorem heedful_map (pid : Pid) (base length : Nat) (writable : Bool) (file : FileId) (offset : Nat) :
    (map pid base length writable file offset).IsHeedful marks := by
  refine heedful_bind (still_checkMapping _ _ _ _).heedful fun mapped =>
    heedful_bind (still_requireSpace pid).heedful fun space => ?_
  split
  · exact (still_fail _).heedful
  · refine heedful_bind (heedful_reopenFile file) fun opened => ?_
    split
    · exact heedful_get fun pager => heedful_bind (heedful_mapRegion pid _ _ _ _)
        (fun _ => (still_pure _).heedful) pager
    · exact (still_fail _).heedful

/-! ## Faults and reads -/

theorem heedful_resolveFault (pid : Pid) (fault : PageFault) :
    (resolveFault pid fault).IsHeedful marks := by
  refine heedful_bind (heedful_modify fun _ => .of_same rfl rfl rfl) fun _ =>
    heedful_bind (still_checkUserAddress _).heedful fun _ =>
      heedful_bind (still_requireSpace pid).heedful fun space => ?_
  split
  · split
    · exact (still_deny _ _).heedful
    · split
      · exact (still_pure ()).heedful
      · exact heedful_claim _ _
  · refine heedful_get fun pager => ?_
    split
    · exact heedful_bind (heedful_reservePage pid _) (fun _ => heedful_claim _ _) pager
    · exact (still_deny _ _).heedful pager

theorem heedful_lookUp_read (pid : Pid) (va : Nat) : (lookUp pid va false).IsHeedful marks := by
  refine heedful_bind (still_requireSpace pid).heedful fun space => ?_
  split
  · exact (still_pure _).heedful
  · exact heedful_bind (heedful_modify fun _ => .of_same (dirtyOf_setAccessed va true) rfl rfl) fun _ =>
      (still_pure _).heedful

theorem heedful_physicalAddress_read (pid : Pid) (va : Nat) :
    (physicalAddress pid va false).IsHeedful marks := by
  rw [physicalAddress_eq]
  refine heedful_bind (heedful_lookUp_read pid va) fun found => ?_
  split
  · exact (still_pure _).heedful
  · refine heedful_bind (still_requireSpace pid).heedful fun space =>
      heedful_bind (heedful_resolveFault pid _) fun _ =>
        heedful_bind (heedful_lookUp_read pid va) fun again => ?_
    split
    · exact (still_pure _).heedful
    · exact (still_fail _).heedful

theorem heedful_readChunks (pid : Pid) (va length chunks done : Nat) (bytes : Array UInt8) :
    (readChunks pid va length chunks done bytes).IsHeedful marks := by
  induction chunks generalizing done bytes with
  | zero => exact (still_pure _).heedful
  | succ chunks inductionHypothesis =>
      exact heedful_bind (still_chunkAddress va done).heedful fun address =>
        heedful_bind (heedful_physicalAddress_read pid address) fun physical =>
          heedful_bind (still_checkPhysical _ _).heedful fun _ =>
            heedful_get fun pager => inductionHypothesis _ _ pager

/-! ## Writes -/

/-- The pages that contain an address of a process. -/
def At (pid : Pid) (va : Nat) (owner : Owner) : Prop :=
  owner.pid = pid ∧ pageBase owner.va = pageBase va

theorem heeds_touched (pager : Pager) (pid : Pid) (va : Nat) :
    Heeds (At pid va) pager (pager.touched pid va true) := by
  refine ⟨fun owner marked => ?_, [], rfl, fun _ _ _ => (absurd · List.not_mem_nil), .of_same rfl⟩
  rw [isMarked_iff] at marked ⊢
  rw [dirtyOf_touched, if_pos rfl] at marked
  by_cases here : (⟨owner.pid, pageBase owner.va⟩ : Owner) = ⟨pid, pageBase va⟩
  · rw [Owner.mk.injEq] at here
    exact Or.inr here
  · rw [Function.update_of_ne here] at marked
    exact Or.inl marked

/-- A look-up for a write marks the page if it finds its frame. -/
theorem heeding_lookUp_write (before : Pager) (pid : Pid) (va : Nat) :
    (lookUp pid va true).Meets before
      ⟨fun found after => Heeds (At pid va) before after ∧ (found = none → after = before),
        fun _ after => after = before, fun _ after => after = before⟩ := by
  refine (meets_bind ..).mpr ((still_requireSpace pid before).mono ?_ (fun _ _ => id) fun _ _ => id)
  rintro space after rfl
  dsimp only
  split
  · exact ⟨.refl after, fun _ => rfl⟩
  · split
    · exact ⟨.refl after, fun _ => rfl⟩
    · exact ⟨heeds_touched after pid va, nofun⟩

/-- No page is marked by an attempt to resolve an address that fails. -/
theorem heeding_physicalAddress_write (before : Pager) (pid : Pid) (va : Nat) :
    (physicalAddress pid va true).Meets before
      ⟨fun _ => Heeds (At pid va) before, fun _ => Heeds marks before, fun _ => Heeds marks before⟩ := by
  have still {marks : Owner → Prop} {after : Pager} (same : after = before) :
      Heeds marks before after := by
    rw [same]
    exact .refl before
  rw [physicalAddress_eq]
  refine (meets_bind ..).mpr ((heeding_lookUp_write before pid va).mono ?_ (fun _ _ => still)
    fun _ _ => still)
  rintro (_ | address) looked ⟨heeds, unchanged⟩
  · rw [unchanged rfl]
    refine (meets_bind ..).mpr ((still_requireSpace pid before).mono ?_ (fun _ _ => still)
      fun _ _ => still)
    rintro space _ rfl
    have fewer {marks : Owner → Prop} {before after : Pager}
        (heeds : Heeds (fun _ => False) before after) : Heeds marks before after :=
      heeds.mono fun _ => False.elim
    refine (meets_bind ..).mpr ((heedful_resolveFault pid _ _).mono ?_ (fun _ _ => fewer)
      fun _ _ => fewer)
    intro _ resolved faults
    refine (meets_bind ..).mpr ((heeding_lookUp_write resolved pid va).mono ?_
      (fun _ _ same => same ▸ fewer faults) fun _ _ same => same ▸ fewer faults)
    rintro (_ | address) after ⟨heeds, unchanged⟩
    · rw [unchanged rfl]
      exact fewer faults
    · exact (fewer faults).trans heeds
  · exact heeds

/-- A program that can neither fail nor halt answers. -/
theorem answers_of_meets
    {α : Type} {program : PagerM α} {answers : α → Pager → Prop}
    (meets : program.Meets before ⟨answers, fun _ _ => False, fun _ _ => False⟩) :
    ∃ answer after, program before = .ok answer after ∧ answers answer after := by
  unfold Meets at meets
  split at meets
  · rename_i answer after run
    exact ⟨answer, after, run, meets⟩
  · exact meets.elim
  · exact meets.elim

/-- A chunk that can be stored is stored before the chunks behind it. -/
theorem writeChunks_succ
    {pid : Pid} {va chunks done address physical count : Nat} {bytes : Array UInt8} {middle : Pager}
    (isWord : checkedSum va done = some address)
    (resolved : physicalAddress pid address true before = .ok physical middle)
    (counted : chunkLength address (bytes.size - done) = count)
    (checked : checkPhysical physical count middle = .ok ⟨⟩ middle) :
    writeChunks pid va bytes (chunks + 1) done before =
      writeChunks pid va bytes chunks (done + count) (middle.modifyFrames fun frames =>
        frames.store physical (bytes.extract done (done + count))) := by
  simp only [writeChunks, chunkAddress, isWord, bind, EStateM.bind, pure, EStateM.pure, resolved,
    counted, checked]
  rfl

/-- Whether a write that has come to the byte `done` gets as far as the byte `index`: the same write is
made as a whole if it ends there. -/
def WriteReaches (before : Pager) (pid : Pid) (va : Nat) (bytes : Array UInt8) (done index : Nat) :
    Prop :=
  ∃ after, writeChunks pid va (bytes.extract 0 (index + 1))
    (touchedPages (va + done) (index + 1 - done)) done before = .ok ⟨⟩ after

/-- The pages that a write that has come to the byte `done` gets as far as. -/
def WritesFrom (before : Pager) (pid : Pid) (va : Nat) (bytes : Array UInt8) (done : Nat)
    (owner : Owner) : Prop :=
  ∃ index, done ≤ index ∧ index < bytes.size ∧ At pid (va + index) owner ∧
    before.WriteReaches pid va bytes done index

/-- A physical address at which a page may be accessed passes the check. -/
theorem checkPhysical_of_resolved
    {pid : Pid} {address count frame : Nat} {isWrite : Bool} (sound : before.ledger.Sound none)
    (resolved : before.Resolved pid address isWrite frame)
    (fits : pageOffset address + count ≤ pageSize) :
    checkPhysical (frameBase frame + pageOffset address) count before = .ok ⟨⟩ before := by
  obtain ⟨_, _, run, same⟩ := answers_of_meets ((meets_checkPhysical_of_grants sound resolved.grants
    fits ⟨fun _ after => after = before, fun _ _ => False, fun _ _ => False⟩).mpr rfl)
  rw [run, same]

section Chunk

variable {pid : Pid} {va done frame : Nat} {bytes : Array UInt8} {middle : Pager}

/-- A write gets as far as the page that its next chunk finds resident. -/
theorem writeReaches_chunk
    (sound : middle.ledger.Sound none) (remaining : done < bytes.size)
    (isWord : checkedSum va done = some (va + done))
    (run : physicalAddress pid (va + done) true before =
      .ok (frameBase frame + pageOffset (va + done)) middle)
    (resolved : middle.Resolved pid (va + done) true frame) :
    before.WriteReaches pid va bytes done done := by
  have below := pageOffset_lt (va + done)
  have size : (bytes.extract 0 (done + 1)).size = done + 1 := by
    rw [Array.size_extract]
    omega
  have single : chunkLength (va + done) 1 = 1 := by
    rw [chunkLength]
    omega
  have touched : touchedPages (va + done) 1 = 1 := by
    rw [touchedPages_chunk Nat.one_ne_zero, single, Nat.sub_self, touchedPages, if_pos rfl]
  have counted : chunkLength (va + done) ((bytes.extract 0 (done + 1)).size - done) = 1 := by
    rw [size, Nat.add_sub_cancel_left, single]
  have checked := @checkPhysical_of_resolved _ _ _ 1 _ _ sound resolved below
  rw [WriteReaches, Nat.add_sub_cancel_left, touched, writeChunks_succ isWord run counted checked]
  exact ⟨_, rfl⟩

/-- A write that gets as far as a byte behind its next chunk stores the chunk first. -/
theorem writeReaches_later
    {index count : Nat} (sound : middle.ledger.Sound none) (inside : index < bytes.size)
    (isWord : checkedSum va done = some (va + done))
    (run : physicalAddress pid (va + done) true before =
      .ok (frameBase frame + pageOffset (va + done)) middle)
    (resolved : middle.Resolved pid (va + done) true frame)
    (counts : chunkLength (va + done) (bytes.size - done) = count) (behind : done + count ≤ index)
    (reaches : (middle.modifyFrames fun frames =>
      frames.store (frameBase frame + pageOffset (va + done))
        (bytes.extract done (done + count))).WriteReaches pid va bytes (done + count) index) :
    before.WriteReaches pid va bytes done index := by
  obtain ⟨inBytes, inPage⟩ := chunkLength_le (va + done) (bytes.size - done)
  have size : (bytes.extract 0 (index + 1)).size = index + 1 := by
    rw [Array.size_extract]
    omega
  have counted : chunkLength (va + done) (index + 1 - done) = count := by
    rw [← counts, chunkLength, chunkLength] at *
    omega
  have same : (bytes.extract 0 (index + 1)).extract done (done + count) =
      bytes.extract done (done + count) := by
    rw [Array.extract_extract, Nat.zero_add, Nat.zero_add, Nat.min_eq_left (by omega)]
  have checked := checkPhysical_of_resolved sound resolved inPage
  rw [counts] at checked
  rw [WriteReaches, ← Nat.add_assoc, ← Nat.sub_sub] at reaches
  rw [WriteReaches, touchedPages_chunk (by omega), counted,
    writeChunks_succ isWord run (by rw [size, counted]) checked, same]
  exact reaches

end Chunk

/-- A write marks the pages that it gets as far as, and no other. -/
theorem heeding_writeChunks
    (ready : before.Ready) {pid : Pid} {va chunks done : Nat} {bytes : Array UInt8}
    (started : done ≤ bytes.size)
    (enough : chunks = touchedPages (va + done) (bytes.size - done)) :
    (writeChunks pid va bytes chunks done).Meets before
      (heeding (before.WritesFrom pid va bytes done) before) := by
  induction chunks generalizing before done with
  | zero => exact Heeds.refl before
  | succ chunks inductionHypothesis =>
      have remaining : bytes.size - done ≠ 0 := by
        rw [ne_eq, ← @touchedPages_eq_zero (va + done), ← enough]
        exact Nat.succ_ne_zero chunks
      rw [touchedPages_chunk remaining, Nat.add_right_cancel_iff] at enough
      obtain ⟨inBytes, inPage⟩ := chunkLength_le (va + done) (bytes.size - done)
      rw [writeChunks, chunkAddress]
      cases isWord : checkedSum va done with
      | none => exact Heeds.refl before
      | some address =>
          obtain rfl := checkedSum_eq_some isWord
          simp only [pure_bind]
          generalize counts : chunkLength (va + done) (bytes.size - done) = count at *
          refine (meets_bind ..).mpr (((meets_physicalAddress ready pid (va + done) true).ran.and
            (heeding_physicalAddress_write before pid (va + done))).mono ?_ (fun _ _ => And.right)
              fun _ _ => And.right)
          rintro _ middle ⟨⟨reaches, run, frame, resolved, rfl⟩, heeds⟩
          have middleReady := reaches.ready ready
          have sound := middleReady.sound
          obtain ⟨stored, same, turn, _⟩ :=
            store_of_grants sound resolved (bytes.extract done (done + count))
          have marked : Heeds (before.WritesFrom pid va bytes done) before middle :=
            heeds.mono fun _ here => ⟨done, Nat.le_refl done, by omega, here,
              writeReaches_chunk sound (by omega) isWord run resolved⟩
          have storing : Heeds (before.WritesFrom pid va bytes done) middle stored := by
            subst same
            exact .of_same rfl rfl rfl
          have storedReady : stored.Ready :=
            (@Reaches.turn (fun _ => True) _ _ _ turn sound trivial (by simp)).ready middleReady
          have later := inductionHypothesis storedReady (by omega : done + count ≤ bytes.size)
            (by rw [← Nat.add_assoc, ← Nat.sub_sub]; exact enough)
          have onward : (writeChunks pid va bytes chunks (done + count)).Meets stored
              (heeding (before.WritesFrom pid va bytes done) stored) := by
            apply heeding_mono later
            rintro owner ⟨index, behind, inside, here, writes⟩
            exact ⟨index, by omega, inside, here, writeReaches_later sound inside isWord run resolved
              counts behind (same ▸ writes)⟩
          refine (meets_bind ..).mpr ((meets_checkPhysical_of_grants sound resolved.grants inPage _).mpr
            ((meets_bind ..).mpr ((meets_modify ..).mpr ?_)))
          rw [← same]
          exact heeding_rebase onward (marked.trans storing)

/-! ## Forks -/

theorem heedful_reopenForCopy (page : Page) : (reopenForCopy page).IsHeedful marks := by
  unfold reopenForCopy
  split
  · exact (still_pure ()).heedful
  · refine heedful_bind (heedful_reopenFile _) fun opened => ?_
    split
    · exact (still_pure ()).heedful
    · exact (still_fail _).heedful

/-- The mark of the parent's page is the one it has when it is resident. -/
theorem heeding_claimSource (before : Pager) (parent : Pid) (va : Nat) :
    (claimSource parent va).Meets before
      ⟨fun answer after => Heeds marks before after ∧ (answer.2 = true → after.IsMarked ⟨parent, va⟩),
        fun _ => Heeds marks before, fun _ => Heeds marks before⟩ := by
  refine (meets_bind ..).mpr ((heedful_claim parent va before).mono ?_ (fun _ _ => id) fun _ _ => id)
  intro _ after heeds
  refine (meets_bind ..).mpr ((meets_requireSpace ..).mpr ?_)
  cases found : after.space? parent with
  | none => exact heeds
  | some space =>
      dsimp only
      split
      · exact heeds
      · refine ⟨heeds, fun dirty => ?_⟩
        rw [IsMarked, table, found]
        exact dirty

theorem still_copyFrames (parent child : Pid) (va : Nat) : (copyFrames parent child va).IsStill := by
  refine still_get fun pager => ?_
  split
  · split
    · exact still_pure _
    · exact still_fail _
  · exact still_fail _

theorem heedful_fillCopy (parent child : Pid) (va : Nat) (copy : Page) :
    (fillCopy parent child va copy).IsHeedful marks :=
  heedful_bind (heedful_reservePage child copy) fun _ => heedful_bind (heedful_claim child va) fun _ =>
    heedful_bind (still_copyFrames parent child va).heedful fun _ =>
      heedful_bind (still_checkBytes _).heedful fun _ =>
        heedful_bind (still_frameImage _).heedful fun _ => heedful_modifyFrames _

theorem heedful_copyPinned (parent child : Pid) (va source : Nat) (copy : Page) :
    (copyPinned parent child va source copy).IsHeedful marks := by
  refine heedful_bind (heedful_pinFrame source) fun _ =>
    heedful_bind (heedful_attempt (heedful_fillCopy parent child va copy)) fun outcome => ?_
  split
  · exact heedful_bind (heedful_unpinFrame source) fun _ => (still_fail _).heedful
  · exact heedful_unpinFrame source

theorem heeds_setDirty (pager : Pager) (pid : Pid) (va : Nat) :
    Heeds (At pid va) pager (pager.modifyTable pid fun table => table.setDirty va true) := by
  refine ⟨fun owner marked => ?_, [], rfl, fun _ _ _ => (absurd · List.not_mem_nil), .of_same rfl⟩
  rw [isMarked_iff] at marked ⊢
  rw [dirtyOf_setDirty] at marked
  by_cases here : (⟨owner.pid, pageBase owner.va⟩ : Owner) = ⟨pid, pageBase va⟩
  · rw [Owner.mk.injEq] at here
    exact Or.inr here
  · rw [Function.update_of_ne here] at marked
    exact Or.inl marked

/-- The page of the child is marked only if the page of the parent was. -/
theorem heedful_copyDirty {child : Pid} {va : Nat} {dirty : Bool}
    (spread : dirty = true → ∀ owner, At child va owner → marks owner) :
    (copyDirty child va dirty).IsHeedful marks := by
  unfold copyDirty
  split
  · rename_i isDirty
    exact heedful_bind (still_requireSpace child).heedful fun _ => heedful_modify fun pager =>
      (pager.heeds_setDirty child va).mono (spread isDirty)
  · exact (still_pure ()).heedful

/-- The pages of a child whose originals are marked. -/
def MarkedCopies (before : Pager) (parent child : Pid) (owner : Owner) : Prop :=
  owner.pid = child ∧ before.IsMarked ⟨parent, owner.va⟩

/-- A copy made after pages of the parent were claimed marks no more than a copy made at once. -/
theorem heeding_copyPage
    {start : Pager} {parent child : Pid}
    (kept : ∀ va, before.IsMarked ⟨parent, va⟩ → start.IsMarked ⟨parent, va⟩) (va : Nat) :
    (copyPage parent child va).Meets before (heeding (start.MarkedCopies parent child) before) := by
  have sameMark {pager : Pager} {owner : Owner} (here : At child va owner) :
      pager.IsMarked ⟨parent, va⟩ → pager.IsMarked ⟨parent, owner.va⟩ := by
    rw [isMarked_iff, isMarked_iff, here.2]
    exact id
  refine heeding_after_look (still_requireSpace parent) fun space => ?_
  split
  · exact (still_fail _).heedful before
  · rename_i page _
    refine heeding_bind ((heedful_reopenForCopy page before).mono (fun _ opened heeds =>
      ⟨heeds, ?_⟩) (fun _ _ => id) fun _ _ => id)
    refine heeding_bind ((meets_attempt ..).mpr ((heeding_claimSource opened parent va).mono ?_
      (fun error failed fails => ⟨fails, ?_⟩) fun _ _ => id))
    · rintro ⟨source, dirty⟩ claimed ⟨claims, marked⟩
      refine ⟨claims, heedful_bind (heedful_copyPinned _ _ _ _ _) (fun _ => ?_) claimed⟩
      refine heedful_copyDirty fun isDirty owner here => ⟨here.1, ?_⟩
      rcases (heeds.trans claims).marked ⟨parent, va⟩ (marked isDirty) with was | ⟨_, was⟩
      · exact sameMark here (kept va was)
      · exact sameMark here was
    · exact heedful_bind (heedful_modify fun pager => pager.heeds_closeHandle page.copy)
        (fun _ => (still_fail error).heedful) failed

theorem heeding_copyPages
    {start : Pager} {parent child : Pid} (vas : List Nat)
    (kept : ∀ va, before.IsMarked ⟨parent, va⟩ → start.IsMarked ⟨parent, va⟩) :
    (copyPages parent child vas).Meets before (heeding (start.MarkedCopies parent child) before) := by
  induction vas generalizing before with
  | nil => exact Heeds.refl before
  | cons va rest inductionHypothesis =>
      refine heeding_bind ((heeding_copyPage kept va).mono (fun _ middle heeds => ⟨heeds, ?_⟩)
        (fun _ _ => id) fun _ _ => id)
      apply inductionHypothesis
      intro other marked
      exact (heeds.marked ⟨parent, other⟩ marked).elim (kept other) And.right

theorem heedful_reopenRegions (regions : List Region) : (reopenRegions regions).IsHeedful marks := by
  induction regions with
  | nil => exact (still_pure ()).heedful
  | cons region rest inductionHypothesis =>
      refine heedful_bind (heedful_reopenFile _) fun opened => ?_
      split
      · refine heedful_bind (heedful_attempt inductionHypothesis) fun outcome => ?_
        split
        · exact (still_pure ()).heedful
        · exact heedful_bind (heedful_modify fun pager => .of_same rfl rfl
            (pager.files.content_close _)) fun _ => (still_fail _).heedful
      · exact (still_fail _).heedful

theorem heeding_copySpace
    {start : Pager} {parent child : Pid}
    (kept : ∀ va, before.IsMarked ⟨parent, va⟩ → start.IsMarked ⟨parent, va⟩) :
    (copySpace parent child).Meets before (heeding (start.MarkedCopies parent child) before) := by
  refine heeding_after_look (still_requireSpace parent) fun space => ?_
  refine heeding_bind ((heedful_reopenRegions space.regionList before).mono (fun _ opened heeds =>
    ⟨heeds, ?_⟩) (fun _ _ => id) fun _ _ => id)
  have laid : Heeds (start.MarkedCopies parent child) opened (opened.laidOut child space) :=
    heeds_modifySpace child fun _ => rfl
  refine (meets_bind ..).mpr ((meets_modify ..).mpr (heeding_rebase ?_ laid))
  apply heeding_copyPages
  intro va marked
  exact ((heeds.trans laid).marked ⟨parent, va⟩ marked).elim (kept va) And.right

/-- A fork marks only pages of the child whose originals are marked. -/
theorem heeding_fork (before : Pager) (parent child : Pid) :
    (fork parent child).Meets before (heeding (before.MarkedCopies parent child) before) := by
  refine heeding_after_look (still_requireSpace parent) fun space => ?_
  refine (meets_bind ..).mpr ((meets_get ..).mpr ?_)
  dsimp only
  split
  · exact (still_fail _).heedful before
  · refine heeding_bind ((heedful_createProcess child before).mono (fun _ created heeds =>
      ⟨heeds, ?_⟩) (fun _ _ => id) fun _ _ => id)
    have copies := @heeding_copySpace created before parent child fun va marked =>
      (heeds.marked ⟨parent, va⟩ marked).elim id And.right
    refine heeding_bind ((meets_attempt ..).mpr (copies.mono ?_ ?_ fun _ _ => id))
    · exact fun _ after copied => ⟨copied, (still_pure ()).heedful after⟩
    · exact fun error after copied => ⟨copied, heedful_bind (heedful_exitProcess child)
        (fun _ => (still_fail error).heedful) after⟩

/-! ## Calls -/

end Pager

namespace Call

/-- Whether a call writes to a page. A write gets as far as a byte if the write that ends with it would be
answered. -/
def WritesTo (before : Pager) (owner : Owner) : Call → Prop
  | writeUser pid va bytes => ∃ index < bytes.size, Pager.At pid (va + index) owner ∧
      ∃ after, Pager.writeUser pid va (bytes.extract 0 (index + 1)) before = .ok ⟨⟩ after
  | _ => False

/-- Whether a call may mark a page as changed: it writes to the page, or makes the process of the page a
copy of one whose page is marked. -/
def Dirties (call : Call) (before : Pager) (owner : Owner) : Prop :=
  call.WritesTo before owner ∨
    ∃ parent, call = .fork parent owner.pid ∧ before.IsMarked ⟨parent, owner.va⟩

end Call

namespace Pager

open PagerM

variable {before : Pager}

theorem killOnFatal_of_ok
    {α : Type} {program : PagerM α} {after : Pager} {answer : α} (pid : Pid)
    (run : program before = .ok answer after) : killOnFatal pid program before = .ok answer after := by
  simp only [killOnFatal, bind, EStateM.bind, attempt_of_ok run]
  rfl

theorem heeding_writeUser (ready : before.Ready) (pid : Pid) (va : Nat) (bytes : Array UInt8) :
    (writeUser pid va bytes).Meets before
      (heeding ((Call.writeUser pid va bytes).Dirties before) before) := by
  refine heeding_killOnFatal pid (heeding_mono (heeding_writeChunks ready (Nat.zero_le bytes.size) rfl)
    fun owner ⟨index, _, inside, here, after, run⟩ => Or.inl ⟨index, inside, here, after, ?_⟩)
  have size : (bytes.extract 0 (index + 1)).size = index + 1 := by
    rw [Array.size_extract]
    omega
  rw [writeUser, size]
  exact killOnFatal_of_ok pid run

theorem heeding_answer
    {marks : Owner → Prop} {α : Type} {program : PagerM α} (answer : α → Answer)
    (meets : program.Meets before (heeding marks before)) :
    (program >>= fun result => pure (answer result)).Meets before (heeding marks before) :=
  (meets_bind ..).mpr meets

-- The bottom of the stack is a number that unification must not compute.
attribute [local irreducible] setupStack

/-- However a call ends, only pages that it may mark, or that were marked before, are marked or were
written back. -/
theorem heeding_perform (ready : before.Ready) (call : Call) :
    call.perform.Meets before (heeding (call.Dirties before) before) := by
  cases call with
  | createProcess pid => exact heeding_answer _ (heedful_createProcess pid before)
  | exitProcess pid => exact heeding_answer _ (heedful_exitProcess pid before)
  | fork parent child =>
      exact heeding_answer _ (heeding_mono (heeding_fork before parent child)
        fun owner ⟨same, marked⟩ => Or.inr ⟨parent, by rw [same], marked⟩)
  | allocate pid type va writable => exact heeding_answer _ (heedful_allocate pid type va writable before)
  | allocateLazily pid va writable load => exact heeding_answer _ (heedful_reservePage pid _ before)
  | loadSegment pid file segment => exact heeding_answer _ (heedful_loadSegment pid file segment before)
  | setupStack pid => exact heeding_answer _ (heedful_setupStack pid before)
  | setStackPointer pid address => exact heeding_answer _ (heedful_setStackPointer pid address before)
  | stackPointer pid => exact heeding_answer _ ((still_requireSpace pid).heedful before)
  | claim pid va => exact heeding_answer _ (heedful_claim pid va before)
  | handlePageFault pid fault =>
      exact heeding_answer _ (heedful_killOnFatal pid (heedful_resolveFault pid fault) before)
  | map pid base length writable file offset =>
      exact heeding_answer _ (heedful_map pid base length writable file offset before)
  | unmap pid base => exact heeding_answer _ (heedful_unmap pid base before)
  | readUser pid va length =>
      exact heeding_answer _
        (heedful_killOnFatal pid (heedful_readChunks pid va length _ 0 #[]) before)
  | writeUser pid va bytes => exact heeding_answer _ (heeding_writeUser ready pid va bytes)
  | pageType pid va => exact heeding_answer _ ((still_requireSpace pid).heedful before)
  | isResident pid va => exact heeding_answer _ ((still_requireSpace pid).heedful before)
  | stats =>
      exact heedful_get (fun pager => heedful_bind (still_subtractWords _ _).heedful
        (fun _ => (still_pure _).heedful) pager) before
  | config => exact heedful_get (fun pager => (still_pure _).heedful pager) before

end Pager

end DemandPaging
