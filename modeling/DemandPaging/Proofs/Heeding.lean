import DemandPaging.Proofs.FileChanges

/-!
# Programs that heed dirty bits

A page is written to its file only while it is marked as changed, and no program marks a page but those
that write to it or copy a marked page. That holds of every program in every state, also when it fails
or halts, so it is proved program by program without any assumption about the state.
-/

namespace DemandPaging

/-- Whether an activity took the content of a page to its file. -/
def Activity.IsWriteBack : Activity → Prop
  | wroteBack .. => True
  | _ => False

/-- The ranges to which pages were written with success. -/
def Activity.Reached (noted : List Activity) (range : FileRange) : Prop :=
  ∃ owner, wroteBack owner range true ∈ noted

theorem ChangedWithin.mono
    {ranges more : FileRange → Prop} {old new : FileId → Array UInt8}
    (within : ChangedWithin ranges old new) (fewer : ∀ range, ranges range → more range) :
    ChangedWithin more old new where
  size := within.size
  covered file index changed := by
    obtain ⟨range, good, covers⟩ := within.covered file index changed
    exact ⟨range, fewer range good, covers⟩

namespace Pager

/-! ## The relation between the states -/

/-- Whether the page of an address is marked as changed. -/
def IsMarked (pager : Pager) (owner : Owner) : Prop :=
  (pager.table owner.pid).isDirty owner.va = true

theorem isMarked_iff {pager : Pager} {owner : Owner} :
    pager.IsMarked owner ↔ pager.dirtyOf ⟨owner.pid, pageBase owner.va⟩ = some true := by
  have same := @isDirty_iff pager ⟨owner.pid, pageBase owner.va⟩ (pageBase_idem owner.va)
  rw [PageTable.isDirty_eq, pageBase_idem, ← PageTable.isDirty_eq] at same
  exact same

/-- Apart from pages of some kind, only marked pages are marked afterwards and only marked pages were
written back meanwhile. Files changed where pages were written back. -/
structure Heeds (marks : Owner → Prop) (before after : Pager) : Prop where
  marked : ∀ owner, after.IsMarked owner → before.IsMarked owner ∨ marks owner
  noted : ∃ noted, after.journal = noted ++ before.journal ∧
    (∀ owner range succeeded, .wroteBack owner range succeeded ∈ noted →
      before.IsMarked owner ∨ marks owner) ∧
    ChangedWithin (Activity.Reached noted) before.files.content after.files.content

namespace Heeds

variable {marks more : Owner → Prop} {before middle after : Pager}

/-- A change that marks nothing and writes nothing back. -/
theorem of_noted
    {noted : List Activity}
    (fewer : ∀ owner, after.dirtyOf owner = some true → before.dirtyOf owner = some true)
    (journal : after.journal = noted ++ before.journal)
    (plain : ∀ activity ∈ noted, ¬ activity.IsWriteBack)
    (files : after.files.content = before.files.content) : Heeds marks before after where
  marked _ marked := Or.inl (isMarked_iff.mpr (fewer _ (isMarked_iff.mp marked)))
  noted := ⟨noted, journal, fun _ _ _ member => absurd trivial (plain _ member), .of_same files⟩

/-- A change that marks nothing and notes nothing. -/
theorem of_fewer
    (fewer : ∀ owner, after.dirtyOf owner = some true → before.dirtyOf owner = some true)
    (journal : after.journal = before.journal)
    (files : after.files.content = before.files.content) : Heeds marks before after :=
  of_noted fewer (journal.trans (List.nil_append _).symm) (fun _ => (absurd · List.not_mem_nil)) files

/-- A change that leaves every dirty bit and notes nothing. -/
theorem of_same
    (same : after.dirtyOf = before.dirtyOf) (journal : after.journal = before.journal)
    (files : after.files.content = before.files.content) : Heeds marks before after :=
  of_fewer (fun owner marked => congrFun same owner ▸ marked) journal files

protected theorem refl (pager : Pager) : Heeds marks pager pager :=
  of_same rfl rfl rfl

protected theorem trans (first : Heeds marks before middle) (second : Heeds marks middle after) :
    Heeds marks before after where
  marked owner marked := (second.marked owner marked).elim (first.marked owner) Or.inr
  noted := by
    obtain ⟨earlier, earlierNoted, earlierMarked, earlierFiles⟩ := first.noted
    obtain ⟨later, laterNoted, laterMarked, laterFiles⟩ := second.noted
    refine ⟨later ++ earlier, by rw [laterNoted, earlierNoted, List.append_assoc],
      fun owner range succeeded member => ?_, ?_⟩
    · rcases List.mem_append.mp member with now | sooner
      · exact (laterMarked owner range succeeded now).elim (first.marked owner) Or.inr
      · exact earlierMarked owner range succeeded sooner
    · exact (earlierFiles.mono fun _ ⟨owner, member⟩ =>
        ⟨owner, List.mem_append_right later member⟩).trans
          (laterFiles.mono fun _ ⟨owner, member⟩ => ⟨owner, List.mem_append_left earlier member⟩)

theorem mono (heeds : Heeds marks before after) (fewer : ∀ owner, marks owner → more owner) :
    Heeds more before after where
  marked owner marked := (heeds.marked owner marked).imp id (fewer owner)
  noted := by
    obtain ⟨noted, journal, marked, files⟩ := heeds.noted
    exact ⟨noted, journal, fun owner range succeeded member =>
      (marked owner range succeeded member).imp id (fewer owner), files⟩

/-- A page that is not marked and may not be marked stays so, and is not written back. -/
theorem unmarked
    {owner : Owner} (heeds : Heeds marks before after) (clean : ¬ before.IsMarked owner)
    (spared : ¬ marks owner) : ¬ after.IsMarked owner :=
  fun marked => (heeds.marked owner marked).elim clean spared

end Heeds

variable {marks more : Owner → Prop} {pager : Pager}

theorem heeds_note {activity : Activity} (plain : ¬ activity.IsWriteBack) :
    Heeds marks pager (pager.note activity) :=
  @Heeds.of_noted marks pager (pager.note activity) [activity] (fun _ => id) rfl
    (by simpa using plain) rfl

theorem heeds_modifySpace
    {change : AddressSpace → AddressSpace} (pid : Pid)
    (same : ∀ space, (change space).table = space.table) :
    Heeds marks pager (pager.modifySpace pid change) :=
  .of_same (pager.shown_modifySpace_of_same pid fun space _ => by rw [same]) rfl rfl

theorem heeds_clear (pid : Pid) (va : Nat) :
    Heeds marks pager (pager.modifyTable pid fun table => table.clear va) := by
  refine .of_fewer (fun owner marked => ?_) rfl rfl
  rw [dirtyOf_clear] at marked
  by_cases here : owner = ⟨pid, pageBase va⟩
  · subst here
    simp at marked
  · rwa [Function.update_of_ne here] at marked

/-- A page that is written back is marked. -/
theorem heeds_writeBack (owner : Owner) (range : FileRange) (frame : Nat) :
    Heeds marks pager (pager.writeBack owner range frame) := by
  cases dirty : (pager.table owner.pid).isDirty owner.va with
  | false =>
      rw [writeBack_of_clean dirty]
      exact .refl pager
  | true =>
      rw [writeBack_of_dirty dirty]
      refine ⟨fun other marked => Or.inl ?_, [_], rfl, fun other _ _ member => Or.inl ?_, ?_⟩
      · rw [isMarked_iff] at marked ⊢
        change (pager.modifyTable owner.pid fun table => table.setDirty owner.va false).dirtyOf _ =
          some true at marked
        rw [dirtyOf_setDirty] at marked
        by_cases here : (⟨other.pid, pageBase other.va⟩ : Owner) = ⟨owner.pid, pageBase owner.va⟩
        · rw [here, Function.update_self] at marked
          cases bit : pager.dirtyOf ⟨owner.pid, pageBase owner.va⟩ <;> simp [bit] at marked
        · rwa [Function.update_of_ne here] at marked
      · cases List.mem_singleton.mp member
        exact dirty
      · show ChangedWithin _ pager.files.content (pager.written range frame).1.content
        rw [written, FileTable.content_writeAt]
        split
        · rename_i succeeded
          exact .overwritten ⟨owner, by simp [succeeded]⟩ (size_slice_le ..)
        · exact .of_same rfl

end Pager

/-! ## Rules for programs -/

namespace PagerM

open Pager

/-- However a program ends, it heeded the dirty bits. -/
def heeding {α : Type} (marks : Owner → Prop) (before : Pager) : Ending α :=
  ⟨fun _ => Heeds marks before, fun _ => Heeds marks before, fun _ => Heeds marks before⟩

/-- A program that heeds the dirty bits wherever it starts, but for pages of some kind. -/
def IsHeedful {α : Type} (program : PagerM α) (marks : Owner → Prop) : Prop :=
  ∀ before, program.Meets before (heeding marks before)

variable {α β : Type} {marks : Owner → Prop} {before middle : Pager} {program : PagerM α}
  {next : α → PagerM β}

theorem heeding_rebase
    (meets : program.Meets middle (heeding marks middle)) (heeds : Heeds marks before middle) :
    program.Meets middle (heeding marks before) :=
  meets.mono (fun _ _ => heeds.trans) (fun _ _ => heeds.trans) fun _ _ => heeds.trans

theorem heeding_mono
    {more : Owner → Prop} (meets : program.Meets before (heeding marks before))
    (fewer : ∀ owner, marks owner → more owner) : program.Meets before (heeding more before) :=
  meets.mono (fun _ _ heeds => heeds.mono fewer) (fun _ _ heeds => heeds.mono fewer)
    fun _ _ heeds => heeds.mono fewer

/-- A program may go on from each state that it reaches. -/
theorem heeding_bind
    (first : program.Meets before
      ⟨fun answer middle => Heeds marks before middle ∧ (next answer).Meets middle (heeding marks middle),
        fun _ => Heeds marks before, fun _ => Heeds marks before⟩) :
    (program >>= next).Meets before (heeding marks before) :=
  (meets_bind ..).mpr (first.mono
    (fun _ _ ⟨heeds, rest⟩ => heeding_rebase rest heeds) (fun _ _ => id) fun _ _ => id)

theorem heedful_bind
    (first : program.IsHeedful marks) (rest : ∀ answer, (next answer).IsHeedful marks) :
    (program >>= next).IsHeedful marks := fun before =>
  heeding_bind ((first before).mono (fun answer middle heeds => ⟨heeds, rest answer middle⟩)
    (fun _ _ => id) fun _ _ => id)

theorem heedful_attempt (heedful : program.IsHeedful marks) : (attempt program).IsHeedful marks :=
  fun before => (meets_attempt ..).mpr (heedful before)

/-- A program may look at the state that it starts in. -/
theorem heedful_get {next : Pager → PagerM β}
    (rest : ∀ pager, (next pager).Meets pager (heeding marks pager)) :
    (get >>= next).IsHeedful marks :=
  fun before => (meets_bind ..).mpr (rest before)

theorem heedful_modify {change : Pager → Pager} (heeds : ∀ pager, Heeds marks pager (change pager)) :
    IsHeedful (modify change) marks :=
  heeds

/-! ## Programs that only look -/

/-- A program that leaves every state as it is. -/
def IsStill {α : Type} (program : PagerM α) : Prop :=
  ∀ before, program.Meets before
    ⟨fun _ after => after = before, fun _ after => after = before, fun _ after => after = before⟩

theorem IsStill.heedful (still : program.IsStill) : program.IsHeedful marks := fun before =>
  (still before).mono (fun _ _ same => same ▸ .refl before) (fun _ _ same => same ▸ .refl before)
    fun _ _ same => same ▸ .refl before

theorem still_bind (first : program.IsStill) (rest : ∀ answer, (next answer).IsStill) :
    (program >>= next).IsStill := fun before =>
  (meets_bind ..).mpr ((first before).mono (fun answer _ same => same ▸ rest answer before)
    (fun _ _ => id) fun _ _ => id)

theorem still_get {next : Pager → PagerM β} (rest : ∀ pager, (next pager).IsStill) :
    (get >>= next).IsStill :=
  fun before => (meets_bind ..).mpr (rest before before)

/-- A program that only looks may come first. -/
theorem heeding_after_look
    (still : program.IsStill) (rest : ∀ answer, (next answer).Meets before (heeding marks before)) :
    (program >>= next).Meets before (heeding marks before) :=
  (meets_bind ..).mpr ((still before).mono (fun answer _ same => same ▸ rest answer)
    (fun _ _ same => same ▸ .refl before) fun _ _ same => same ▸ .refl before)

theorem still_pure (answer : α) : (pure answer : PagerM α).IsStill :=
  fun _ => rfl

theorem still_fail (error : PagingError) : (fail error : PagerM α).IsStill :=
  fun _ => rfl

theorem still_deny (va : Nat) (reason : AccessViolation) : (deny va reason : PagerM α).IsStill :=
  fun _ => rfl

theorem still_halt (reason : Halt) : (halt reason : PagerM α).IsStill :=
  fun _ => rfl

theorem still_insist (holds : Bool) (assertion : Assertion) : (insist holds assertion).IsStill := by
  cases holds with
  | true => exact still_pure ()
  | false => exact still_halt _

theorem still_checkIndex (index length : Nat) : (checkIndex index length).IsStill := by
  unfold checkIndex
  split
  · exact still_pure ()
  · exact still_halt _

theorem still_checkRange (start stop length : Nat) : (checkRange start stop length).IsStill := by
  unfold checkRange
  split
  · exact still_pure ()
  · exact still_halt _

theorem still_addWords (left right : Nat) : (addWords left right).IsStill := by
  refine still_get fun pager => ?_
  split
  · exact still_halt _
  · exact still_pure _

theorem still_subtractWords (minuend subtrahend : Nat) : (subtractWords minuend subtrahend).IsStill := by
  refine still_get fun pager => ?_
  split
  · exact still_halt _
  · exact still_pure _

end PagerM

namespace Pager

open PagerM

theorem still_requireSpace (pid : Pid) : (requireSpace pid).IsStill := by
  refine still_get fun pager => ?_
  split
  · exact still_pure _
  · exact still_fail _

theorem still_checkUserAddress (va : Nat) : (checkUserAddress va).IsStill := by
  unfold checkUserAddress
  split
  · exact still_deny _ _
  · refine still_get fun pager => ?_
    split
    · exact still_deny _ _
    · exact still_pure ()

theorem still_chunkAddress (va done : Nat) : (chunkAddress va done).IsStill := by
  unfold chunkAddress
  split
  · exact still_pure _
  · exact still_deny _ _

theorem still_checkFrame (frame : Nat) : (checkFrame frame).IsStill :=
  still_get fun _ => still_checkIndex _ _

theorem still_frameOwner (frame : Nat) : (frameOwner frame).IsStill :=
  still_bind (still_checkFrame frame) fun _ => still_get fun _ => still_pure _

theorem still_checkBytes (frame : Nat) : (checkBytes frame).IsStill :=
  still_get fun _ => still_checkRange _ _ _

theorem still_frameImage (frame : Nat) : (frameImage frame).IsStill :=
  still_bind (still_checkBytes frame) fun _ => still_get fun _ => still_pure _

theorem still_checkPhysical (address length : Nat) : (checkPhysical address length).IsStill :=
  still_bind (still_insist _ _) fun _ => still_get fun _ => still_checkRange _ _ _

theorem still_checkSlot (slot : Nat) : (checkSlot slot).IsStill :=
  still_get fun _ => still_bind (still_checkIndex _ _) fun _ => still_insist _ _

theorem still_checkEmptied (kind : PageKind) (fetched : Fetched) :
    (checkEmptied kind fetched).IsStill := by
  unfold checkEmptied
  split
  · exact still_checkSlot _
  · exact still_pure ()

variable {marks : Owner → Prop}

/-! ## Frames -/

theorem heedful_modifyFrames (change : FramePool → FramePool) :
    IsHeedful (modify fun pager => pager.modifyFrames change) marks :=
  heedful_modify fun _ => .of_same rfl rfl rfl

theorem heedful_assignFrame (frame : Nat) (owner : Owner) : (assignFrame frame owner).IsHeedful marks :=
  heedful_bind (still_checkFrame frame).heedful fun _ => heedful_modifyFrames _

theorem heedful_releaseFrame (frame : Nat) : (releaseFrame frame).IsHeedful marks :=
  heedful_bind (still_frameOwner frame).heedful fun _ =>
    heedful_bind (still_insist _ _).heedful fun _ => heedful_modifyFrames _

theorem heedful_pinFrame (frame : Nat) : (pinFrame frame).IsHeedful marks :=
  heedful_bind (still_checkFrame frame).heedful fun _ => heedful_modifyFrames _

theorem heedful_unpinFrame (frame : Nat) : (unpinFrame frame).IsHeedful marks :=
  heedful_bind (still_checkFrame frame).heedful fun _ => heedful_modifyFrames _

theorem heedful_reopenFile (file : FileId) : (reopenFile file).IsHeedful marks := fun pager =>
  (meets_reopenFile ..).mpr (.of_same rfl rfl (pager.files.content_reopen file))

/-! ## Pages that lose their frames -/

theorem heedful_saveToFile (owner : Owner) (range : FileRange) (frame : Nat) :
    (saveToFile owner range frame).IsHeedful marks := by
  refine heedful_get fun pager => ?_
  split
  · exact heedful_bind (still_checkBytes frame).heedful (fun _ =>
      heedful_bind (still_checkRange _ _ _).heedful fun _ =>
        heedful_modify fun _ => heeds_writeBack ..) pager
  · exact (still_pure ()).heedful pager

theorem heedful_giveBackSlot (slot : Nat) : (giveBackSlot slot).IsHeedful marks :=
  heedful_bind (still_checkSlot slot).heedful fun _ => heedful_modify fun _ => .of_same rfl rfl rfl

theorem heedful_swapOut (owner : Owner) (frame : Nat) : (swapOut owner frame).IsHeedful marks := by
  refine heedful_get fun pager => ?_
  split
  · exact (still_fail _).heedful pager
  · rename_i slot reserved _
    refine heeding_after_look (still_frameImage frame) fun image => ?_
    have noted (stored : SwapSpace) : Heeds marks pager ({ pager with swap := stored }.note
        (.swapped owner .write slot (reserved.used.get slot) (stored.transfersSince reserved))) := by
      have kept : Heeds marks pager { pager with swap := stored } := .of_same rfl rfl rfl
      exact kept.trans (heeds_note id)
    dsimp only
    split
    · rw [meets_bind, meets_set]
      exact (noted _).trans (.of_same rfl rfl rfl)
    · rw [meets_bind, meets_set]
      exact heeding_rebase (heedful_bind (heedful_giveBackSlot slot)
        (fun _ => (still_fail _).heedful) _) (noted _)

theorem heeds_modifyPage (pager : Pager) (pid : Pid) (va : Nat) (change : Page → Page) :
    Heeds marks pager (pager.modifyPage pid va change) :=
  .of_same (dirtyOf_modifyPage va change) rfl rfl

theorem heedful_saveContent (pid : Pid) (page : Page) (frame : Nat) :
    (saveContent pid page frame).IsHeedful marks := by
  unfold saveContent
  split
  · exact (still_fail _).heedful
  · exact heedful_bind (still_insist _ _).heedful fun _ => heedful_bind (heedful_swapOut _ _) fun _ =>
      heedful_modify fun _ => heeds_modifyPage ..
  · exact heedful_saveToFile _ _ _

theorem heeds_detached (pager : Pager) (owner : Owner) : Heeds marks pager (pager.detached owner) :=
  (heeds_clear owner.pid owner.va).trans (heeds_modifyPage ..)

theorem heedful_sendOut (pid : Pid) (page : Page) : (sendOut pid page).IsHeedful marks := by
  unfold sendOut
  split
  · exact (still_fail _).heedful
  · exact heedful_bind (heedful_saveContent _ _ _) fun _ =>
      heedful_bind (heedful_modify fun pager => pager.heeds_detached _) fun _ => (still_pure _).heedful

theorem heedful_note {activity : Pager → Activity} (plain : ∀ pager, ¬ (activity pager).IsWriteBack) :
    IsHeedful (modify fun pager => pager.note (activity pager)) marks :=
  heedful_modify fun pager => heeds_note (plain pager)

theorem heedful_evict (victim : Nat) : (evict victim).IsHeedful marks := by
  refine heedful_bind (still_frameOwner victim).heedful fun owned => ?_
  split
  · exact (still_fail _).heedful
  · refine heedful_bind (still_requireSpace _).heedful fun space => ?_
    split
    · exact (still_fail _).heedful
    · exact heedful_bind (heedful_sendOut _ _) fun _ =>
        heedful_bind (heedful_modify fun _ => .of_same rfl rfl rfl) fun _ =>
          heedful_bind (heedful_note fun _ => by exact id) fun _ => (still_pure _).heedful

theorem heedful_selectVictim : selectVictim.IsHeedful marks := by
  refine heedful_get fun pager => ?_
  dsimp only
  split
  · exact (still_halt _).heedful pager
  · simp only [meets_bind, meets_set, meets_pure]
    exact Heeds.of_same pager.dirtyOf_selected pager.journal_selected
      (congrArg FileTable.content pager.files_selected)

theorem heedful_acquireFrame (owner : Owner) : (acquireFrame owner).IsHeedful marks := by
  refine heedful_get fun pager => ?_
  split
  · rename_i frame frames _
    refine heeding_after_look (still_checkFrame frame) fun _ => ?_
    rw [meets_bind, meets_set]
    have taken : Heeds marks pager { pager with frames := frames } := .of_same rfl rfl rfl
    exact taken.trans (heeds_note id)
  · refine heedful_bind heedful_selectVictim (fun chosen => ?_) pager
    split
    · exact (still_halt _).heedful
    · refine heedful_bind (heedful_attempt (heedful_evict _)) fun outcome => ?_
      split
      · exact (still_halt _).heedful
      · exact heedful_bind (heedful_assignFrame _ _) fun _ =>
          heedful_bind (heedful_note fun _ => by exact id) fun _ => (still_pure _).heedful

/-! ## Pages that get frames -/

theorem heeds_putFetched
    (pager : Pager) (owner : Owner) (kind : PageKind) (frame : Nat) (image : Image) :
    Heeds marks pager
      (pager.putFetched owner kind frame (kind.fetch pager.swap pager.files image)) := by
  have loaded (other : Pager) (fetched : Fetched) :
      Heeds marks other (other.noteLoad owner kind fetched) := by
    unfold noteLoad
    split
    · exact heeds_note (by exact id)
    · exact .refl other
  have transferred (other : Pager) (before : SwapSpace) :
      Heeds marks other (other.noteTransfers owner kind before) := by
    unfold noteTransfers
    split
    · exact heeds_note (by exact id)
    · exact .refl other
  unfold putFetched
  dsimp only
  generalize filledIs : ({ pager with
    swap := (kind.fetch pager.swap pager.files image).swap
    files := (kind.fetch pager.swap pager.files image).files
    frames := pager.frames.setImage frame (kind.fetch pager.swap pager.files image).image } :
      Pager) = filled
  have fills : Heeds marks pager filled := by
    subst filledIs
    exact .of_same rfl rfl (kind.content_fetch pager.swap pager.files image)
  exact fills.trans ((transferred _ _).trans ((loaded _ _).trans (heeds_note id)))

theorem heedful_bringIn (pid : Pid) (va : Nat) : (bringIn pid va).IsHeedful marks := by
  refine heedful_get fun pager => ?_
  split
  · exact (still_deny _ _).heedful pager
  · rename_i page _
    split
    · exact (still_fail _).heedful pager
    · refine heeding_after_look (still_frameImage _) fun image => ?_
      refine heeding_after_look (still_checkRange _ _ _) fun _ => ?_
      refine heeding_after_look (still_checkEmptied _ _) fun _ => ?_
      rw [meets_bind, meets_set]
      refine heeding_rebase ?_ (heeds_putFetched pager ..)
      split
      · exact (still_fail _).heedful _
      · rw [meets_modify]
        exact (heeds_modifyPage _ pid va _).trans (.of_same rfl rfl rfl)

theorem heedful_attach (pid : Pid) (va frame : Nat) : (attach pid va frame).IsHeedful marks := by
  have returned {α : Type} (error : PagingError) :
      (releaseFrame frame >>= fun _ => fail error : PagerM α).IsHeedful marks :=
    heedful_bind (heedful_releaseFrame frame) fun _ => (still_fail error).heedful
  refine heedful_get fun pager => ?_
  split
  · exact returned _ pager
  · rename_i space found
    split
    · exact returned _ pager
    · split
      · exact returned _ pager
      · rename_i table installed
        have attached : Heeds marks pager (pager.attached ⟨pid, va⟩ frame table) := by
          refine .of_fewer (fun owner marked => ?_) rfl rfl
          have entered := dirtyOf_install found installed
          rw [attached, dirtyOf_modifyPage, entered] at marked
          by_cases here : owner = ⟨pid, pageBase va⟩
          · rw [here, Function.update_self] at marked
            cases marked
          · rwa [Function.update_of_ne here] at marked
        rw [meets_bind, meets_modify]
        refine heeding_rebase ?_ attached
        refine heedful_bind (heedful_attempt (heedful_bringIn pid va)) (fun outcome => ?_) _
        split
        · exact heedful_bind (heedful_modify fun other => other.heeds_detached _) fun _ => returned _
        · exact heedful_unpinFrame frame

end Pager

end DemandPaging
