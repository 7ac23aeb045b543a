import DemandPaging.Proofs.Flushing
import DemandPaging.Proofs.History

/-!
# Where files change

A call changes bytes of files only in the ranges of pages of mapped files that may be written, and no
length. Pages in frames are the only ones that reach their files, and no call claims a page over a range
that it brings itself.
-/

namespace DemandPaging

/-! ## Changes within ranges -/

/-- Whether a byte of a file lies in a range. -/
def FileRange.Covers (range : FileRange) (file : FileId) (index : Nat) : Prop :=
  range.file = file ∧ range.offset ≤ index ∧ index < range.offset + range.length

/-- Contents of files that have the same lengths and differ in ranges of some kind only. -/
structure ChangedWithin (ranges : FileRange → Prop) (old new : FileId → Array UInt8) : Prop where
  size : ∀ file, (new file).size = (old file).size
  covered : ∀ file index, (new file)[index]? ≠ (old file)[index]? →
    ∃ range, ranges range ∧ range.Covers file index

namespace ChangedWithin

variable {ranges : FileRange → Prop} {old middle new : FileId → Array UInt8}

theorem of_same (same : new = old) : ChangedWithin ranges old new := by
  subst same
  exact ⟨fun _ => rfl, fun _ _ changed => absurd rfl changed⟩

theorem trans (first : ChangedWithin ranges old middle) (second : ChangedWithin ranges middle new) :
    ChangedWithin ranges old new where
  size file := (second.size file).trans (first.size file)
  covered file index changed := by
    by_cases same : (new file)[index]? = (middle file)[index]?
    · exact first.covered file index (same ▸ changed)
    · exact second.covered file index same

/-- Bytes that are put over a range are inside it. -/
theorem overwritten {range : FileRange} {bytes : Array UInt8} (good : ranges range)
    (fits : bytes.size ≤ range.length) :
    ChangedWithin ranges old (Function.update old range.file
      (overwritten (old range.file) range.offset bytes)) where
  size file := by
    by_cases here : file = range.file
    · subst here
      rw [Function.update_self, size_overwritten]
    · rw [Function.update_of_ne here]
  covered file index changed := by
    by_cases here : file = range.file
    · subst here
      rw [Function.update_self, getElem?_overwritten] at changed
      refine ⟨range, good, rfl, ?_⟩
      by_contra outside
      apply changed
      cases (old range.file)[index]? with
      | none => rfl
      | some byte =>
          rw [Option.map_some]
          split
          · rw [Array.getD_eq_getD_getElem?, Array.getElem?_eq_none (by omega), Option.getD_none]
          · rfl
    · rw [Function.update_of_ne here] at changed
      exact absurd rfl changed

/-- A file that no range is of keeps its content. -/
theorem same_of_uncovered (within : ChangedWithin ranges old new) {file : FileId}
    (uncovered : ∀ range, ranges range → range.file ≠ file) : new file = old file := by
  apply Array.ext_getElem?
  intro index
  by_contra changed
  obtain ⟨range, good, same, _⟩ := within.covered file index changed
  exact uncovered range good same

end ChangedWithin

/-- Deeds that may take a page out of its frame. -/
def Deed.Displaces (deed : Deed) (owner : Owner) (page : Page) : Prop :=
  deed = .discarded owner page ∨ ∃ other, deed = .claimed other ∨ deed = .missed other

namespace Pager

variable {allowed : Deed → Prop} {before after pager : Pager} {owner : Owner} {page : Page}
  {range : FileRange} {frame : Nat} {deed : Deed} {pid : Pid}

/-- Whether a page that may be written has its content in a range. -/
def Backs (pager : Pager) (range : FileRange) : Prop :=
  ∃ owner page, pager.pageOf owner = some page ∧ page.kind.mapped? = some range ∧
    page.writable = true

/-! ## What runs do to files -/

theorem size_slice_le (image : Image) (length : Nat) : (image.slice 0 length).size ≤ length := by
  simp only [Image.slice, Array.size_extract]
  omega

/-- A page that gives up its frame reaches its range only, and only if it was changed. -/
theorem Flushed.changedWithin
    {ranges : FileRange → Prop} (flushed : before.Flushed owner range frame after)
    (good : before.dirtyOf owner = some true → ranges range) :
    ChangedWithin ranges before.files.content after.files.content := by
  cases flushed with
  | clean unchanged same => exact .of_same same
  | lost changed same noted => exact .of_same same
  | written changed content =>
      rw [content]
      exact .overwritten (good changed) (size_slice_le ..)

/-- A turn reaches files only through pages in frames that may be written, and only if it may take them
out of their frames. -/
theorem Turn.changedWithin
    {ranges : FileRange → Prop} (turn : Turn deed before after) (sound : before.ledger.Sound none)
    (tidy : before.Tidy)
    (good : ∀ {owner page range frame}, before.ledger.Loaded owner page range frame →
      page.writable = true → deed.Displaces owner page → ranges range) :
    ChangedWithin ranges before.files.content after.files.content := by
  cases turn.settles sound tidy with
  | still same stay => exact .of_same same
  | flushed loaded flushed leaves stay =>
      rename_i victim page range frame
      refine flushed.changedWithin fun changed => ?_
      obtain ⟨old, present, writable⟩ := tidy.marked victim changed
      rw [loaded.present] at present
      cases present
      refine good loaded writable ?_
      by_contra kept
      exact leaves ((turn.step sound).unmoved loaded.present (fun discarded => kept (Or.inl discarded))
        fun other => ⟨fun claimed => kept (Or.inr ⟨other, Or.inl claimed⟩),
          fun missed => kept (Or.inr ⟨other, Or.inr missed⟩)⟩)

theorem Runs.changedWithin
    {ranges : FileRange → Prop} (runs : Runs allowed before after) (sound : before.ledger.Sound none)
    (tidy : before.Tidy)
    (good : ∀ {middle owner page range frame deed}, Runs allowed before middle →
      middle.ledger.Loaded owner page range frame → page.writable = true → allowed deed →
        deed.Displaces owner page → ranges range) :
    ChangedWithin ranges before.files.content after.files.content := by
  induction runs with
  | refl => exact .of_same rfl
  | tail runs permitted turn inductionHypothesis =>
      exact inductionHypothesis.trans (turn.changedWithin (runs.sound sound) (runs.tidy sound tidy)
        fun loaded writable => good runs loaded writable permitted)

/-- A page after a run is the one that was there before, or one that was reserved there, as it went on. -/
theorem Runs.origin
    {new : Page} (runs : Runs allowed before after) (sound : before.ledger.Sound none)
    (present : after.ledger.pages owner = some new) :
    (∃ old, before.ledger.pages owner = some old ∧ new.Continues old) ∨
      ∃ laid, allowed (.reserved owner laid) ∧ new.Continues laid := by
  induction runs generalizing new with
  | refl => exact Or.inl ⟨new, present, .refl new⟩
  | @tail middle after deed runs permitted turn inductionHypothesis =>
      by_cases reserved : deed = .reserved owner new
      · exact Or.inr ⟨new, reserved ▸ permitted, .refl new⟩
      · obtain ⟨meanwhile, presentThen, continues⟩ :=
          (turn.step (runs.sound sound)).continued present reserved
        rcases inductionHypothesis presentThen with
          ⟨old, presentOld, earlier⟩ | ⟨laid, permits, earlier⟩
        · exact Or.inl ⟨old, presentOld, continues.trans earlier⟩
        · exact Or.inr ⟨laid, permits, continues.trans earlier⟩

/-- Where no page may be claimed the pages in frames were there before. -/
theorem Runs.loaded_before
    (runs : Runs allowed before after) (sound : before.ledger.Sound none)
    (unclaimed : ∀ owner, ¬ allowed (.claimed owner))
    (loaded : after.ledger.Loaded owner page range frame) :
    before.ledger.Loaded owner page range frame := by
  induction runs with
  | refl => exact loaded
  | tail runs permitted turn inductionHypothesis =>
      have present := (turn.step (runs.sound sound)).resident_of loaded.present loaded.resident
        fun claimed => unclaimed owner (claimed ▸ permitted)
      exact inductionHypothesis ⟨present, loaded.file, loaded.resident⟩

end Pager

/-! ## What calls do to files -/

namespace Call

/-- Whether a call brings pages that may be written over a file. -/
def Exposes : Call → FileId → Prop
  | map _ _ _ writable file _, other => writable = true ∧ file = other
  | allocateLazily _ _ writable (.mapped range), other => writable = true ∧ range.file = other
  | _, _ => False

variable {call : Call} {before : Pager} {owner : Owner} {page : Page} {range : FileRange}

/-- A call reserves pages that may write to files by copying pages of a parent, or else exposes the file
and claims no page. -/
theorem Permits.reserved
    (permits : call.Permits before (.reserved owner page)) (mapped : page.kind.mapped? = some range)
    (writable : page.writable = true) :
    (∃ parent original, call = .fork parent owner.pid ∧
      before.ledger.pages ⟨parent, owner.va⟩ = some original ∧ page.Alike original) ∨
        call.Exposes range.file ∧ ∀ other, ¬ call.Permits before (.claimed other) := by
  have faults {pid : Pid} (faults : (Deed.reserved owner page).Faults pid) : False := by
    rw [faults.2] at mapped
    cases mapped
  rcases permits with does | ⟨_, _, ends⟩
  · cases call with
    | fork parent child =>
        obtain ⟨rfl, original, origin, alike⟩ := does
        exact Or.inl ⟨parent, original, rfl, origin, alike⟩
    | allocate pid type va writable =>
        obtain ⟨_, _, pending⟩ := does
        rw [pending] at mapped
        cases mapped
    | allocateLazily pid va mayWrite load =>
        obtain ⟨_, rfl, pending⟩ := does
        rw [pending] at mapped
        cases load with
        | mapped range =>
            cases mapped
            exact Or.inr ⟨⟨writable, rfl⟩, fun _ => by rintro (⟨⟨⟩⟩ | ⟨_, ⟨⟩, _⟩)⟩
        | _ => cases mapped
    | loadSegment pid file segment =>
        obtain ⟨_, zero | ⟨_, segment, _⟩⟩ := does
        · rw [zero] at mapped
          cases mapped
        · rw [segment] at mapped
          cases mapped
    | map pid base length mayWrite file offset =>
        obtain ⟨_, _, rfl, _, pending, rfl⟩ := does
        rw [pending] at mapped
        cases mapped
        exact Or.inr ⟨⟨writable, rfl⟩, fun _ => by rintro (⟨⟨⟩⟩ | ⟨_, ⟨⟩, _⟩)⟩
    | setupStack | claim | handlePageFault | readUser | writeUser => exact absurd does faults
    | unmap =>
        obtain ⟨_, _, withdraws⟩ := does
        exact absurd withdraws id
    | _ => cases does
  · exact absurd ends id

end Call

namespace Pager

open PagerM

variable {before after pager : Pager} {owner : Owner} {page : Page} {range : FileRange} {frame : Nat}
  {pid : Pid} {call : Call} {config : Config} {events : List Event}

/-- A page in a frame that may be written during a call is like one from before, at the same address of the
same process or of the parent that is copied. -/
theorem Runs.origin_of_loaded
    (runs : Runs (call.Permits before) before after) (sound : before.ledger.Sound none)
    (loaded : after.ledger.Loaded owner page range frame) (writable : page.writable = true) :
    ∃ source old, before.ledger.pages source = some old ∧ page.Alike old ∧
      (source = owner ∨ ∃ parent, call = .fork parent owner.pid ∧ source = ⟨parent, owner.va⟩) := by
  have mapped : page.kind.mapped? = some range := by rw [loaded.file]; rfl
  rcases runs.origin sound loaded.present with ⟨old, present, alike⟩ | ⟨laid, permits, alike⟩
  · exact ⟨owner, old, present, alike.toAlike, Or.inl rfl⟩
  · rcases permits.reserved (alike.mapped.symm.trans mapped) (alike.writable.symm.trans writable) with
      ⟨parent, original, forks, origin, like⟩ | ⟨_, unclaimed⟩
    · exact ⟨_, original, origin, alike.toAlike.trans like, Or.inr ⟨parent, forks, rfl⟩⟩
    · exact ⟨owner, page, (runs.loaded_before sound unclaimed loaded).present, .refl page, Or.inl rfl⟩

/-- Such a page has its content in a range that some page could write before. -/
theorem Runs.backs_of_loaded
    (runs : Runs (call.Permits before) before after) (sound : before.ledger.Sound none)
    (loaded : after.ledger.Loaded owner page range frame) (writable : page.writable = true) :
    before.Backs range := by
  obtain ⟨source, old, present, alike, _⟩ := runs.origin_of_loaded sound loaded writable
  refine ⟨source, old, present, ?_, alike.writable.symm.trans writable⟩
  rw [← alike.mapped, loaded.file]
  rfl

/-- Whatever comes of a call, it is a run, after which at most a store came to nothing. -/
theorem Orderly.runs_leaves (orderly : before.Orderly config events) (call : Call) :
    ∃ last, Runs (call.Permits before) before last ∧ last.Breaks (call.perform.leaves before) := by
  apply Meets.leaves fun after => ∃ last, Runs (call.Permits before) before last ∧ last.Breaks after
  by_cases admissible : call.IsAdmissible before.config
  · exact (meets_perform orderly.sound orderly.unpinned orderly.tidy call admissible).mono
      (fun _ after ⟨reaches, _⟩ => ⟨after, reaches.runs, .refl after⟩)
      (fun _ after ⟨reaches, _⟩ => ⟨after, reaches.runs, .refl after⟩) fun _ _ stops => stops.runs
  · exact (halts_of_not_admissible admissible).mono (fun _ _ => False.elim) (fun _ _ => False.elim)
      fun _ after same => ⟨before, .refl, same ▸ .refl after⟩

theorem Orderly.changedWithin (orderly : before.Orderly config events) (call : Call) :
    ChangedWithin before.Backs before.files.content (call.perform.leaves before).files.content := by
  obtain ⟨last, runs, breaks⟩ := orderly.runs_leaves call
  rw [breaks.files]
  exact runs.changedWithin orderly.sound orderly.tidy fun runs loaded writable _ _ =>
    runs.backs_of_loaded orderly.sound loaded writable

/-! ## Dirty bits and permissions -/

/-- Only entries that may be written are marked as changed. -/
theorem writable_of_dirty
    {space : AddressSpace} {va : Nat} {entry : PageEntry} (sound : pager.ledger.Sound none)
    (tidy : pager.Tidy) (found : pager.space? pid = some space)
    (entered : space.table.entries[va]? = some entry) (dirty : entry.dirty = true) :
    entry.writable = true ∧ ∃ page, pager.pageOf ⟨pid, va⟩ = some page ∧ page.writable = true := by
  have changed : pager.dirtyOf ⟨pid, va⟩ = some true := by
    rw [dirtyOf, ← shown_of_space _ found, PageTable.dirty?, entered, Option.map_some, dirty]
  have translated : pager.ledger.translations ⟨pid, va⟩ = some ⟨entry.base, entry.writable⟩ := by
    rw [← translation?_of_space found, PageTable.translation?, entered, Option.map_some]
  obtain ⟨page, present, writable⟩ := tidy.marked _ changed
  obtain ⟨same, frame, presentThen, resident⟩ := sound.frames.page_of_translation _ _ translated
  rw [present] at presentThen
  cases presentThen
  have same := sound.frames.translation_of_page _ page frame present resident
  rw [translated] at same
  exact ⟨(congrArg Translation.writable (Option.some.inj same)).trans writable, page, present,
    writable⟩

/-- The files when a page left its frame. -/
def savedFiles (pager : Pager) (owner : Owner) (page : Page) : FileTable :=
  match page.kind, page.frame with
  | .file range, some frame => (pager.writeBack owner range frame).files
  | _, _ => pager.files

theorem files_sendOut
    (sound : before.ledger.Sound none) (present : before.pageOf ⟨pid, page.va⟩ = some page) :
    ((sendOut pid page).leaves before).files = before.savedFiles ⟨pid, page.va⟩ page := by
  apply Meets.leaves fun after => after.files = before.savedFiles ⟨pid, page.va⟩ page
  unfold savedFiles
  cases resident : page.frame with
  | none =>
      simp only [sendOut, resident, PagerM.reject, meets_fail]
      cases page.kind <;> rfl
  | some frame =>
      have houses := sound.houses present resident
      cases kind : page.kind with
      | file range =>
          have fits := houses.fits
          rw [kind] at fits
          simp only [sendOut, resident, saveContent, kind, meets_bind,
            meets_saveToFile houses.inside fits, meets_modify, meets_pure]
          rfl
      | pending load => exact absurd kind (houses.initialized load)
      | anonymous slot =>
          refine (meets_sendOut houses).mono ?_ (fun _ _ stuck => stuck.2.files) fun _ _ => False.elim
          rintro _ _ ⟨_, saved, saves, rfl⟩
          cases saves with
          | toSlot => rfl
          | toFile file =>
              rw [kind] at file
              cases file

theorem content_discardPage
    (sound : before.ledger.Sound none) (tidy : before.Tidy)
    (present : before.pageOf ⟨pid, page.va⟩ = some page) :
    ((discardPage pid page).leaves before).files.content =
      (before.savedFiles ⟨pid, page.va⟩ page).content := by
  apply Meets.leaves fun after =>
    after.files.content = (before.savedFiles ⟨pid, page.va⟩ page).content
  rw [meets_discardPage sound present]
  refine (content_released ..).trans ?_
  by_cases held : ∃ range frame, before.ledger.Loaded ⟨pid, page.va⟩ page range frame
  · obtain ⟨range, frame, loaded⟩ := held
    simp only [discardSaved, savedFiles, loaded.file, loaded.resident, files_writeBack]
    split
    · rw [files_writeBack]
      rfl
    · rename_i readOnly
      have unchanged := unchanged_of_readOnly tidy present (Bool.eq_false_iff.mpr readOnly)
      have clean := mt (@isDirty_iff before ⟨pid, page.va⟩
        (sound.placed _ page present).aligned).mp unchanged
      rw [if_neg clean]
      rfl
  · rw [discardSaved_of_not_loaded present held]
    unfold savedFiles
    split
    · rename_i range frame file resident
      exact absurd ⟨range, frame, present, file, resident⟩ held
    · rfl

/-- A page that is sent out and one that is discarded leave the same in their file. -/
theorem content_sendOut_eq_discardPage
    (sound : before.ledger.Sound none) (tidy : before.Tidy)
    (present : before.pageOf ⟨pid, page.va⟩ = some page) :
    ((sendOut pid page).leaves before).files.content =
      ((discardPage pid page).leaves before).files.content := by
  rw [files_sendOut sound present, content_discardPage sound tidy present]

end Pager

/-! ## Histories -/

section Laws

variable {config : Config} {kind : PolicyKind} {device : Device} {files : FileTable}
  {events : List Event} {before pager : Pager}

/-- Without a call that exposes a file no page may write to it. -/
theorem History.unexposed
    {file : FileId} (history : History config kind device files events pager)
    (unexposed : ∀ event ∈ events, ¬ event.call.Exposes file) {range : FileRange}
    (backs : pager.Backs range) : range.file ≠ file := by
  induction history with
  | start =>
      obtain ⟨owner, page, present, _⟩ := backs
      simp [Pager.pageOf, Pager.shown, Pager.space?, Pager.create] at present
  | @call event events before after earlier run noted inductionHypothesis =>
      have orderly := earlier.orderly
      have unexposedBefore := inductionHypothesis fun other member =>
        unexposed other (List.mem_cons_of_mem event member)
      obtain ⟨owner, page, present, mapped, writable⟩ := backs
      rcases (orderly.performs run).1.runs.origin orderly.sound present with
        ⟨old, presentOld, alike⟩ | ⟨laid, permits, alike⟩
      · exact unexposedBefore ⟨owner, old, presentOld, alike.mapped.symm.trans mapped,
          alike.writable.symm.trans writable⟩
      · rcases permits.reserved (alike.mapped.symm.trans mapped)
          (alike.writable.symm.trans writable) with ⟨_, original, _, origin, like⟩ | ⟨exposes, _⟩
        · have alike := alike.toAlike.trans like
          exact unexposedBefore ⟨_, original, origin, alike.mapped.symm.trans mapped,
            alike.writable.symm.trans writable⟩
        · rintro rfl
          exact unexposed event List.mem_cons_self exposes
  | outside _ same inductionHypothesis => exact inductionHypothesis unexposed backs

/-- Whatever is called in a state of a history, and however the call ends, files change only in the ranges
of pages of mapped files that may be written. -/
theorem files_change_where_mapped_writable
    (history : History config kind device files events before) (call : Call) :
    (∀ file, ((call.perform.leaves before).files.content file).size = (before.files.content file).size) ∧
    (∀ file index, ((call.perform.leaves before).files.content file)[index]? ≠
        (before.files.content file)[index]? →
      ∃ owner page range, before.pageOf owner = some page ∧ page.kind.mapped? = some range ∧
        page.writable = true ∧ range.Covers file index) ∧
    (∀ file, (∀ event ∈ events, ¬ event.call.Exposes file) →
      (call.perform.leaves before).files.content file = before.files.content file) ∧
    (∀ pid space va entry, before.space? pid = some space →
      space.table.entries[va]? = some entry → entry.dirty = true →
        entry.writable = true ∧
          ∃ page, before.pageOf ⟨pid, va⟩ = some page ∧ page.writable = true) ∧
    (∀ pid page, before.pageOf ⟨pid, page.va⟩ = some page →
      ((Pager.sendOut pid page).leaves before).files.content =
        ((Pager.discardPage pid page).leaves before).files.content) := by
  have orderly := history.orderly
  have within := orderly.changedWithin call
  refine ⟨within.size, fun file index changed => ?_, fun file unexposed => ?_, ?_, ?_⟩
  · obtain ⟨range, ⟨owner, page, present, mapped, writable⟩, covers⟩ :=
      within.covered file index changed
    exact ⟨owner, page, range, present, mapped, writable, covers⟩
  · exact within.same_of_uncovered fun range => history.unexposed unexposed
  · exact fun _ _ _ _ => Pager.writable_of_dirty orderly.sound orderly.tidy
  · exact fun _ _ => Pager.content_sendOut_eq_discardPage orderly.sound orderly.tidy

/-- A process with a page that may be written, mapped over a file of two bytes. -/
def mappedPage : List Call :=
  [.createProcess 1, .map 1 4096 2 true 0 0, .writeUser 1 4096 #[7]]

/-- Removing the mapping writes to the file, which stays as long as it was. -/
theorem files_change_where_mapped_writable_of_mapped_page :
    ∃ before : Pager,
      ((Call.unmap 1 4096).perform.leaves before).counters.writeBacks = 1 ∧
      (((Call.unmap 1 4096).perform.leaves before).files.content 0).size = 2 := by
  have ended : (((Pager.create { frameCount := 1 } .fifo (Device.blank .memory 0)
      ⟨#[.create .memory #[1, 2]]⟩).play [] mappedPage).any fun result =>
        decide (((Call.unmap 1 4096).perform.leaves result.2).counters.writeBacks = 1) &&
          decide ((result.2.files.content 0).size = 2)) = true := by
    decide +kernel
  obtain ⟨⟨events, before⟩, played, ended⟩ := (Option.any_eq_true ..).mp ended
  simp only [Bool.and_eq_true, decide_eq_true_eq] at ended
  obtain ⟨written, two⟩ := ended
  have sizes := (files_change_where_mapped_writable (History.start.play played) (.unmap 1 4096)).1
  exact ⟨before, written, (sizes 0).trans two⟩

end Laws

end DemandPaging
