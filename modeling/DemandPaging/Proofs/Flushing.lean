import DemandPaging.Proofs.Files
import DemandPaging.Proofs.Tidy

/-!
# Pages of files that give up their frames

A page of a file that gives up its frame leaves a trace in the file only if it was changed, and only in
its range. Nothing else that a turn does reaches the content of a file.
-/

namespace DemandPaging

theorem PageKind.content_fetch
    (kind : PageKind) (swap : SwapSpace) (files : FileTable) (image : Image) :
    (kind.fetch swap files image).files.content = files.content := by
  have unchanged {range : FileRange} {read : FileTable × Option (Array UInt8)}
      (done : files.readAt range.file range.offset range.length = read) :
      read.1.content = files.content := by
    rw [← done]
    exact files.content_readAt ..
  unfold fetch
  split
  · rfl
  · rfl
  · split
    · exact unchanged ‹_›
    · split
      · exact (FileTable.content_close ..).trans (unchanged ‹_›)
      · exact unchanged ‹_›
  · split <;> exact unchanged ‹_›
  · split <;> exact unchanged ‹_›
  · split <;> rfl

/-- A page of a mapped file is filled with what its range has, and zeros behind it. -/
theorem PageKind.image_fetch
    {kind : PageKind} {swap : SwapSpace} {files : FileTable} {image content : Image}
    {range : FileRange} (mapped : kind.mapped? = some range)
    (brings : (kind.fetch swap files image).Brings content) :
    content = Image.ofBytes
      ((files.content range.file).extract range.offset (range.offset + range.length)) := by
  obtain ⟨filled, complete⟩ := brings
  rcases kind with (_ | _ | _) | _ | _ <;> cases mapped
  all_goals
    rcases done : files.readAt range.file range.offset range.length with ⟨after, _ | bytes⟩
    · simp only [fetch, done, Option.isSome_none, Bool.false_eq_true] at complete
    · simp only [fetch, done] at filled
      rw [← filled, Image.zeroFrom_overlay, FileTable.readAt_eq_some (congrArg Prod.snd done)]

/-- A page of a file that is in a frame. -/
structure Ledger.Loaded (ledger : Ledger) (owner : Owner) (page : Page) (range : FileRange)
    (frame : Nat) : Prop where
  present : ledger.pages owner = some page
  file : page.kind = .file range
  resident : page.frame = some frame

/-- A page without a frame is another one. -/
theorem Ledger.Loaded.ne_of_absent
    {ledger : Ledger} {owner other : Owner} {page absentPage : Page} {range : FileRange} {frame : Nat}
    (loaded : ledger.Loaded owner page range frame) (present : ledger.pages other = some absentPage)
    (absent : absentPage.frame = none) : owner ≠ other := by
  rintro rfl
  have resident := loaded.resident
  rw [loaded.present] at present
  cases present
  rw [absent] at resident
  cases resident

namespace Pager

variable {before held last after : Pager} {owner other : Owner} {page : Page} {range : FileRange}
  {frame : Nat} {deed : Deed}

/-! ## Flushing one page -/

/-- What a page leaves in its file. -/
def flushedContent (before : Pager) (range : FileRange) (frame : Nat) : FileId → Array UInt8 :=
  Function.update before.files.content range.file
    (overwritten (before.files.content range.file) range.offset
      ((before.ledger.images frame).slice 0 range.length))

/-- What becomes of the content of a page that gives up its frame: a clean page leaves the file as it is
and a changed one is written to its range, unless the write fails. -/
inductive Flushed (before : Pager) (owner : Owner) (range : FileRange) (frame : Nat) (after : Pager) :
    Prop
  | clean (unchanged : before.dirtyOf owner ≠ some true)
      (same : after.files.content = before.files.content)
  | written (changed : before.dirtyOf owner = some true)
      (content : after.files.content = before.flushedContent range frame)
  | lost (changed : before.dirtyOf owner = some true)
      (same : after.files.content = before.files.content)
      (noted : ∃ later, after.journal = later ++ before.journal ∧
        .wroteBack owner range false ∈ later)

/-- Flushing is a matter of the files and the journal. -/
theorem Flushed.later
    (flushed : before.Flushed owner range frame last)
    (same : after.files.content = last.files.content)
    (noted : ∃ later, after.journal = later ++ last.journal) :
    before.Flushed owner range frame after := by
  cases flushed with
  | clean unchanged unwritten => exact .clean unchanged (same.trans unwritten)
  | written changed content => exact .written changed (same.trans content)
  | lost changed unwritten failed =>
      obtain ⟨earlier, notedEarlier, member⟩ := failed
      obtain ⟨later, notedLater⟩ := noted
      refine .lost changed (same.trans unwritten) ⟨later ++ earlier, ?_,
        List.mem_append_right later member⟩
      rw [notedLater, notedEarlier, List.append_assoc]

theorem Flushed.earlier
    (flushed : last.Flushed owner range frame after) (bits : last.dirtyOf = before.dirtyOf)
    (same : last.files.content = before.files.content)
    (images : last.ledger.images = before.ledger.images)
    (noted : ∃ earlier, last.journal = earlier ++ before.journal) :
    before.Flushed owner range frame after := by
  cases flushed with
  | clean unchanged unwritten => exact .clean (bits ▸ unchanged) (unwritten.trans same)
  | written changed content =>
      refine .written (bits ▸ changed) (content.trans ?_)
      rw [flushedContent, flushedContent, same, images]
  | lost changed unwritten failed =>
      obtain ⟨later, notedLater, member⟩ := failed
      obtain ⟨earlier, notedEarlier⟩ := noted
      refine .lost (bits ▸ changed) (unwritten.trans same) ⟨later ++ earlier, ?_,
        List.mem_append_left earlier member⟩
      rw [notedLater, notedEarlier, List.append_assoc]

theorem flushed_writeBack (aligned : pageBase owner.va = owner.va) :
    before.Flushed owner range frame (before.writeBack owner range frame) := by
  have bit := @isDirty_iff before owner aligned
  cases dirty : (before.table owner.pid).isDirty owner.va with
  | false =>
      refine .clean (fun changed => ?_) (by rw [writeBack_of_clean dirty])
      rw [bit.mpr changed] at dirty
      cases dirty
  | true =>
      have changed := bit.mp dirty
      have content : (before.writeBack owner range frame).files.content =
          (before.written range frame).1.content := by rw [files_writeBack, if_pos dirty]
      rw [written, FileTable.content_writeAt] at content
      split at content
      · exact .written changed content
      · rename_i failed
        refine .lost changed content ⟨[.wroteBack owner range false], ?_, List.mem_singleton_self _⟩
        rw [writeBack_of_dirty dirty, written, Bool.eq_false_iff.mpr failed]
        rfl

/-! ## What a turn does to files -/

/-- What happens to files and to the pages of files that are in frames: at most one of the pages gives up
its frame, and only that page reaches its file. -/
inductive Settles (before after : Pager) : Prop
  | still (same : after.files.content = before.files.content)
      (stay : ∀ {owner page range frame}, before.ledger.Loaded owner page range frame →
        after.ledger.pages owner = some page)
  | flushed {victim : Owner} {page : Page} {range : FileRange} {frame : Nat}
      (loaded : before.ledger.Loaded victim page range frame)
      (flushed : before.Flushed victim range frame after)
      (leaves : after.ledger.pages victim ≠ some page)
      (stay : ∀ {owner page range frame}, before.ledger.Loaded owner page range frame →
        owner ≠ victim → after.ledger.pages owner = some page)

theorem Settles.later
    (settles : Settles before last) (same : after.files.content = last.files.content)
    (noted : ∃ later, after.journal = later ++ last.journal)
    (pages : ∀ {owner page range frame}, before.ledger.Loaded owner page range frame →
      after.ledger.pages owner = last.ledger.pages owner) : Settles before after := by
  cases settles with
  | still unwritten stay => exact .still (same.trans unwritten) fun there => (pages there).trans (stay there)
  | flushed loaded flushed leaves stay =>
      refine .flushed loaded (flushed.later same noted) ?_ fun there apart =>
        (pages there).trans (stay there apart)
      rw [pages loaded]
      exact leaves

theorem Saves.flushed {saved : Pager}
    (saves : before.Saves owner page frame saved) (aligned : pageBase owner.va = owner.va)
    (file : page.kind = .file range) : before.Flushed owner range frame saved := by
  cases saves with
  | toSlot anonymous taken complete =>
      rw [file] at anonymous
      cases anonymous
  | toFile kind =>
      rw [file] at kind
      cases kind
      exact flushed_writeBack aligned

/-- Handing out a frame takes it from one page at most, and flushes that page. -/
theorem Acquires.settles
    (acquires : before.Acquires owner frame held) (sound : before.ledger.Sound none) :
    Settles before held := by
  have moves := acquires.moves sound
  have stay {victim : Owner} {victimPage : Page} (present : before.ledger.pages victim = some victimPage)
      (resident : victimPage.frame = some frame) {owner : Owner} {page : Page} {range : FileRange}
      {there : Nat} (loaded : before.ledger.Loaded owner page range there) (apart : owner ≠ victim) :
      held.ledger.pages owner = some page := by
    rcases moves.pages owner with same | ⟨old, _, presentOld, residentOld, _⟩
    · exact same.trans loaded.present
    · have owned := sound.owner_of_page presentOld residentOld
      rw [sound.owner_of_page present resident] at owned
      cases owned
      exact absurd rfl apart
  cases acquires with
  | free taken => exact .still rfl fun there => there.present
  | evicted full chosen present resident saves =>
      rename_i victim page saved
      have aligned := (sound.placed victim page present).aligned
      have same := congrArg FileTable.content before.files_selected
      cases kind : page.kind with
      | file range =>
          have flushed : before.Flushed victim range frame saved :=
            (saves.flushed aligned kind).earlier before.dirtyOf_selected same
              (by rw [before.ledger_selected]) ⟨[], before.journal_selected⟩
          refine .flushed ⟨present, kind, resident⟩ (flushed.later rfl ⟨[_, _], rfl⟩) ?_
            (stay present resident)
          have detached := congrArg Ledger.pages (@ledger_detached saved victim aligned)
          intro still
          have left := (congrFun detached victim).symm.trans still
          rw [Ledger.pages_setPage_self, Option.map_eq_some_iff] at left
          obtain ⟨old, _, rfl⟩ := left
          cases resident
      | pending load => exact absurd kind (sound.not_pending present resident load)
      | anonymous slot =>
          have unwritten : saved.files = before.selected.files := by
            cases saves with
            | toSlot anonymous taken complete => rfl
            | toFile file =>
                rw [kind] at file
                cases file
          have files := congrArg FileTable.content (unwritten.trans before.files_selected)
          refine .still files fun there => stay present resident there ?_
          rintro rfl
          have file := there.file
          have samePage := there.present
          rw [present] at samePage
          cases samePage
          rw [kind] at file
          cases file

theorem Arrives.content (arrives : held.Arrives owner frame after) :
    after.files.content = held.files.content := by
  cases arrives with
  | intro found present absent installed fetch complete =>
      rename_i space page table fetched kind
      have files := @files_putFetched (held.attached owner frame table) owner frame page.kind fetched
      refine (congrArg FileTable.content files).trans ?_
      rw [← fetch]
      exact page.kind.content_fetch ..

theorem Returns.content (returns : held.Returns owner frame after) :
    after.files.content = held.files.content := by
  cases returns with
  | intro found present absent installed fetch incomplete =>
      rename_i space page table fetched
      have files := @files_putFetched (held.attached owner frame table) owner frame page.kind fetched
      refine (congrArg FileTable.content files).trans ?_
      rw [← fetch]
      exact page.kind.content_fetch ..

/-! ## Discarding a page -/

/-- After a page was saved, discarding it reaches no file. -/
theorem content_released (pager : Pager) (owner : Owner) (page : Page) :
    ((((pager.discardSlot page).discardFrame owner page).closeHandle page).erasePage
      owner).files.content = pager.files.content :=
  @keeps_released _ owner page (fun pager => pager.files.content) (fun _ _ => rfl) (fun _ _ => rfl)
    (fun other => other.files.content_close) (fun _ => rfl) pager

/-- A page that may not be written is clean when it is discarded. -/
theorem unchanged_of_readOnly
    (tidy : before.Tidy) (present : before.ledger.pages owner = some page)
    (readOnly : page.writable = false) : before.dirtyOf owner ≠ some true := by
  intro changed
  obtain ⟨same, presentThen, writable⟩ := tidy.marked owner changed
  rw [present] at presentThen
  cases presentThen
  rw [readOnly] at writable
  cases writable

theorem flushed_discarded
    (sound : before.ledger.Sound none) (tidy : before.Tidy)
    (loaded : before.ledger.Loaded owner page range frame) :
    before.Flushed owner range frame (before.discarded owner page) := by
  have aligned := (sound.placed owner page loaded.present).aligned
  have saved : before.Flushed owner range frame ((before.note (.discarded owner page
      ((before.table owner.pid).isDirty owner.va))).discardSaved owner page) := by
    simp only [discardSaved, loaded.file, loaded.resident]
    split
    · exact (flushed_writeBack aligned).earlier rfl rfl rfl ⟨[_], rfl⟩
    · rename_i readOnly
      exact .clean (unchanged_of_readOnly tidy loaded.present (Bool.eq_false_iff.mpr readOnly)) rfl
  exact saved.later (content_released ..) ⟨[], journal_released ..⟩

/-- A page that is not in a frame, or not of a file, is not saved when it is discarded. -/
theorem discardSaved_of_not_loaded
    (present : before.ledger.pages owner = some page)
    (without : ¬ ∃ range frame, before.ledger.Loaded owner page range frame) :
    last.discardSaved owner page = last := by
  unfold discardSaved
  split
  · rename_i range frame file resident
    exact absurd ⟨range, frame, present, file, resident⟩ without
  · rfl

theorem settles_discarded
    (sound : before.ledger.Sound none) (tidy : before.Tidy)
    (present : before.ledger.pages owner = some page) :
    Settles before (before.discarded owner page) := by
  have pages := (ledger_discarded sound present).pages
  have stay {other : Owner} {old : Page} {range : FileRange} {frame : Nat}
      (loaded : before.ledger.Loaded other old range frame) (apart : other ≠ owner) :
      (before.discarded owner page).ledger.pages other = some old := by
    rw [pages, Function.update_of_ne apart]
    exact loaded.present
  by_cases held : ∃ range frame, before.ledger.Loaded owner page range frame
  · obtain ⟨range, frame, loaded⟩ := held
    refine .flushed loaded (flushed_discarded sound tidy loaded) ?_ stay
    rw [pages, Function.update_self]
    exact nofun
  · refine .still ?_ fun there => stay there ?_
    · have unsaved := @content_released
        ((before.note (.discarded owner page
          ((before.table owner.pid).isDirty owner.va))).discardSaved owner page) owner page
      refine unsaved.trans ?_
      rw [discardSaved_of_not_loaded present held]
      rfl
    · rintro rfl
      have same := there.present
      rw [present] at same
      cases same
      exact held ⟨_, _, there⟩

/-! ## Turns -/

theorem Turn.settles
    (turn : Turn deed before after) (sound : before.ledger.Sound none) (tidy : before.Tidy) :
    Settles before after := by
  have step := turn.step sound
  cases turn with
  | discarded present => exact settles_discarded sound tidy present
  | claimed present absent acquires arrives =>
      have moves := acquires.moves sound
      obtain ⟨held, presentThen⟩ := moves.sound sound present absent
      obtain ⟨_, _, arrived, _, _, noted⟩ := arrives.moves held presentThen
      obtain ⟨_, pages, _⟩ := arrived.pages
      refine (acquires.settles sound).later arrives.content ?_ fun there => ?_
      · exact ⟨_, by rw [noted, ← List.append_assoc, ← List.cons_append]⟩
      · rw [pages, Function.update_of_ne (there.ne_of_absent present absent)]
  | missed present absent acquires returns =>
      have moves := acquires.moves sound
      obtain ⟨held, presentThen⟩ := moves.sound sound present absent
      obtain ⟨returned, _, _, noted⟩ := returns.moves held presentThen
      refine (acquires.settles sound).later returns.content ?_ fun there => ?_
      · exact ⟨_, by rw [noted, ← List.cons_append]⟩
      · rw [returned.pages]
  | reopened _ file => exact .still (before.files.content_reopen file) fun there => there.present
  | closed _ file => exact .still (before.files.content_close file) fun there => there.present
  | _ => exact .still rfl fun there => step.unmoved there.present (by simp) (by simp)

end Pager

end DemandPaging
