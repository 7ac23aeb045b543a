import DemandPaging.Proofs.FileChanges

/-!
# What removed pages leave

A page that is removed gives back its frame and its entry in the page table, and nothing is left of it but what
it wrote: a page of a file that is in a frame and was changed is written to its range, once. Where the ranges of
pages do not meet, what was written with success lasts when more pages are removed.
-/

namespace DemandPaging

/-! ## What a page leaves in its file -/

/-- The page and the range that an activity writes to a file, with or without success. -/
def Activity.save? : Activity → Option (Owner × FileRange)
  | .wroteBack owner range _ => some (owner, range)
  | _ => none

/-- Whether an activity wrote a page to its file. -/
def Activity.isSave : Activity → Bool
  | .wroteBack _ _ succeeded => succeeded
  | _ => false

/-- The range and the frame of a page of a file that is in a frame. -/
def Page.loaded? (page : Page) : Option (FileRange × Nat) :=
  match page.kind, page.frame with
  | .file range, some frame => some (range, frame)
  | _, _ => none

theorem Page.loaded?_eq_some_iff {page : Page} {range : FileRange} {frame : Nat} :
    page.loaded? = some (range, frame) ↔ page.kind = .file range ∧ page.frame = some frame := by
  unfold loaded?
  split
  · rename_i file resident
    simp [file, resident]
  · rename_i other
    constructor
    · intro never
      cases never
    · intro loaded
      exact (other range frame loaded.1 loaded.2).elim

namespace Pager

open PagerM

variable {before middle after pager : Pager} {pid : Pid} {region : Region} {owner other : Owner} {page : Page}

/-- What a page has in a frame but not yet in its file: its range, and the bytes that belong there. -/
def unsaved (pager : Pager) (owner : Owner) : Option (FileRange × Array UInt8) :=
  if pager.dirtyOf owner = some true then
    ((pager.pageOf owner).bind Page.loaded?).map fun loaded =>
      (loaded.1, (pager.frames.image loaded.2).slice 0 loaded.1.length)
  else none

/-- The entry of the page table for a page. -/
def entryOf (pager : Pager) : Owner → Option PageEntry :=
  pager.shown fun space va => space.table.entries[va]?

theorem unsaved_eq_some_iff {range : FileRange} {bytes : Array UInt8} :
    pager.unsaved owner = some (range, bytes) ↔
      ∃ page frame, pager.ledger.Loaded owner page range frame ∧ pager.dirtyOf owner = some true ∧
        bytes = (pager.frames.image frame).slice 0 range.length := by
  unfold unsaved
  constructor
  · intro unsaved
    split at unsaved
    · rename_i dirty
      obtain ⟨⟨found, frame⟩, loaded, same⟩ := Option.map_eq_some_iff.mp unsaved
      obtain ⟨page, present, loads⟩ := Option.bind_eq_some_iff.mp loaded
      obtain ⟨file, resident⟩ := Page.loaded?_eq_some_iff.mp loads
      cases same
      exact ⟨page, frame, ⟨present, file, resident⟩, dirty, rfl⟩
    · cases unsaved
  · intro holds
    obtain ⟨page, frame, loaded, dirty, rfl⟩ := holds
    have present : pager.pageOf owner = some page := loaded.present
    have loads := Page.loaded?_eq_some_iff.mpr ⟨loaded.file, loaded.resident⟩
    rw [if_pos dirty, present, Option.bind_some, loads]
    rfl

/-- What is unsaved is a matter of the page, its mark and the frames. -/
theorem unsaved_congr
    (pages : after.pageOf owner = before.pageOf owner) (marks : after.dirtyOf owner = before.dirtyOf owner)
    (images : after.frames.image = before.frames.image) : after.unsaved owner = before.unsaved owner := by
  rw [unsaved, unsaved, pages, marks, images]

/-! ## Removing one page -/

section Discarding

variable {range : FileRange} {bytes : Array UInt8}

/-- A page that owes its file nothing is not saved when it is discarded. -/
theorem discardSaved_of_settled
    (aligned : pageBase owner.va = owner.va) (present : pager.pageOf owner = some page)
    (settled : pager.unsaved owner = none) : pager.discardSaved owner page = pager := by
  unfold discardSaved
  split
  · rename_i range frame file resident
    split
    · refine writeBack_of_clean (Bool.eq_false_iff.mpr fun dirty => ?_)
      have owes := unsaved_eq_some_iff.mpr
        ⟨page, frame, ⟨present, file, resident⟩, (isDirty_iff aligned).mp dirty, rfl⟩
      rw [settled] at owes
      cases owes
    · rfl
  · rfl

/-- A page that owes its file something is written back when it is discarded. -/
theorem discardSaved_of_unsaved
    (aligned : pageBase owner.va = owner.va) (tidy : pager.Tidy) (present : pager.pageOf owner = some page)
    (owes : pager.unsaved owner = some (range, bytes)) :
    ∃ frame, bytes = (pager.frames.image frame).slice 0 range.length ∧
      (pager.table owner.pid).isDirty owner.va = true ∧
        pager.discardSaved owner page = pager.writeBack owner range frame := by
  obtain ⟨other, frame, loaded, dirty, isBytes⟩ := unsaved_eq_some_iff.mp owes
  cases loaded.present.symm.trans present
  obtain ⟨marked, there, writable⟩ := tidy.marked owner dirty
  cases there.symm.trans present
  refine ⟨frame, isBytes, (isDirty_iff aligned).mpr dirty, ?_⟩
  simp only [discardSaved, loaded.file, loaded.resident, writable, if_true]

end Discarding

/-- Pages went with their frames and their entries in the page table, and the other pages kept theirs. -/
structure Withdraws (before after : Pager) (gone : List Owner) : Prop where
  config : after.config = before.config
  swap : after.swap = before.swap
  pages : ∀ owner, after.pageOf owner = if owner ∈ gone then none else before.pageOf owner
  entries : ∀ owner, after.entryOf owner = if owner ∈ gone then none else before.entryOf owner
  images : after.frames.image = before.frames.image
  owners : ∀ frame owner, after.frames.owner? frame = some owner ↔
    before.frames.owner? frame = some owner ∧ owner ∉ gone

/-- Each page that went and still owed its file something was written to its range once, from the first on, and
files have what was written with success. -/
structure Flushes (before after : Pager) (gone : List Owner) (later : List Activity) : Prop where
  noted : after.journal = later ++ before.journal
  tried : later.filterMap Activity.save? = (gone.filterMap fun owner =>
    (before.unsaved owner).map fun unsaved => (owner, unsaved.1)).reverse
  counters : after.counters =
    { before.counters with writeBacks := before.counters.writeBacks + later.countP Activity.isSave }
  size : ∀ file, (after.files.content file).size = (before.files.content file).size
  saved : ∀ owner ∈ gone, ∀ range bytes, before.unsaved owner = some (range, bytes) →
    .wroteBack owner range true ∈ later → ∀ index < bytes.size,
      range.offset + index < (before.files.content range.file).size →
        (after.files.content range.file)[range.offset + index]? = bytes[index]?
  kept : ∀ file index, (∀ owner range, .wroteBack owner range true ∈ later → ¬ range.Covers file index) →
    (after.files.content file)[index]? = (before.files.content file)[index]?

theorem swap_discarded (without : page.kind.slot? = none) :
    (pager.discarded owner page).swap = pager.swap := by
  have saved (other : Pager) : (other.discardSaved owner page).swap = other.swap := by
    unfold discardSaved writeBack
    split
    · split
      · split <;> rfl
      · rfl
    · rfl
  have frame (other : Pager) : (other.discardFrame owner page).swap = other.swap := by
    unfold discardFrame
    split <;> rfl
  have handle (other : Pager) : (other.closeHandle page).swap = other.swap := by
    unfold closeHandle
    split <;> rfl
  have slot (other : Pager) : other.discardSlot page = other := by rw [discardSlot, without]
  refine (handle _).trans ((frame _).trans ?_)
  rw [slot, saved]
  rfl

theorem isSome_entryOf : (pager.entryOf owner).isSome = (pager.ledger.translations owner).isSome := by
  simp only [entryOf, ledger, translationOf, shown, PageTable.translation?]
  cases pager.space? owner.pid with
  | none => rfl
  | some space =>
      simp only [Option.bind_some]
      exact Option.isSome_map.symm

theorem dirtyOf_eq (pager : Pager) (owner : Owner) :
    pager.dirtyOf owner = (pager.entryOf owner).map PageEntry.dirty := by
  simp only [dirtyOf, entryOf, shown, PageTable.dirty?]
  cases pager.space? owner.pid <;> rfl

/-- A change of one entry of a page table leaves the other entries alone. -/
theorem entryOf_modifyTable
    {change : PageTable → PageTable} {other : Owner} (aligned : pageBase owner.va = owner.va)
    (elsewhere : ∀ (table : PageTable) (va : Nat), pageBase owner.va ≠ va →
      (change table).entries[va]? = table.entries[va]?) (apart : other ≠ owner) :
    (pager.modifyTable owner.pid change).entryOf other = pager.entryOf other := by
  rw [entryOf, modifyTable, shown_modifySpace]
  split
  · rename_i samePid
    rw [entryOf, shown]
    congr 1
    funext space
    refine elsewhere space.table other.va fun sameVa => apart ?_
    rw [aligned] at sameVa
    cases other
    cases owner
    cases samePid
    cases sameVa
    rfl
  · rfl

theorem entryOf_erasePage (pager : Pager) (owner : Owner) : (pager.erasePage owner).entryOf = pager.entryOf :=
  pager.shown_modifySpace_of_same owner.pid fun _ _ => rfl

/-- A page that is discarded loses its entry in the page table and no other page does. -/
theorem entryOf_discarded
    (sound : before.ledger.Sound none) (present : before.pageOf owner = some page) (other : Owner) :
    (before.discarded owner page).entryOf other = if other = owner then none else before.entryOf other := by
  have aligned := (sound.placed owner page present).aligned
  split
  · rename_i here
    subst here
    have afterSound := (Turn.discarded present).sound sound
    have gone := congrFun (ledger_discarded sound present).pages other
    rw [Function.update_self] at gone
    rw [← Option.not_isSome_iff_eq_none, isSome_entryOf, Option.isSome_iff_exists]
    intro translated
    obtain ⟨translation, translated⟩ := translated
    obtain ⟨new, _, there, _⟩ := afterSound.frames.page_of_translation other translation translated
    cases gone.symm.trans there
  · rename_i apart
    have written (last : Pager) (range : FileRange) (frame : Nat) :
        (last.writeBack owner range frame).entryOf other = last.entryOf other := by
      cases dirty : (last.table owner.pid).isDirty owner.va with
      | false => rw [writeBack_of_clean dirty]
      | true =>
          rw [writeBack_of_dirty dirty]
          refine @entryOf_modifyTable last owner (fun table => table.setDirty owner.va false) other aligned
            (fun table va different => ?_) apart
          simp [PageTable.setDirty, Std.ExtTreeMap.getElem?_modify, different]
    have cleared (last : Pager) :
        (last.modifyTable owner.pid fun table => table.clear owner.va).entryOf other = last.entryOf other := by
      refine entryOf_modifyTable aligned (fun table va different => ?_) apart
      simp [PageTable.clear, Std.ExtTreeMap.getElem?_erase, different]
    exact @keeps_discarded _ owner page (fun pager => pager.entryOf other) (fun _ _ => rfl) written
      (fun _ _ => rfl) (fun last _ => cleared last) (fun _ _ => rfl)
      (fun last => congrFun (entryOf_erasePage last owner) other) before

end Pager

namespace Ledger

variable {ledger after : Ledger} {owner : Owner} {page : Page}

theorem Discards.images (discards : ledger.Discards owner page after) : after.images = ledger.images := by
  cases discards <;> rfl

/-- The frame of a page that goes belongs to no page, and the other frames stay with theirs. -/
theorem Discards.owners
    (discards : ledger.Discards owner page after) (sound : ledger.Sound none)
    (present : ledger.pages owner = some page) (frame : Nat) (other : Owner) :
    after.owners frame = some other ↔ ledger.owners frame = some other ∧ other ≠ owner := by
  have holds (owned : ledger.owners frame = some owner) : page.frame = some frame := by
    obtain ⟨holder, there, resident⟩ := sound.page_of_owner owned
    cases there.symm.trans present
    exact resident
  have apart (absent : page.frame ≠ some frame) (owned : ledger.owners frame = some other) : other ≠ owner := by
    rintro rfl
    exact absent (holds owned)
  cases discards with
  | untouched absent without =>
      refine ⟨fun owned => ⟨owned, apart (by rw [absent]; exact nofun) owned⟩, And.left⟩
  | swapped held =>
      have absent := (sound.slots.slot_of_page owner page _ present held).2
      refine ⟨fun owned => ⟨owned, apart (by rw [absent]; exact nofun) owned⟩, And.left⟩
  | @resident released resident =>
      have owned := sound.owner_of_page present resident
      change Function.update ledger.owners released none frame = some other ↔ _
      by_cases here : frame = released
      · subst here
        rw [Function.update_self, owned]
        constructor
        · intro never
          cases never
        · rintro ⟨same, different⟩
          exact absurd (Option.some.inj same).symm different
      · rw [Function.update_of_ne here]
        refine ⟨fun there => ⟨there, apart ?_ there⟩, And.left⟩
        rw [resident]
        exact fun same => here (Option.some.inj same).symm

end Ledger

namespace Pager

open PagerM

variable {before middle after pager : Pager} {pid : Pid} {region : Region} {owner other : Owner} {page : Page}

theorem withdraws_discarded
    (sound : before.ledger.Sound none) (present : before.pageOf owner = some page)
    (without : page.kind.slot? = none) : Withdraws before (before.discarded owner page) [owner] where
  config := before.config_discarded owner page
  swap := swap_discarded without
  pages other := by
    refine (congrFun (ledger_discarded sound present).pages other).trans ?_
    by_cases here : other = owner
    · subst here
      rw [Function.update_self, if_pos (List.mem_singleton_self other)]
    · rw [Function.update_of_ne here, if_neg (by simpa using here)]
      rfl
  entries other := by
    rw [entryOf_discarded sound present]
    simp only [List.mem_singleton]
  images := (ledger_discarded sound present).images
  owners frame other := by
    rw [List.mem_singleton]
    exact (ledger_discarded sound present).owners sound present frame other

/-- What a page owes its file is written when it is saved. -/
theorem flushes_discardSaved
    (aligned : pageBase owner.va = owner.va) (tidy : before.Tidy) (present : before.pageOf owner = some page) :
    ∃ later, Flushes before (before.discardSaved owner page) [owner] later := by
  cases owes : before.unsaved owner with
  | none =>
      rw [discardSaved_of_settled aligned present owes]
      refine ⟨[], rfl, by simp [owes], rfl, fun _ => rfl, ?_, fun _ _ _ => rfl⟩
      intro other member range bytes unsaved
      rw [List.mem_singleton.mp member, owes] at unsaved
      cases unsaved
  | some unsaved =>
      obtain ⟨range, bytes⟩ := unsaved
      obtain ⟨frame, isBytes, dirty, saved⟩ := discardSaved_of_unsaved aligned tidy present owes
      have content := before.files.content_writeAt range.file range.offset bytes
      rw [saved, writeBack_of_dirty dirty, written, ← isBytes]
      cases succeeded : (before.files.writeAt range.file range.offset bytes).2.isSome with
      | false =>
          rw [succeeded, if_neg Bool.false_ne_true] at content
          refine ⟨[.wroteBack owner range false], rfl, ?_, rfl, fun file => ?_, ?_, fun file index _ => ?_⟩
          · simp [owes, Activity.save?]
          · exact congrArg Array.size (congrFun content file)
          · intro other _ otherRange _ _ noted
            cases List.mem_singleton.mp noted
          · exact congrArg (fun bytes => bytes[index]?) (congrFun content file)
      | true =>
          rw [succeeded, if_pos rfl] at content
          refine ⟨[.wroteBack owner range true], rfl, ?_, rfl, fun file => ?size, ?saved, fun file index spared => ?kept⟩
          · simp [owes, Activity.save?]
          case size =>
            refine (congrArg Array.size (congrFun content file)).trans ?_
            by_cases here : file = range.file
            · subst here
              rw [Function.update_self, size_overwritten]
            · rw [Function.update_of_ne here]
          case saved =>
            intro other member otherRange otherBytes owed _ index below inside
            rw [List.mem_singleton.mp member, owes] at owed
            cases owed
            refine (congrArg (fun bytes => bytes[range.offset + index]?) (congrFun content range.file)).trans ?_
            rw [Function.update_self, getElem?_overwritten, Array.getElem?_eq_getElem inside, Option.map_some,
              if_pos (Nat.le_add_right ..), Nat.add_sub_cancel_left, Array.getD_eq_getD_getElem?,
              Array.getElem?_eq_getElem below]
            rfl
          case kept =>
            have within := @ChangedWithin.overwritten (· = range) before.files.content range bytes rfl
              (by rw [isBytes]; exact size_slice_le ..)
            by_contra changed
            refine (within.covered file index fun same => changed ?_).elim fun other covers => ?_
            · exact (congrArg (fun bytes => bytes[index]?) (congrFun content file)).trans same
            · exact spared owner range (List.mem_singleton_self _) (covers.1 ▸ covers.2)

/-- What a page owed its file is written when it is discarded. -/
theorem flushes_discarded
    (sound : before.ledger.Sound none) (tidy : before.Tidy) (present : before.pageOf owner = some page) :
    ∃ later, Flushes before (before.discarded owner page) [owner] later := by
  have aligned := (sound.placed owner page present).aligned
  let note : Activity := .discarded owner page ((before.table owner.pid).isDirty owner.va)
  have notedTidy : (before.note note).Tidy := ⟨tidy.marked, tidy.keyed⟩
  obtain ⟨later, flushes⟩ := @flushes_discardSaved (before.note note) owner page aligned notedTidy present
  have counters : (before.discarded owner page).counters = ((before.note note).discardSaved owner page).counters :=
    @keeps_released _ owner page Pager.counters (fun _ _ => rfl) (fun _ _ => rfl) (fun _ _ => rfl) (fun _ => rfl) _
  have content := content_released ((before.note note).discardSaved owner page) owner page
  have journal := journal_released ((before.note note).discardSaved owner page) owner page
  refine ⟨later ++ [note], ?_, ?_, ?_, fun file => ?_, ?_, fun file index spared => ?_⟩
  · exact journal.trans (flushes.noted.trans (List.append_assoc later [note] before.journal).symm)
  · rw [List.filterMap_append, flushes.tried]
    exact List.append_nil _
  · rw [counters, flushes.counters, List.countP_append]
    rfl
  · exact (congrArg Array.size (congrFun content file)).trans (flushes.size file)
  · intro other member range bytes owes noted index below inside
    refine (congrArg (fun bytes => bytes[range.offset + index]?) (congrFun content range.file)).trans ?_
    exact flushes.saved other member range bytes owes (by simpa [note] using noted) index below inside
  · refine (congrArg (fun bytes => bytes[index]?) (congrFun content file)).trans ?_
    exact flushes.kept file index fun other range noted => spared other range (List.mem_append_left _ noted)

/-! ## Removing all pages -/

variable {gone : List Owner} {earlier later : List Activity}

theorem Withdraws.refl (pager : Pager) : Withdraws pager pager [] := by
  refine ⟨rfl, rfl, fun _ => rfl, fun _ => rfl, rfl, fun frame owner => ?_⟩
  exact ⟨fun owned => ⟨owned, List.not_mem_nil⟩, And.left⟩

theorem Withdraws.cons (first : Withdraws before middle [owner]) (rest : Withdraws middle after gone) :
    Withdraws before after (owner :: gone) where
  config := rest.config.trans first.config
  swap := rest.swap.trans first.swap
  pages other := by
    rw [rest.pages, first.pages]
    by_cases later : other ∈ gone
    · rw [if_pos later, if_pos (List.mem_cons_of_mem owner later)]
    · rw [if_neg later]
      simp only [List.mem_cons, List.not_mem_nil, or_false, later]
  entries other := by
    rw [rest.entries, first.entries]
    by_cases later : other ∈ gone
    · rw [if_pos later, if_pos (List.mem_cons_of_mem owner later)]
    · rw [if_neg later]
      simp only [List.mem_cons, List.not_mem_nil, or_false, later]
  images := rest.images.trans first.images
  owners frame other := by
    rw [rest.owners, first.owners, and_assoc, List.mem_singleton, ← not_or, ← List.mem_cons]

theorem Flushes.refl (pager : Pager) : Flushes pager pager [] [] :=
  ⟨rfl, rfl, rfl, fun _ => rfl, fun _ member => absurd member List.not_mem_nil, fun _ _ _ => rfl⟩

/-- Only what was unsaved was written. -/
theorem Flushes.unsaved_of_noted
    {range : FileRange} {succeeded : Bool} (flushes : Flushes before after gone later)
    (noted : .wroteBack owner range succeeded ∈ later) :
    owner ∈ gone ∧ ∃ bytes, before.unsaved owner = some (range, bytes) := by
  have listed : (owner, range) ∈ later.filterMap Activity.save? :=
    List.mem_filterMap.mpr ⟨_, noted, rfl⟩
  rw [flushes.tried, List.mem_reverse] at listed
  obtain ⟨other, member, owes⟩ := List.mem_filterMap.mp listed
  obtain ⟨⟨_, bytes⟩, unsaved, same⟩ := Option.map_eq_some_iff.mp owes
  cases same
  exact ⟨member, bytes, unsaved⟩

/-- What is written later does not meet what one page wrote. -/
theorem Flushes.cons
    (first : Flushes before middle [owner] earlier) (rest : Flushes middle after gone later)
    (same : ∀ other ∈ gone, middle.unsaved other = before.unsaved other) (fresh : owner ∉ gone)
    (apart : ∀ other ∈ gone, ∀ range bytes otherRange otherBytes, before.unsaved owner = some (range, bytes) →
      before.unsaved other = some (otherRange, otherBytes) → ∀ file index, range.Covers file index →
        ¬ otherRange.Covers file index) :
    Flushes before after (owner :: gone) (later ++ earlier) where
  noted := by rw [rest.noted, first.noted, List.append_assoc]
  tried := by
    have unchanged : (gone.filterMap fun other => (middle.unsaved other).map fun unsaved => (other, unsaved.1)) =
        gone.filterMap fun other => (before.unsaved other).map fun unsaved => (other, unsaved.1) :=
      List.filterMap_congr fun other member => by rw [same other member]
    rw [List.filterMap_append, first.tried, rest.tried, unchanged, ← List.reverse_append, ← List.filterMap_append,
      List.singleton_append]
  counters := by
    rw [rest.counters, first.counters, List.countP_append]
    simp only [Nat.add_assoc, Nat.add_comm]
  size file := (rest.size file).trans (first.size file)
  saved other member range bytes owes noted index below inside := by
    rcases List.mem_append.mp noted with notedLater | notedEarlier
    · have inGone := (rest.unsaved_of_noted notedLater).1
      refine rest.saved other inGone range bytes ((same other inGone).trans owes) notedLater index below ?_
      rw [first.size]
      exact inside
    · have isOwner := List.mem_singleton.mp (first.unsaved_of_noted notedEarlier).1
      subst isOwner
      have here := first.saved other (List.mem_singleton_self other) range bytes owes notedEarlier index below inside
      refine (rest.kept range.file (range.offset + index) fun another otherRange notedLater covers => ?_).trans here
      obtain ⟨inGone, otherBytes, otherOwes⟩ := rest.unsaved_of_noted notedLater
      rw [same another inGone] at otherOwes
      have fits : index < range.length := by
        obtain ⟨_, frame, _, _, isBytes⟩ := unsaved_eq_some_iff.mp owes
        rw [isBytes] at below
        exact Nat.lt_of_lt_of_le below (size_slice_le ..)
      exact apart another inGone range bytes otherRange otherBytes owes otherOwes range.file (range.offset + index)
        ⟨rfl, Nat.le_add_right .., Nat.add_lt_add_left fits _⟩ covers
  kept file index spared := by
    rw [rest.kept file index fun other range noted => spared other range (List.mem_append_left _ noted)]
    exact first.kept file index fun other range noted => spared other range (List.mem_append_right _ noted)

end Pager

end DemandPaging
