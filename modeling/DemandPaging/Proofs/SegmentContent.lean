import DemandPaging.Proofs.FlatMemory
import DemandPaging.Proofs.KeptPages
import DemandPaging.Proofs.MappedFiles
import DemandPaging.Proofs.SegmentRequests

/-!
# What a segment holds

A page of a segment gets its bytes from the file when it is touched for the first time, and is anonymous memory
from then on. So a segment shows a content of its file, like the one that the file had when the segment was
loaded, if the file has the bytes of each page at that one moment. Before and after it may become anything.
-/

namespace DemandPaging

/-- A segment that is loaded for a process, and a content of its file. -/
structure LoadedSegment where
  pid : Pid
  segment : Segment
  file : FileId
  content : Array UInt8

/-- A turn leaves a page waiting for its first content, or fills it from the store behind it, unless the page is
discarded. -/
theorem Pager.Turn.first_touch
    {deed : Deed} {before after : Pager} {owner : Owner} {page : Page} {load : LazyLoad}
    {journal : List Activity} (turn : Turn deed before after) (sound : before.ledger.Sound none)
    (accounts : Accounts journal (fun other => other = deed) before after)
    (present : before.pageOf owner = some page) (pending : page.kind = .pending load)
    (anonymous : page.type = .anonymous) (kept : ∀ last dirty, .discarded owner last dirty ∉ journal) :
    (after.pageOf owner = some page ∧ Activity.replay journal owner none = none) ∨
      (deed = .claimed owner ∧
        Activity.replay journal owner none = some (page.kind.backing before.swap after.files)) := by
  have nothing : before.ledger.content owner = none := by
    rw [Ledger.content_of_page present, Ledger.pageContent_of_pending pending]
  have spared : deed ≠ .discarded owner page := by
    rintro rfl
    obtain ⟨transfers, are, told⟩ := journal_discarded before owner page
    cases turn
    rw [accounts.noted, List.append_cons, List.append_cancel_right_eq] at told
    apply kept page ((before.table owner.pid).isDirty owner.va)
    rw [told]
    exact List.mem_append_right transfers (List.mem_singleton_self _)
  by_cases claims : deed = .claimed owner
  · subst claims
    obtain ⟨_, frame, presentToo, _, presentThen, image⟩ := turn.brings sound
    cases present.symm.trans presentToo
    have stays : ({ page with frame := some frame, kind := page.kind.settled } : Page).type = .anonymous :=
      (PageKind.type_settled page.kind).trans anonymous
    have content := accounts.content owner (by simp [Deed.Alters])
    rw [nothing, (turn.sound sound).content_of_resident presentThen rfl, if_pos stays, image] at content
    exact Or.inr ⟨rfl, content.symm⟩
  · have still := (turn.step sound).waits sound present pending spared claims
    have none : after.ledger.content owner = none := by
      rw [Ledger.content_of_page still, Ledger.pageContent_of_pending pending]
    have replayed := accounts.replay_eq_none none
    rw [nothing] at replayed
    exact Or.inl ⟨still, replayed⟩

/-- A byte of memory after an event is the one that was written there, or else the one that was noted. -/
theorem Event.getElem?_after
    {event : Event} {pid : Pid} {base position : Nat} (memory : Owner → Option Image)
    (inside : position < pageSize)
    (uncopied : ∀ parent answer, event.call = .fork parent pid → event.outcome ≠ .ok answer) :
    (event.after memory ⟨pid, base⟩).map (·[position]?) =
      (event.noted memory ⟨pid, base⟩).map fun image =>
        (event.wrote? pid (base + position)).or image[position]? := by
  obtain ⟨call, outcome, activity⟩ := event
  have unwritten (same : Event.after ⟨call, outcome, activity⟩ memory ⟨pid, base⟩ =
        Event.noted ⟨call, outcome, activity⟩ memory ⟨pid, base⟩)
      (none : Event.wrote? ⟨call, outcome, activity⟩ pid (base + position) = none) :
      (Event.after ⟨call, outcome, activity⟩ memory ⟨pid, base⟩).map (·[position]?) =
        (Event.noted ⟨call, outcome, activity⟩ memory ⟨pid, base⟩).map fun image =>
          (Event.wrote? ⟨call, outcome, activity⟩ pid (base + position)).or image[position]? := by
    rw [same, none]
    rfl
  cases outcome with
  | error => exact unwritten rfl rfl
  | ok answer =>
      cases call with
      | writeUser other va bytes =>
          by_cases here : pid = other
          · subst here
            simp only [Event.after, if_true, Option.map_map]
            congr 1
            funext image
            simp only [Function.comp_apply, Event.getElem?_writtenFrom image base va bytes inside,
              Event.wrote?, Call.puts?]
            by_cases below : va ≤ base + position
            · by_cases covered : base + position < va + bytes.size
              · rw [if_pos ⟨below, covered⟩, if_pos ⟨trivial, below⟩,
                  Array.getElem?_eq_getElem (by omega), Option.some_or]
              · rw [if_neg fun both => covered both.2, if_pos ⟨trivial, below⟩,
                  Array.getElem?_eq_none (by omega), Option.none_or]
            · rw [if_neg fun both => below both.1, if_neg fun both => below both.2, Option.none_or]
          · exact unwritten (if_neg here) (if_neg fun wrote => here wrote.1.symm)
      | fork parent child =>
          have apart : pid ≠ child := by
            rintro rfl
            exact uncopied parent answer rfl rfl
          exact unwritten (if_neg apart) rfl
      | _ => exact unwritten rfl rfl

/-- The child of a fork that is answered is a new process. -/
theorem Pager.Orderly.absent_of_fork
    {config : Config} {events : List Event} {before after : Pager} {parent child : Pid} {answer : Answer}
    (orderly : before.Orderly config events)
    (run : PagerM.attempt (Call.fork parent child).perform before = .ok (.ok answer) after) :
    before.space? child = none := by
  rcases (meets_fork orderly.sound orderly.unpinned orderly.tidy parent child).of_answered run with
    ⟨_, _, _, _, _, created, creation, _⟩ | ⟨_, failed, _⟩
  · exact ((meets_createProcess orderly.sound child).of_ok creation).2.1
  · cases failed

namespace LoadedSegment

open Pager PagerM

variable {loaded : LoadedSegment} {pid child : Pid} {index position : Nat} {written : Nat → Prop}
  {before middle after : Pager} {event : Event} {config : Config} {events : List Event}

def call (loaded : LoadedSegment) : Call :=
  .loadSegment loaded.pid loaded.file loaded.segment

/-- The page with an index, before it is touched. -/
def page (loaded : LoadedSegment) (index : Nat) : Page :=
  loaded.segment.page loaded.file index

/-- Where the page with an index is in the memory of a process. -/
def ownerAt (loaded : LoadedSegment) (pid : Pid) (index : Nat) : Owner :=
  ⟨pid, (loaded.page index).va⟩

/-- The byte at a position of the segment: a byte of the file, or zero behind its part of the file. -/
def byte? (loaded : LoadedSegment) (position : Nat) : Option UInt8 :=
  if position < loaded.segment.readBytes then loaded.content[loaded.segment.offset + position]? else some 0

/-- Whether the content holds the part that the segment reads. The length of a file is a word. -/
structure Fits (loaded : LoadedSegment) : Prop where
  holds : loaded.segment.offset + loaded.segment.readBytes ≤ loaded.content.size
  word : loaded.content.size < wordLimit

/-- Whether a file has the bytes of the page with an index as the content has them. -/
def KeptIn (loaded : LoadedSegment) (index : Nat) (bytes : Array UInt8) : Prop :=
  ∀ position < loaded.segment.backed index,
    bytes[loaded.segment.offset + index * pageSize + position]? =
      loaded.content[loaded.segment.offset + index * pageSize + position]?

/-- Whether an image is that of the page with an index, but for addresses that were written. -/
def Shows (loaded : LoadedSegment) (index : Nat) (written : Nat → Prop) (image : Image) : Prop :=
  ∀ position < pageSize, ¬ written ((loaded.page index).va + position) →
    image[position]? = loaded.byte? (index * pageSize + position)

/-! ## The first touch -/

/-- The store behind a page that was not touched yet shows its bytes, if the file has kept them. -/
theorem shows_backing
    {files : FileTable} (fits : loaded.Fits) (kept : loaded.KeptIn index (files.content loaded.file))
    (swap : SwapSpace) : loaded.Shows index (fun _ => False) ((loaded.page index).kind.backing swap files) := by
  intro position inside _
  by_cases empty : loaded.segment.backed index = 0
  · have isZero : (loaded.page index).kind = .pending .zero := by
      rw [page, Segment.page, Segment.load, if_pos empty]
    have behind : ¬ index * pageSize + position < loaded.segment.readBytes := by
      simp only [Segment.backed, pageSize] at empty ⊢
      omega
    rw [isZero, byte?, if_neg behind]
    exact Vector.getElem?_eq_getElem inside |>.trans (congrArg some (Image.getElem_zero inside))
  · have positive := Nat.pos_of_ne_zero empty
    have backed : loaded.segment.backed index =
        min (loaded.segment.readBytes - index * pageSize) pageSize := rfl
    have holds := fits.holds
    have word := fits.word
    have place : (loaded.segment.offset + index * pageSize) % wordLimit =
        loaded.segment.offset + index * pageSize := Nat.mod_eq_of_lt (by omega)
    have isRange : (loaded.page index).kind = .pending (.segment
        ⟨loaded.file, loaded.segment.offset + index * pageSize, loaded.segment.backed index⟩) := by
      rw [page, Segment.page, Segment.load, if_neg empty, place]
    rw [isRange, PageKind.backing, Vector.getElem?_eq_getElem inside, Image.getElem_ofBytes _ inside,
      Array.getD_eq_getD_getElem?, Array.getElem?_extract, byte?]
    dsimp only
    by_cases covered : position < loaded.segment.backed index
    · have there := kept position covered
      have held := Array.getElem?_eq_getElem (show
        loaded.segment.offset + index * pageSize + position < loaded.content.size by omega)
      have bound := (Array.getElem?_eq_some_iff.mp (there.trans held)).1
      rw [if_pos (by omega), if_pos (by omega), ← Nat.add_assoc, there, held, Option.getD_some]
    · rw [if_neg (by omega), if_neg (by omega), Option.getD_none]

/-- Turns that lead from one state to another, where the file has the bytes of a page of the segment whenever the
process touches the page for the first time. A page that is evicted for it is written back before that. -/
inductive Finds (loaded : LoadedSegment) (pid : Pid) (before : Pager) : Pager → Prop
  | refl : loaded.Finds pid before before
  | tail {middle after : Pager} {deed : Deed} (finds : loaded.Finds pid before middle)
      (turn : Turn deed middle after)
      (kept : ∀ index < loaded.segment.pageCount, deed = .claimed (loaded.ownerAt pid index) →
        middle.pageOf (loaded.ownerAt pid index) = some (loaded.page index) →
          loaded.KeptIn index (after.files.content loaded.file)) :
      loaded.Finds pid before after

theorem Finds.runs (finds : loaded.Finds pid before after) : Runs (fun _ => True) before after := by
  induction finds with
  | refl => exact .refl
  | tail _ turn _ inductionHypothesis => exact inductionHypothesis.tail trivial turn

theorem type_page (loaded : LoadedSegment) (index : Nat) : (loaded.page index).type = .anonymous := by
  unfold page Segment.page Segment.load
  split <;> rfl

/-- A page that waits is not touched or gets its bytes. -/
theorem Finds.first_touch
    {journal : List Activity} (finds : loaded.Finds pid before after) (sound : before.ledger.Sound none)
    (fits : loaded.Fits) (inside : index < loaded.segment.pageCount)
    (noted : after.journal = journal ++ before.journal)
    (waits : before.pageOf (loaded.ownerAt pid index) = some (loaded.page index))
    (kept : ∀ last dirty, .discarded (loaded.ownerAt pid index) last dirty ∉ journal) :
    (after.pageOf (loaded.ownerAt pid index) = some (loaded.page index) ∧
        Activity.replay journal (loaded.ownerAt pid index) none = none) ∨
      ∃ image, Activity.replay journal (loaded.ownerAt pid index) none = some image ∧
        loaded.Shows index (fun _ => False) image := by
  induction finds generalizing journal with
  | refl =>
      rw [List.append_left_eq_self.mp noted.symm]
      exact Or.inl ⟨waits, rfl⟩
  | @tail middle after deed finds turn found inductionHypothesis =>
      have soundThen := finds.runs.sound sound
      obtain ⟨earlier, notedFirst⟩ := finds.runs.journal sound
      obtain ⟨later, accounts⟩ := turn.accounts soundThen
      rw [accounts.noted, notedFirst, ← List.append_assoc, List.append_cancel_right_eq] at noted
      subst noted
      have keptFirst (last : Page) (dirty : Bool) :=
        fun member => kept last dirty (List.mem_append_right later member)
      have keptThen (last : Page) (dirty : Bool) :=
        fun member => kept last dirty (List.mem_append_left earlier member)
      rw [Activity.replay_append]
      rcases inductionHypothesis notedFirst keptFirst with ⟨still, replayed⟩ | ⟨image, replayed, shows⟩
      · rw [replayed]
        rcases turn.first_touch soundThen accounts still rfl (loaded.type_page index) keptThen with
          waitsOn | ⟨claims, filled⟩
        · exact Or.inl waitsOn
        · exact Or.inr ⟨_, filled, shows_backing fits (found index inside claims still) middle.swap⟩
      · rw [replayed, Activity.replay_of_some keptThen]
        exact Or.inr ⟨image, rfl, shows⟩

/-! ## The state of a page -/

/-- What there is of the page with an index: it waits as it was reserved, or it is like that page and shows its
bytes, but for addresses that were written. -/
inductive Stands (loaded : LoadedSegment) (pid : Pid) (written : Nat → Prop) (index : Nat) (pager : Pager) :
    Prop
  | waits (present : pager.pageOf (loaded.ownerAt pid index) = some (loaded.page index))
  | filled {page : Page} {image : Image} (present : pager.pageOf (loaded.ownerAt pid index) = some page)
      (alike : page.Alike (loaded.page index))
      (content : pager.ledger.content (loaded.ownerAt pid index) = some image)
      (shows : loaded.Shows index written image)

theorem Stands.exists_page (stands : loaded.Stands pid written index before) :
    ∃ page, before.pageOf (loaded.ownerAt pid index) = some page ∧ page.Alike (loaded.page index) := by
  cases stands with
  | waits present => exact ⟨_, present, .refl _⟩
  | filled present alike => exact ⟨_, present, alike⟩

/-- A call that does not halt, during which the file still has what is touched for the first time. -/
structure Steps (loaded : LoadedSegment) (pid : Pid) (event : Event) (before after : Pager) : Prop where
  run : attempt event.call.perform before = .ok event.outcome after
  noted : after.journal = event.activity ++ before.journal
  finds : loaded.Finds pid before after

/-- The addresses that were written, also by an event. -/
def WrittenAfter (event : Event) (pid : Pid) (written : Nat → Prop) (address : Nat) : Prop :=
  written address ∨ event.wrote? pid address ≠ none

/-- What an event writes over an image is no other image where nothing was written. -/
theorem Shows.overwritten
    {image new : Image} (shows : loaded.Shows index written image)
    (bytes : ∀ position < pageSize, new[position]? =
      (event.wrote? pid ((loaded.page index).va + position)).or image[position]?) :
    loaded.Shows index (WrittenAfter event pid written) new := by
  intro position inside unwritten
  have untouched : event.wrote? pid ((loaded.page index).va + position) = none := by
    by_contra wrote
    exact unwritten (Or.inr wrote)
  rw [bytes position inside, untouched, Option.none_or]
  exact shows position inside fun wrote => unwritten (Or.inl wrote)

/-- A page of the segment stands through every call after which its process is there. -/
theorem Stands.call
    (stands : loaded.Stands pid written index before) (orderly : before.Orderly config events)
    (fits : loaded.Fits) (inside : index < loaded.segment.pageCount)
    (steps : loaded.Steps pid event before after) (alive : after.space? pid ≠ none) :
    loaded.Stands pid (WrittenAfter event pid written) index after := by
  have sound := orderly.sound
  obtain ⟨page, present, alike⟩ := stands.exists_page
  obtain ⟨allowed, runs, kept⟩ := orderly.keeps steps.run present alike.region alive
  obtain ⟨new, presentThen, continues⟩ := runs.continues sound present kept
  have untold := runs.undiscarded sound present kept steps.noted
  have tells := orderly.tells steps.run steps.noted
  have uncopied (parent : Pid) (answer : Answer) (forks : event.call = .fork parent pid) :
      event.outcome ≠ .ok answer := by
    intro answered
    have run := steps.run
    rw [forks, answered] at run
    cases (pages_of_absent (orderly.absent_of_fork run) _).symm.trans present
  -- Whether its content was there before or was noted just now, only what the event wrote goes over it.
  have filled {image : Image} (shows : loaded.Shows index written image)
      (noted : event.noted before.ledger.content (loaded.ownerAt pid index) = some image) :
      loaded.Stands pid (WrittenAfter event pid written) index after := by
    have bytes {position : Nat} (inPage : position < pageSize) :=
      @Event.getElem?_after event pid (loaded.page index).va position before.ledger.content inPage uncopied
    have owner : loaded.ownerAt pid index = ⟨pid, (loaded.page index).va⟩ := rfl
    rw [owner] at noted
    rw [noted, ← tells.content] at bytes
    obtain ⟨last, content, _⟩ := Option.map_eq_some_iff.mp (bytes (show 0 < pageSize by decide))
    refine .filled presentThen (continues.toAlike.trans alike) content (shows.overwritten ?_)
    intro position inPage
    have byte := bytes inPage
    rw [content] at byte
    exact Option.some.inj byte
  cases stands with
  | waits presentToo =>
      rcases steps.finds.first_touch sound fits inside steps.noted presentToo untold with
        ⟨waits, _⟩ | ⟨image, replayed, shows⟩
      · exact .waits waits
      · have nothing : before.ledger.content (loaded.ownerAt pid index) = none := by
          rw [Ledger.content_of_page presentToo]
          rfl
        refine filled (fun position inPage _ => shows position inPage id) ?_
        rw [Event.noted, nothing]
        exact replayed
  | filled _ _ content shows =>
      refine filled shows ?_
      rw [Event.noted, content]
      exact Activity.replay_of_some untold

/-- The child of a process has the pages of the segment that the process had, with what was written there. -/
theorem Stands.forked
    {answer : Answer} {activity : List Activity} (stands : loaded.Stands pid written index before)
    (orderly : before.Orderly config events) (fits : loaded.Fits) (inside : index < loaded.segment.pageCount)
    (steps : loaded.Steps pid ⟨.fork pid child, .ok answer, activity⟩ before after) :
    loaded.Stands child written index after := by
  obtain ⟨page, present, _⟩ := stands.exists_page
  rcases (meets_fork orderly.sound orderly.unpinned orderly.tidy pid child).of_answered steps.run with
    ⟨_, _, _, _, _, created, _, same, _, replicated⟩ | ⟨_, failed, _⟩
  · obtain ⟨original, copy, mirrors⟩ := replicated.mirrors (loaded.page index).va (by
      rw [same]
      exact Option.ne_none_iff_exists'.mpr ⟨page, present⟩)
    obtain ⟨_, found⟩ := space?_of_page mirrors.present
    have alive : after.space? pid ≠ none := Option.ne_none_iff_exists'.mpr ⟨_, found⟩
    cases stands.call orderly fits inside steps alive with
    | waits waiting =>
        cases waiting.symm.trans mirrors.present
        exact absurd rfl (mirrors.initialized _)
    | filled presentThen alike content shows =>
        cases presentThen.symm.trans mirrors.present
        refine .filled mirrors.copied (mirrors.alike.trans alike) (mirrors.content.trans content) ?_
        intro position inPage unwritten
        exact shows position inPage fun wrote => wrote.elim unwritten fun wrote => wrote rfl
  · cases failed

end LoadedSegment

end DemandPaging
