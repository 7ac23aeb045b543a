import DemandPaging.Proofs.History

/-!
# Anonymous memory is flat

In every state of a history anonymous memory holds what flat memory holds, whichever pages were moved to
frames and slots meanwhile. Flat memory changes only by first contents, by discarding, by writes of
its own process and by copies of processes, and a read answers with what it holds.
-/

namespace DemandPaging

/-! ## What the journal tells of one page -/

namespace Activity

variable {journal : List Activity} {owner : Owner} {image : Image}

/-- A content is remembered until the page is discarded. -/
theorem replay_of_some
    (kept : ∀ page dirty, Activity.discarded owner page dirty ∉ journal) :
    replay journal owner (some image) = some image := by
  induction journal with
  | nil => rfl
  | cons activity rest inductionHypothesis =>
      have earlier := inductionHypothesis fun page dirty member =>
        kept page dirty (List.mem_cons_of_mem _ member)
      rw [replay_cons, earlier]
      cases activity with
      | loaded other load content =>
          simp only [remembered, Option.getD_some]
          exact ite_self _
      | discarded other page dirty =>
          have apart : other ≠ owner := by
            rintro rfl
            exact kept page dirty List.mem_cons_self
          exact if_neg apart
      | _ => rfl

/-- A content begins with the first content of the page. -/
theorem loaded_of_replay
    (began : replay journal owner none = some image) :
    ∃ load content, Activity.loaded owner load content ∈ journal ∧ load.target = .anonymous ∧
      image = load.first content := by
  induction journal with
  | nil => cases began
  | cons activity rest inductionHypothesis =>
      have earlier (same : replay rest owner none = some image) :
          ∃ load content, Activity.loaded owner load content ∈ activity :: rest ∧
            load.target = .anonymous ∧ image = load.first content := by
        obtain ⟨load, content, member, anonymous, first⟩ := inductionHypothesis same
        exact ⟨load, content, List.mem_cons_of_mem _ member, anonymous, first⟩
      rw [replay_cons] at began
      cases activity with
      | loaded other load content =>
          simp only [remembered] at began
          split at began
          · rename_i here
            obtain ⟨rfl, anonymous⟩ := here
            cases content : replay rest other none with
            | none =>
                rw [content] at began
                cases began
                exact ⟨load, _, List.mem_cons_self, anonymous, rfl⟩
            | some old =>
                rw [content] at began
                cases began
                exact earlier content
          · exact earlier began
      | discarded other page dirty =>
          simp only [remembered] at began
          split at began
          · cases began
          · exact earlier began
      | _ => exact earlier began

end Activity

/-! ## What an event does -/

namespace Event

/-- What an event does to flat memory. What is noted of it begins a content with the first load of a page
and ends it with the page; a write of the process goes over that, and a copied process has what its parent
has. Calls for other processes do nothing. -/
structure ActsFlat (event : Event) (before after : Owner → Option Image) : Prop where
  kept : ∀ owner image,
    before owner = some image →
      (∀ page dirty, Activity.discarded owner page dirty ∉ event.activity) →
        event.noted before owner = some image
  begun : ∀ owner image,
    before owner = none → event.noted before owner = some image →
      ∃ load content, Activity.loaded owner load content ∈ event.activity ∧
        load.target = .anonymous ∧ image = load.first content
  written : ∀ pid va bytes answer base offset,
    event.call = .writeUser pid va bytes → event.outcome = .ok answer → offset < pageSize →
      (after ⟨pid, base⟩).map (·[offset]?) =
        (event.noted before ⟨pid, base⟩).map fun image =>
          if va ≤ base + offset ∧ base + offset < va + bytes.size then bytes[base + offset - va]?
          else image[offset]?
  forked : ∀ parent child answer va,
    event.call = .fork parent child → event.outcome = .ok answer →
      after ⟨child, va⟩ = event.noted before ⟨parent, va⟩
  plain : ∀ owner,
    (∀ va bytes answer,
      event.call = .writeUser owner.pid va bytes → event.outcome ≠ .ok answer) →
    (∀ parent answer, event.call = .fork parent owner.pid → event.outcome ≠ .ok answer) →
      after owner = event.noted before owner
  others : ∀ owner, ¬ event.call.Concerns owner.pid → after owner = before owner

/-- A read that succeeds answers with as many bytes as asked for, and for anonymous memory with those
that memory holds. -/
def ReadsFrom (event : Event) (pager : Pager) (memory : Owner → Option Image) : Prop :=
  ∀ pid va length bytes,
    event.call = .readUser pid va length → event.outcome = .ok (.bytes bytes) →
      bytes.size = length ∧
        ∀ index, index < length →
          ∃ page, pager.pageOf ⟨pid, pageBase (va + index)⟩ = some page ∧
            (page.type = .anonymous →
              ∃ image, memory ⟨pid, pageBase (va + index)⟩ = some image ∧
                bytes[index]? = image[pageOffset (va + index)]?)

variable {event : Event} {memory : Owner → Option Image}

theorem getElem?_writtenFrom
    (image : Image) (base va : Nat) (bytes : Array UInt8) {offset : Nat}
    (inside : offset < pageSize) :
    (image.writtenFrom base va bytes 0)[offset]? =
      if va ≤ base + offset ∧ base + offset < va + bytes.size then bytes[base + offset - va]?
      else image[offset]? := by
  rw [Vector.getElem?_eq_getElem inside, Image.getElem_writtenFrom _ _ _ _ _ inside,
    Vector.getElem?_eq_getElem inside, Array.getD_eq_getD_getElem?, Nat.add_zero]
  by_cases started : va ≤ base + offset
  · rw [if_pos started]
    by_cases ended : base + offset < va + bytes.size
    · rw [if_pos ⟨started, ended⟩, Array.getElem?_eq_getElem (by omega), Option.getD_some]
    · rw [if_neg (fun within => ended within.2), Array.getElem?_eq_none (by omega),
        Option.getD_none]
  · rw [if_neg started, if_neg fun within => started within.1]

theorem acts_flat
    (others : ∀ owner : Owner, ¬ event.call.Concerns owner.pid →
      event.after memory owner = memory owner) :
    event.ActsFlat memory (event.after memory) := by
  constructor
  case kept =>
    intro owner image remembered undiscarded
    rw [noted, remembered]
    exact Activity.replay_of_some undiscarded
  case begun =>
    intro owner image vacant remembered
    rw [noted, vacant] at remembered
    exact Activity.loaded_of_replay remembered
  case written =>
    intro pid va bytes answer base offset call outcome inside
    simp only [after, call, outcome, if_true, Option.map_map]
    congr 1
    funext image
    exact getElem?_writtenFrom image base va bytes inside
  case forked =>
    intro parent child answer va call outcome
    simp only [after, call, outcome, if_true]
  case plain =>
    intro owner unwritten uncopied
    unfold after
    split
    · rename_i answer pid va bytes outcome call
      refine if_neg fun same => ?_
      subst same
      exact unwritten va bytes answer call outcome
    · rename_i answer parent child outcome call
      refine if_neg fun same => ?_
      subst same
      exact uncopied parent answer call outcome
    · rfl
  case others => exact others

end Event

namespace Pager

open PagerM

variable {before after : Pager} {config : Config} {events : List Event} {event : Event}

/-- Calls for other processes leave a content as it is. -/
theorem Orderly.others
    (orderly : before.Orderly config events)
    (run : attempt event.call.perform before = .ok event.outcome after)
    (noted : after.journal = event.activity ++ before.journal) {owner : Owner}
    (unconcerned : ¬ event.call.Concerns owner.pid) :
    event.after (flatMemory events) owner = flatMemory events owner := by
  have reaches := (orderly.performs run).1
  have tells := orderly.tells run noted
  rw [← orderly.content, ← tells.content]
  apply reaches.runs.content_untouched orderly.sound
  intro deed permits touches
  exact unconcerned (permits.touches touches)

/-- A read answers with what memory holds afterwards. -/
theorem Orderly.readsFrom
    (orderly : before.Orderly config events)
    (run : attempt event.call.perform before = .ok event.outcome after) :
    event.ReadsFrom after after.ledger.content := by
  intro pid va length bytes call outcome
  rw [call, outcome] at run
  have ready := orderly.unpinned.ready orderly.sound
  obtain ⟨whole, seen⟩ := reads_of_run ready run
  exact ⟨whole, fun index inside => (seen index inside).shows orderly.sound⟩

end Pager

section Laws

variable {config : Config} {kind : PolicyKind} {device : Device} {files : FileTable}
  {events : List Event} {event : Event} {pager : Pager}

/-- The last call of a history led to what memory is, but for what happened outside. -/
theorem History.last (history : History config kind device files (event :: events) pager) :
    ∃ before after, before.Orderly config events ∧
      PagerM.attempt event.call.perform before = .ok event.outcome after ∧
        after.journal = event.activity ++ before.journal ∧ after.ledger = pager.ledger := by
  generalize whole : event :: events = all at history
  induction history with
  | start => cases whole
  | call earlier run noted =>
      cases whole
      exact ⟨_, _, earlier.orderly, run, noted, rfl⟩
  | outside _ same inductionHypothesis =>
      obtain ⟨before, after, orderly, run, noted, ledger⟩ := inductionHypothesis whole
      exact ⟨before, after, orderly, run, noted, ledger.trans (Pager.ledger_outside _ same).symm⟩

/-- Anonymous memory of all processes is what flat memory is after the same events, and reads answer
with it. -/
theorem anonymous_memory_flat
    (history : History config kind device files (event :: events) pager) :
    pager.ledger.content = flatMemory (event :: events) ∧
      event.ActsFlat (flatMemory events) (flatMemory (event :: events)) ∧
        event.ReadsFrom pager (flatMemory (event :: events)) := by
  have content := history.orderly.content
  obtain ⟨before, after, orderly, run, noted, ledger⟩ := history.last
  refine ⟨content, Event.acts_flat fun owner => orderly.others run noted, ?_⟩
  rw [← content, ← ledger]
  have reads := orderly.readsFrom run
  intro pid va length bytes call outcome
  have pages : pager.pageOf = after.pageOf := congrArg Ledger.pages ledger.symm
  rw [pages]
  exact reads pid va length bytes call outcome

/-- A page that was swapped out is read. -/
theorem anonymous_memory_flat_of_two_pages :
    ∃ event events pager, (event.call = .readUser 1 4096 1 ∧ event.outcome.isOk = true) ∧
      pager.ledger.content = flatMemory (event :: events) ∧
        event.ReadsFrom pager (flatMemory (event :: events)) := by
  have read : (((Pager.create { frameCount := 1 } .fifo (Device.blank .memory 16) ⟨#[]⟩).play []
      (twoPages ++ [.claim 1 8192, .readUser 1 4096 1])).any fun result =>
        result.1.head?.any fun event =>
          decide (event.call = .readUser 1 4096 1) && event.outcome.isOk) = true := by
    decide +kernel
  obtain ⟨⟨allEvents, pager⟩, played, read⟩ := (Option.any_eq_true ..).mp read
  obtain ⟨event, latest, read⟩ := (Option.any_eq_true ..).mp read
  obtain ⟨events, rfl⟩ := List.head?_eq_some_iff.mp latest
  obtain ⟨content, _, reads⟩ := anonymous_memory_flat (History.start.play played)
  exact ⟨event, events, pager, by simpa using read, content, reads⟩

end Laws

end DemandPaging
