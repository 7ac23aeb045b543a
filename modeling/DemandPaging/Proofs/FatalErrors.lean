import DemandPaging.Proofs.History
import DemandPaging.Proofs.Views

/-!
# Fatal errors

An access that fails ends the process it was made for: the process gives back everything it held, and every
other process goes on as if nothing had happened. Besides its exit nothing else ends a process.
-/

namespace DemandPaging

/-- The process whose memory a call accesses. -/
def Call.access? : Call → Option Pid
  | handlePageFault pid _ | readUser pid .. | writeUser pid .. => some pid
  | _ => none

namespace PagingError

/-- An access can fail in three ways. -/
def RefusesAccess (error : PagingError) (pid : Pid) : Prop :=
  (∃ address reason, error = .invalidAccess address reason) ∨ (∃ address, error = .io address) ∨
    error = .noSuchProcess pid

variable {error : PagingError} {pid : Pid}

theorem IsLethal.refusesAccess (lethal : error.IsLethal pid) (external : ¬ error.IsInternal) :
    error.RefusesAccess pid := by
  rcases lethal with fatal | rfl
  · cases error with
    | invalidAccess address reason => exact Or.inl ⟨address, reason, rfl⟩
    | io address => exact Or.inr (Or.inl ⟨address, rfl⟩)
    | mappingFailed address => exact absurd trivial external
    | _ => cases fatal
  · exact Or.inr (Or.inr rfl)

end PagingError

namespace Pager

open PagerM

/-- A process is gone and what it held is free: no frame and no slot is taken by it, and every handle that
it held was closed. -/
structure Cleared (pid : Pid) (before after : Pager) : Prop where
  gone : after.space? pid = none
  frames : ∀ frame owner, after.frames.owner? frame = some owner → owner.pid ≠ pid
  slots : ∀ slot, after.swap.used.get slot = true →
    ∃ owner page, owner.pid ≠ pid ∧ after.pageOf owner = some page ∧
      page.kind = .anonymous (some slot)
  handles : ∀ file, after.files.handles file = before.files.handles file - before.handlesOf pid file

/-- A process has the pages, the regions, the stack pointer and the contents that it had, and the same
handles. -/
structure Undisturbed (pid : Pid) (before after : Pager) : Prop where
  layout : after.layout? pid = before.layout? pid
  pages : ∀ va page, before.pageOf ⟨pid, va⟩ = some page →
    ∃ new, after.pageOf ⟨pid, va⟩ = some new ∧ new.Continues page
  vacant : ∀ va, before.pageOf ⟨pid, va⟩ = none → after.pageOf ⟨pid, va⟩ = none
  content : ∀ va, after.ledger.content ⟨pid, va⟩ = before.ledger.content ⟨pid, va⟩
  handles : ∀ holder, holder.pid = pid → after.handleAt holder = before.handleAt holder

variable {before middle after : Pager} {allowed : Deed → Prop} {deed : Deed} {pid other : Pid}
  {error : PagingError} {config : Config} {events : List Event} {call : Call}
  {outcome : Except PagingError Answer}

/-! ## The process that ends -/

/-- Frames and slots belong to pages, so none belongs to a process that is gone. -/
theorem cleared_of_gone
    (sound : after.ledger.Sound none) (gone : after.space? pid = none)
    (given : GivesUp pid before after) : Cleared pid before after where
  gone := gone
  frames frame owner owned := by
    rintro rfl
    obtain ⟨page, present, _⟩ := sound.page_of_owner owned
    cases (pages_of_absent gone owner.va).symm.trans present
  slots slot used := by
    obtain ⟨owner, page, present, held⟩ := sound.slots.page_of_slot slot used
    refine ⟨owner, page, ?_, present, held⟩
    rintro rfl
    cases (pages_of_absent gone owner.va).symm.trans present
  handles file := by
    obtain ⟨count, closed, held⟩ := given.closed file
    rw [handlesOf_of_absent gone, Nat.zero_add] at held
    rw [closed, held]

/-- An access changes the memory of its process, whose stack grows within its bounds, and if it breaks
somewhere the process ends there. -/
theorem meets_access (ready : before.Ready) (accesses : call.access? = some pid) :
    call.perform.Meets before
      (Proceeds (fun deed => (deed.Amends pid ∧ deed.Extends before.config) ∨ deed.Ends pid) before
        (fun _ after => Reaches (Deed.Amends pid) before after)
        fun error after => ∃ middle, Reaches (Deed.Amends pid) before middle ∧
          Killed pid error middle after) := by
  cases call with
  | handlePageFault other fault =>
      cases accesses
      apply ((meets_handlePageFault ready pid fault).widen
        fun _ => Or.imp_left (And.imp_left Deed.Serves.amends)).andAnswer
      · exact fun _ _ _ ⟨serves, _⟩ => serves.mono fun _ permitted => permitted.1.amends
      · exact fun _ _ _ ⟨middle, serves, killed⟩ =>
          ⟨middle, serves.mono fun _ permitted => permitted.1.amends, killed⟩
  | readUser other va length =>
      cases accesses
      apply ((meets_readUser ready pid va length).widen
        fun _ => Or.imp_left (And.imp_left Deed.Serves.amends)).andAnswer
      · exact fun _ _ _ ⟨serves, _⟩ => serves.mono fun _ permitted => permitted.1.amends
      · exact fun _ _ _ ⟨middle, serves, killed⟩ =>
          ⟨middle, serves.mono fun _ permitted => permitted.1.amends, killed⟩
  | writeUser other va bytes =>
      cases accesses
      apply (meets_writeUser ready pid va bytes).andAnswer
      · exact fun _ _ _ ⟨amends, _⟩ => amends.mono fun _ => And.left
      · exact fun _ _ _ ⟨middle, amends, _, killed⟩ => ⟨middle, amends.mono fun _ => And.left, killed⟩
  | _ => cases accesses

/-- An access is answered, or it breaks somewhere and its process ends there. -/
theorem Orderly.accessed
    (orderly : before.Orderly config events) (accesses : call.access? = some pid)
    (run : attempt call.perform before = .ok outcome after) :
    (∃ answer, outcome = .ok answer ∧ Reaches (Deed.Amends pid) before after) ∨
      ∃ error middle, outcome = .error error ∧ Reaches (Deed.Amends pid) before middle ∧
        Killed pid error middle after := by
  have ready := orderly.unpinned.ready orderly.sound
  rcases (meets_access ready accesses).of_attempt run with
    ⟨answer, answered, _, amends⟩ | ⟨error, failed, _, _, middle, amends, killed⟩
  · exact Or.inl ⟨answer, answered, amends⟩
  · exact Or.inr ⟨error, middle, failed, amends, killed⟩

theorem Orderly.external
    (orderly : before.Orderly config events)
    (run : attempt call.perform before = .ok (.error error) after) : ¬ error.IsInternal := by
  rcases (meets_perform orderly.sound orderly.unpinned orderly.tidy call
      (admissible_of_run run)).of_attempt run with ⟨_, answered, _⟩ | ⟨_, same, _, external, _⟩
  · cases answered
  · cases same
    exact external

/-! ## The processes that go on -/

/-- Deeds that serve or end one process do not disturb another. -/
theorem Runs.undisturbed
    (runs : Runs (fun deed => deed.Amends pid ∨ deed.Ends pid) before after)
    (sound : before.ledger.Sound none) (given : GivesUp pid before after) (apart : other ≠ pid) :
    Undisturbed other before after := by
  have bypasses (deed : Deed) (permitted : deed.Amends pid ∨ deed.Ends pid) : deed.Bypasses other := by
    rcases permitted with amends | ends
    · exact amends.writes.bypasses apart.symm
    · exact ends.uses.bypasses apart.symm
  have untouched (va : Nat) (deed : Deed) (permitted : deed.Amends pid ∨ deed.Ends pid) :
      ¬ deed.Touches ⟨other, va⟩ := by
    intro touches
    rcases permitted with amends | ends
    · exact apart (amends.writes.touches touches)
    · exact apart (ends.uses.touches touches)
  exact {
    layout := runs.layout? fun deed permitted => (bypasses deed permitted).not_replaces
    pages := fun va page present => runs.continues sound present fun new _ permitted =>
      bypasses (.discarded ⟨other, va⟩ new) permitted rfl
    vacant := fun va vacant => runs.vacant sound vacant fun page permitted =>
      bypasses (.reserved ⟨other, va⟩ page) permitted rfl
    content := fun va => runs.content_untouched sound (untouched va)
    handles := fun holder same => given.others holder (same ▸ apart) }

/-! ## Processes that stay -/

/-- A process that is there stays until it is removed. -/
theorem Turn.stays
    (turn : Turn deed before after) (alive : before.space? pid ≠ none)
    (spared : deed ≠ .removed pid) : after.space? pid ≠ none := by
  by_cases kept : deed.Replaces pid
  · rcases kept with rfl | rfl | ⟨reach, rfl⟩
    · cases turn with
      | created absent => exact absurd absent alive
    · exact absurd rfl spared
    · cases turn with
      | relaid _ _ pages table keyed kept =>
          rw [space?_modifySpace, if_pos rfl, Ne, Option.map_eq_none_iff]
          exact alive
  · rw [Ne, ← layout?_eq_none_iff, turn.layout? kept, layout?_eq_none_iff]
    exact alive

theorem Runs.stays
    (runs : Runs allowed before after) (alive : before.space? pid ≠ none)
    (spared : ¬ allowed (.removed pid)) : after.space? pid ≠ none := by
  induction runs with
  | refl => exact alive
  | tail _ permitted turn inductionHypothesis =>
      exact turn.stays inductionHypothesis fun removed => spared (removed ▸ permitted)

/-- A fork that fails removes at most the child that it made. -/
theorem Orderly.stays_fork
    {parent child : Pid} (orderly : before.Orderly config events)
    (run : attempt (Call.fork parent child).perform before = .ok (.error error) after)
    (alive : before.space? child ≠ none) : after.space? child ≠ none := by
  rcases (meets_fork orderly.sound orderly.unpinned orderly.tidy parent child).of_answered run with
    ⟨_, answered, _⟩ | ⟨_, _, _, same | ⟨absent, _⟩⟩
  · cases answered
  · rw [same]
    exact alive
  · exact absurd absent alive

end Pager

/-- No call removes a process as long as it goes well, but its exit. -/
theorem Call.Does.exits {call : Call} {before : Pager} {pid : Pid}
    (does : call.Does before (.removed pid)) : call = .exitProcess pid := by
  cases call with
  | exitProcess other => exact congrArg Call.exitProcess (Eq.symm does)
  | unmap other base =>
      obtain ⟨_, _, withdraws⟩ := does
      exact absurd withdraws id
  | createProcess | setStackPointer => cases does
  | _ => exact absurd does id

namespace Pager

open PagerM

/-- A process ends by its exit or by an access of its own that fails. -/
theorem Orderly.ends_by
    {before after : Pager} {config : Config} {events : List Event} {call : Call} {pid : Pid}
    {outcome : Except PagingError Answer} (orderly : before.Orderly config events)
    (run : attempt call.perform before = .ok outcome after)
    (alive : before.space? pid ≠ none) (gone : after.space? pid = none) :
    call = .exitProcess pid ∨ (call.access? = some pid ∧ ∃ error, outcome = .error error) := by
  by_cases exits : call = .exitProcess pid
  · exact Or.inl exits
  · right
    have spared : ¬ call.Does before (.removed pid) := fun does => exits does.exits
    rcases (meets_perform orderly.sound orderly.unpinned orderly.tidy call
        (admissible_of_run run)).of_attempt run with
      ⟨_, _, _, does, _⟩ | ⟨error, rfl, _, _, does | ⟨victim, middle, risky, does, ended⟩, _⟩
    · exact absurd gone (does.runs.stays alive spared)
    · exact absurd gone (does.runs.stays alive spared)
    · -- A process that a call puts at risk is the one it accesses, or the child that a fork makes.
      have victimIs : victim = pid := by
        by_contra apart
        have still := does.runs.stays alive spared
        exact ended.ends.runs.stays still (fun removed => apart (Eq.symm removed)) gone
      rw [victimIs] at risky
      cases call with
      | fork parent child =>
          cases risky
          exact absurd gone (orderly.stays_fork run alive)
      | handlePageFault | readUser | writeUser => exact ⟨risky, error, rfl⟩
      | _ => cases risky

end Pager

open PagerM Pager

section Laws

variable {config : Config} {kind : PolicyKind} {device : Device} {files : FileTable}
  {events : List Event} {before after : Pager} {call : Call} {outcome : Except PagingError Answer}

/-- In every state of a history an access that fails ends its process, which gives back all it held, and
leaves every other process alone; and no process ends but by its exit or by an access of its own that
fails. -/
theorem failed_access_ends_its_process_only
    (history : History config kind device files events before)
    (run : attempt call.perform before = .ok outcome after) :
    (∀ pid error, call.access? = some pid → outcome = .error error →
      error.RefusesAccess pid ∧ Cleared pid before after ∧
        ∀ other, other ≠ pid → Undisturbed other before after) ∧
    ∀ pid, before.space? pid ≠ none → after.space? pid = none →
      call = .exitProcess pid ∨ (call.access? = some pid ∧ ∃ error, outcome = .error error) := by
  have orderly := history.orderly
  refine ⟨?_, fun pid alive gone => orderly.ends_by run alive gone⟩
  rintro pid error accesses rfl
  have external := orderly.external run
  obtain ⟨_, answered, _⟩ | ⟨_, middle, failed, amends, killed⟩ := orderly.accessed accesses run
  · cases answered
  cases failed
  have middleSound := amends.runs.sound orderly.sound
  have afterSound := killed.ends.runs.sound middleSound
  -- Handles are given up on both legs: a segment is closed when its page is touched, the others at the end.
  have given : GivesUp pid before after :=
    (amends.runs.givesUp orderly.sound fun _ => id).trans killed.givesUp
  have whole : Runs (fun deed => deed.Amends pid ∨ deed.Ends pid) before after :=
    (amends.runs.mono fun _ => Or.inl).trans (killed.ends.runs.mono fun _ => Or.inr)
  exact ⟨killed.lethal.refusesAccess external, cleared_of_gone afterSound killed.gone given,
    fun other apart => whole.undisturbed orderly.sound given apart⟩

/-- A process that has one page and maps a file, beside another process. -/
def pageAndMapping : List Call :=
  [.createProcess 1, .createProcess 2, .allocate 1 .anonymous 4096 true,
    .allocate 2 .anonymous 4096 true, .writeUser 2 4096 #[9], .map 1 12288 1 true 0 0]

/-- A write that runs out of its page ends the process when its first bytes are stored; the handles of the
mapping are closed, and the other process has its page with what it wrote. -/
theorem failed_access_ends_its_process_only_of_overrun :
    ∃ before after error,
      attempt (Call.writeUser 1 8190 #[7, 8, 9]).perform before = .ok (.error error) after ∧
        error.RefusesAccess 1 ∧ Cleared 1 before after ∧ Undisturbed 2 before after ∧
          before.files.handles 0 = 3 ∧ after.files.handles 0 = 1 := by
  have ended : (((Pager.create { frameCount := 1 } .fifo (Device.blank .memory 8)
      ⟨#[.create .memory #[1]]⟩).play [] pageAndMapping).any fun result =>
        result.2.comesTo (.writeUser 1 8190 #[7, 8, 9]) fun outcome after => !outcome.isOk &&
          (result.2.files.handles 0 == 3 && after.files.handles 0 == 1)) = true := by
    decide +kernel
  obtain ⟨⟨events, before⟩, played, failed⟩ := (Option.any_eq_true ..).mp ended
  obtain ⟨outcome, after, run, holds⟩ := exists_run_of_comesTo failed
  obtain ⟨refused, counts⟩ := Bool.and_eq_true_iff.mp holds
  obtain ⟨opened, closed⟩ := Bool.and_eq_true_iff.mp counts
  cases outcome with
  | ok => cases refused
  | error error =>
      obtain ⟨refuses, cleared, undisturbed⟩ :=
        (failed_access_ends_its_process_only (History.start.play played) run).1 1 error rfl rfl
      exact ⟨before, after, error, run, refuses, cleared, undisturbed 2 (by decide),
        eq_of_beq opened, eq_of_beq closed⟩

end Laws

end DemandPaging
