import DemandPaging.Proofs.HandleConservation

/-!
# A failed fork leaves no trace

Wherever a fork fails, the child that was begun is gone with everything it took. The processes that were
there have the pages, the layouts and the memory that they had; all that may be left is that pages of the
parent were touched and that pages moved.
-/

namespace DemandPaging

namespace Pager

/-- What a fork leaves that fails: `before` is the state in which it started. -/
structure Traceless (before after : Pager) (parent : Pid) : Prop where
  pids : ∀ pid, after.space? pid = none ↔ before.space? pid = none
  /-- The stack pointers and the regions. -/
  layout : ∀ pid, after.layout? pid = before.layout? pid
  vacant : ∀ owner, before.pageOf owner = none → after.pageOf owner = none
  /-- The flags, the types and the regions of the pages. -/
  pages : ∀ owner page, before.pageOf owner = some page →
    ∃ new, after.pageOf owner = some new ∧ new.Continues page
  memory : ∀ owner page, before.pageOf owner = some page → page.IsPlain →
    after.userPage owner = before.userPage owner
  unpinned : after.Unpinned
  frames : ∀ frame owner, after.frames.owner? frame = some owner → before.pageOf owner ≠ none
  slots : ∀ slot, after.swap.used.get slot = true →
    ∃ owner page, before.pageOf owner ≠ none ∧ after.pageOf owner = some page ∧
      page.kind = .anonymous (some slot)
  /-- A page of a segment needs its handle no longer once it is loaded. -/
  holders : ∀ holder, after.handleAt holder = before.handleAt holder ∨
    after.handleAt holder = none ∧ ∃ va page new, holder = .page ⟨parent, va⟩ ∧
      before.pageOf ⟨parent, va⟩ = some page ∧ after.pageOf ⟨parent, va⟩ = some new ∧
        new.LoadedFrom page
  handles : ∀ file, after.files.handles file + before.held file =
    before.files.handles file + after.held file

open PagerM

variable {before after : Pager} {config : Config} {events : List Event} {parent child : Pid}
  {error : PagingError}

/-- A fork that fails does nothing for the processes that are there, and none is there that was not. -/
theorem Orderly.fork_bypasses
    (orderly : before.Orderly config events)
    (run : attempt (Call.fork parent child).perform before = .ok (.error error) after) :
    ∃ allowed, Reaches allowed before after ∧
      (∀ pid, before.space? pid ≠ none → ∀ deed, allowed deed → deed.Bypasses pid) ∧
        ∀ pid, before.space? pid = none → after.space? pid = none := by
  rcases (meets_fork orderly.sound orderly.unpinned orderly.tidy parent child).of_answered run with
    ⟨_, answered, _⟩ | ⟨_, _, reaches, same | ⟨absent, _, _, ended⟩⟩
  · cases answered
  · subst same
    exact ⟨fun _ => False, .refl after, fun _ _ _ => False.elim, fun _ => id⟩
  · have bypasses (pid : Pid) (apart : child ≠ pid) (deed : Deed)
        (permitted : deed.Forks before.ledger.pages parent child ∨ deed.Ends child) :
        deed.Bypasses pid := by
      rcases permitted with forks | ends
      · exact forks.bypasses apart
      · exact ends.uses.bypasses apart
    refine ⟨_, reaches, fun pid alive => ?_, fun pid none => ?_⟩
    · apply bypasses pid
      rintro rfl
      exact alive absent
    · by_cases isChild : child = pid
      · exact isChild ▸ ended.gone
      · have layout := reaches.runs.layout? fun deed permitted =>
          (bypasses pid isChild deed permitted).not_replaces
        rw [← layout?_eq_none_iff, layout, layout?_eq_none_iff]
        exact none

/-- A fork that fails opens nothing for anybody, and only pages of the parent that are loaded need their
handles no longer. -/
theorem Orderly.handleAt_failed_fork
    (orderly : before.Orderly config events) (agrees : ∀ pid base, before.RegionAgrees pid base)
    (run : attempt (Call.fork parent child).perform before = .ok (.error error) after)
    (holder : Holder) :
    after.handleAt holder = before.handleAt holder ∨
      after.handleAt holder = none ∧ ∃ va page new, holder = .page ⟨parent, va⟩ ∧
        before.pageOf ⟨parent, va⟩ = some page ∧ after.pageOf ⟨parent, va⟩ = some new ∧
          new.LoadedFrom page := by
  rcases orderly.handleAt_call agrees run holder with same | ⟨released, releases⟩ | ⟨_, _, _, opens⟩
  · exact Or.inl same
  · cases releases with
    | ended ends => cases ends
    | unmapped isUnmap => cases isUnmap
    | withdrawn isUnmap => cases isUnmap
    | loaded loads present presentThen loaded =>
        rename_i owner page new
        have isParent : parent = owner.pid := Option.some.inj loads
        subst isParent
        exact Or.inr ⟨released, owner.va, page, new, rfl, present, presentThen, loaded⟩
  · cases opens.1

/-- What is known of the processes that were there makes up what is left. -/
theorem Orderly.traceless
    (orderly : before.Orderly config events) (agrees : ∀ pid base, before.RegionAgrees pid base)
    (run : attempt (Call.fork parent child).perform before = .ok (.error error) after)
    (handles : ∀ file, after.files.handles file + before.held file =
      before.files.handles file + after.held file) : before.Traceless after parent := by
  obtain ⟨allowed, reaches, bypasses, absent⟩ := orderly.fork_bypasses run
  have sound := orderly.sound
  have runs := reaches.runs
  have afterSound := runs.sound sound
  have layout (pid : Pid) : after.layout? pid = before.layout? pid := by
    by_cases alive : before.space? pid = none
    · rw [layout?_eq_none_iff.mpr (absent pid alive), layout?_eq_none_iff.mpr alive]
    · exact runs.layout? fun deed permitted => (bypasses pid alive deed permitted).not_replaces
  have vacant (owner : Owner) (vacant : before.pageOf owner = none) : after.pageOf owner = none := by
    by_cases alive : before.space? owner.pid = none
    · exact pages_of_absent (absent owner.pid alive) owner.va
    · exact runs.vacant sound vacant fun page permitted =>
        (bypasses owner.pid alive _ permitted).not_reserved rfl
  have earlier {owner : Owner} {page : Page} (present : after.pageOf owner = some page) :
      before.pageOf owner ≠ none := fun none => by
    cases (vacant owner none).symm.trans present
  have alive {owner : Owner} {page : Page} (present : before.pageOf owner = some page) :
      before.space? owner.pid ≠ none := fun none => by
    cases (pages_of_absent none owner.va).symm.trans present
  constructor
  case pids => exact fun pid => by rw [← layout?_eq_none_iff, layout pid, layout?_eq_none_iff]
  case layout => exact layout
  case vacant => exact vacant
  case pages =>
    intro owner page present
    exact runs.continues sound present fun _ _ permitted =>
      (bypasses owner.pid (alive present) _ permitted).not_discarded rfl
  case memory =>
    intro owner page present plain
    refine runs.userPage sound (fun other presentOther => ?_) (bypasses owner.pid (alive present))
    cases presentOther.symm.trans present
    exact plain
  case unpinned => exact reaches.unpinned orderly.unpinned
  case frames =>
    intro frame owner owned
    obtain ⟨page, present, _⟩ := afterSound.page_of_owner owned
    exact earlier present
  case slots =>
    intro slot used
    obtain ⟨owner, page, present, held⟩ := afterSound.slots.page_of_slot slot used
    exact ⟨owner, page, earlier present, present, held⟩
  case holders => exact orderly.handleAt_failed_fork agrees run
  case handles => exact handles

end Pager

section Laws

variable {config : Config} {kind : PolicyKind} {device : Device} {files : FileTable}
  {outside : FileId → Nat} {before after : Pager} {parent child : Pid} {error : PagingError}

/-- However a fork fails in a state of a history, it leaves no trace in any process. -/
theorem failed_fork_leaves_no_trace
    (history : HandleHistory config kind device files outside before)
    (run : PagerM.attempt (Call.fork parent child).perform before = .ok (.error error) after) :
    before.Traceless after parent := by
  obtain ⟨events, earlier⟩ := history.history
  have continued : HandleHistory config kind device files (outside + inHand none) before := by
    rw [inHand_none, add_zero]
    exact history
  have balances := (HandleHistory.call continued run).balances
  have balanced := history.balances
  apply earlier.orderly.traceless earlier.regionAgrees run
  intro file
  rw [balances, balanced, Pi.add_apply, Pi.add_apply, Nat.add_right_comm]

/-- A copy that got pages and discarded them again leaves no trace. -/
theorem failed_fork_leaves_no_trace_of_scarce_file :
    ∃ before after error,
      PagerM.attempt (Call.fork 1 2).perform before = .ok (.error error) after ∧
        (after.journal.any fun activity =>
          match activity with
          | .discarded owner .. => owner == ⟨2, 8192⟩
          | _ => false) = true ∧
          before.Traceless after 1 := by
  have ended : (((Pager.create { frameCount := 2 } .fifo (Device.blank .memory 32) scarceFile).play []
      loadAndMap).any fun result =>
        result.2.comesTo (.fork 1 2) fun outcome after =>
          !outcome.isOk && after.journal.any fun activity =>
            match activity with
            | .discarded owner .. => owner == ⟨2, 8192⟩
            | _ => false) = true := by
    decide +kernel
  obtain ⟨⟨events, before⟩, played, comes⟩ := (Option.any_eq_true ..).mp ended
  obtain ⟨outcome, after, run, holds⟩ := Pager.exists_run_of_comesTo comes
  rw [Bool.and_eq_true] at holds
  cases outcome with
  | ok answer => cases holds.1
  | error error =>
      exact ⟨before, after, error, run, holds.2,
        failed_fork_leaves_no_trace (HandleHistory.start.play played (by decide)) run⟩

end Laws

end DemandPaging
