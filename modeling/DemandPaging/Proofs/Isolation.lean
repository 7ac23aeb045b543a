import DemandPaging.Proofs.History
import DemandPaging.Proofs.MirroredCalls

/-!
# Isolation of processes

What the calls for a process come to, if it uses no file, follows from these calls alone. It depends on no
call for another process, on no number of frames or slots, and on no choice of what loses its frame.
-/

namespace DemandPaging

/-- The calls that were made for a process. -/
def callsFor (pid : Pid) (events : List Event) : List Call :=
  (events.map Event.call).filter (Call.isFor pid)

/-- What the calls for a process came to that made no copy of it. -/
def outcomesFor (pid : Pid) (events : List Event) : List (Except PagingError Answer) :=
  (events.filter fun event => event.call.isFor pid && !event.call.isFork).map Event.outcome

/-- An event that brings a process no file and no copy, and in which the device did not fail for it. -/
def Event.Spares (pid : Pid) (event : Event) : Prop :=
  event.call.isAnonymous pid = true ∧ ¬ Missed pid event.activity

instance (pid : Pid) (event : Event) : Decidable (event.Spares pid) :=
  inferInstanceAs (Decidable (_ ∧ ¬ Missed pid event.activity))

variable {config otherConfig : Config} {kind otherKind : PolicyKind} {device otherDevice : Device}
  {files otherFiles : FileTable} {event : Event} {events otherEvents : List Event}
  {before after pager otherPager : Pager} {pid : Pid}

section Parts

theorem callsFor_cons :
    callsFor pid (event :: events) =
      if event.call.isFor pid then event.call :: callsFor pid events else callsFor pid events := by
  rw [callsFor, List.map_cons, List.filter_cons]
  rfl

theorem outcomesFor_cons :
    outcomesFor pid (event :: events) =
      if event.call.isFor pid && !event.call.isFork then event.outcome :: outcomesFor pid events
      else outcomesFor pid events := by
  rw [outcomesFor, List.filter_cons]
  split <;> rfl

end Parts

namespace Pager

open PagerM

/-- A call for a process comes to what it comes to on the memory of the process alone. -/
theorem Orderly.perform_eq
    (orderly : before.Orderly config events) (plain : before.Plain pid)
    (aligned : pageAligned config.kernelBase = true)
    (run : attempt event.call.perform before = .ok event.outcome after)
    (noted : after.journal = event.activity ++ before.journal) (spares : event.Spares pid)
    (isFor : event.call.isFor pid = true) (unforked : event.call.isFork = false) :
    UserMemory.perform config.unlimited event.call (before.userMemory pid) =
      match event.outcome with
      | .ok answer => .ok answer (after.userMemory pid)
      | .error error => .error error (after.userMemory pid) := by
  obtain ⟨anonymous, fetched⟩ := spares
  have same := orderly.config
  subst same
  have mirrors := mirrors_perform (orderly.unpinned.ready orderly.sound) plain aligned isFor unforked
    anonymous (admissible_of_run run)
  have now {later : List Activity} (brought : after.journal = later ++ before.journal) :
      ¬ Missed pid later := by
    rw [List.append_cancel_right (brought.symm.trans noted)]
    exact fetched
  rcases mirrors.of_attempt run with ⟨answer, outcome, later, brought, echoed⟩ |
    ⟨error, outcome, later, brought, echoed⟩
  · rw [outcome]
    exact echoed.resolve_left (now brought)
  · rw [outcome]
    exact echoed.resolve_left (now brought)

/-- A process sees nothing of other calls, nor of its own copies. -/
theorem Orderly.userMemory_eq
    (orderly : before.Orderly config events) (plain : before.Plain pid)
    (run : attempt event.call.perform before = .ok event.outcome after)
    (anonymous : event.call.isAnonymous pid = true)
    (apart : event.call.isFor pid = false ∨ event.call.isFork = true) :
    after.userMemory pid = before.userMemory pid :=
  (orderly.performs run).1.runs.userMemory orderly.sound plain
    fun _ permits => permits.bypasses_of_apart anonymous apart

theorem Orderly.plain
    (orderly : before.Orderly config events) (plain : before.Plain pid)
    (run : attempt event.call.perform before = .ok event.outcome after)
    (anonymous : event.call.isAnonymous pid = true) : after.Plain pid :=
  (orderly.performs run).1.runs.plain orderly.sound plain fun _ permits => permits.plainly anonymous

end Pager

/-- A process that uses no file has the memory that its calls make, and they come to what they come to on
this memory alone. -/
theorem History.replays
    (history : History config kind device files events pager)
    (aligned : pageAligned config.kernelBase = true)
    (spares : ∀ event ∈ events, event.Spares pid) :
    pager.Plain pid ∧ UserMemory.replay config.unlimited (callsFor pid events) =
      (pager.userMemory pid, outcomesFor pid events) := by
  -- What carries the induction is the memory that the process sees: other calls and changes outside leave it
  -- alone, and a call for the process makes of it what the replay makes.
  induction history with
  | start =>
      have absent : (Pager.create config kind device files).space? pid = none := by
        simp [Pager.space?, Pager.create]
      refine ⟨fun va page present => ?_, by rw [Pager.userMemory_eq_none_iff.mpr absent]; rfl⟩
      rw [Pager.pages_of_absent absent] at present
      cases present
  | @call event events before after history run noted inductionHypothesis =>
      obtain ⟨here, earlier⟩ := List.forall_mem_cons.mp spares
      obtain ⟨plain, replayed⟩ := inductionHypothesis earlier
      have orderly := history.orderly
      refine ⟨orderly.plain plain run here.1, ?_⟩
      rw [callsFor_cons, outcomesFor_cons]
      cases isFor : event.call.isFor pid with
      | false =>
          rw [orderly.userMemory_eq plain run here.1 (Or.inl isFor)]
          exact replayed
      | true =>
          cases isFork : event.call.isFork with
          | true =>
              simp only [if_true, Bool.not_true, Bool.and_false, Bool.false_eq_true, if_false]
              rw [orderly.userMemory_eq plain run here.1 (Or.inr isFork), UserMemory.replay, replayed]
              simp only [isFork, if_true]
          | false =>
              have performed := orderly.perform_eq plain aligned run noted here isFor isFork
              simp only [if_true, Bool.not_false, Bool.and_true]
              rw [UserMemory.replay, replayed]
              simp only [isFork, Bool.false_eq_true, if_false, performed]
              cases event.outcome <;> rfl
  | @outside events pager otherFiles otherDevice history same inductionHypothesis =>
      obtain ⟨plain, replayed⟩ := inductionHypothesis spares
      have ledger := @Pager.ledger_outside pager otherFiles otherDevice same
      have unseen : Pager.userMemory { pager with
          files := otherFiles, swap := { pager.swap with device := otherDevice } } pid =
            pager.userMemory pid := by
        simp only [Pager.userMemory, Pager.userPage, ledger]
        rfl
      refine ⟨fun va page present => plain va page ?_, by rw [unseen]; exact replayed⟩
      rw [ledger] at present
      exact present

/-- Isolation. In two histories with the same calls for a process they come to the same, in whatever company
and on however many frames and slots, if the process uses no file and is no copy, and the device never fails
for it. -/
theorem process_isolated
    (history : History config kind device files events pager)
    (otherHistory : History otherConfig otherKind otherDevice otherFiles otherEvents otherPager)
    (alike : otherConfig.unlimited = config.unlimited)
    (aligned : pageAligned config.kernelBase = true)
    (spares : ∀ event ∈ events, event.Spares pid)
    (otherSpares : ∀ event ∈ otherEvents, event.Spares pid)
    (sameCalls : callsFor pid events = callsFor pid otherEvents) :
    outcomesFor pid events = outcomesFor pid otherEvents := by
  have otherAligned : pageAligned otherConfig.kernelBase = true := by
    have kernelBase := congrArg Config.kernelBase alike
    rw [show otherConfig.kernelBase = config.kernelBase from kernelBase]
    exact aligned
  have replayed := (history.replays aligned spares).2
  have otherReplayed := (otherHistory.replays otherAligned otherSpares).2
  rw [alike, ← sameCalls, replayed] at otherReplayed
  exact congrArg Prod.snd otherReplayed

/-- A process with two pages that writes the one, touches the other and reads the first again. -/
def readBack : List Call :=
  [.createProcess 1, .allocate 1 .anonymous 4096 true, .allocate 1 .anonymous 8192 true,
    .writeUser 1 4096 #[7], .claim 1 8192, .readUser 1 4096 1, .fork 1 2, .writeUser 1 12288 #[7]]

/-- The same calls among those for another process. -/
def readBackInCompany : List Call :=
  [.createProcess 1, .createProcess 3, .allocate 1 .anonymous 4096 true,
    .allocate 1 .anonymous 8192 true, .allocate 3 .anonymous 4096 true, .writeUser 1 4096 #[7],
    .writeUser 3 4096 #[9], .claim 1 8192, .exitProcess 3, .readUser 1 4096 1, .fork 1 2,
    .writeUser 1 12288 #[7]]

/-- With one frame the first page is read again from its slot and the process cannot be copied; with four
frames and no slot every page keeps its frame. -/
theorem process_isolated_of_read_back :
    ∃ events otherEvents pager otherPager,
      History { frameCount := 1 } .fifo (Device.blank .memory 16) ⟨#[]⟩ events pager ∧
      History { frameCount := 4 } .clock (Device.blank .memory 0) ⟨#[]⟩ otherEvents otherPager ∧
      callsFor 1 events = readBack.reverse ∧ callsFor 1 otherEvents = readBack.reverse ∧
      outcomesFor 1 events = outcomesFor 1 otherEvents := by
  have ran : (((Pager.create { frameCount := 1 } .fifo (Device.blank .memory 16) ⟨#[]⟩).play []
      readBack).any fun result =>
        decide (callsFor 1 result.1 = readBack.reverse ∧ ∀ event ∈ result.1, event.Spares 1)) =
          true := by
    decide +kernel
  have otherRan : (((Pager.create { frameCount := 4 } .clock (Device.blank .memory 0) ⟨#[]⟩).play []
      readBackInCompany).any fun result =>
        decide (callsFor 1 result.1 = readBack.reverse ∧ ∀ event ∈ result.1, event.Spares 1)) =
          true := by
    decide +kernel
  obtain ⟨⟨events, pager⟩, played, holds⟩ := (Option.any_eq_true ..).mp ran
  obtain ⟨⟨otherEvents, otherPager⟩, otherPlayed, otherHolds⟩ := (Option.any_eq_true ..).mp otherRan
  obtain ⟨calls, spares⟩ := of_decide_eq_true holds
  obtain ⟨otherCalls, otherSpares⟩ := of_decide_eq_true otherHolds
  have history := History.start.play played
  have otherHistory := History.start.play otherPlayed
  exact ⟨events, otherEvents, pager, otherPager, history, otherHistory, calls, otherCalls,
    process_isolated history otherHistory rfl (by decide) spares otherSpares
      (calls.trans otherCalls.symm)⟩

end DemandPaging
