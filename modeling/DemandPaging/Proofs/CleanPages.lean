import DemandPaging.Proofs.HeedingCalls

/-!
# Pages that nobody wrote to

A page that its process did not write to is never written back, whatever becomes of it, unless it was
made as a copy of a page that was marked as changed. So it cannot put old bytes over what others wrote to
the file.
-/

namespace DemandPaging

open PagerM Pager

/-! ## Histories that go on -/

/-- The states that a history goes on to from a state, by calls of some kind. -/
inductive GoesOn (allowed : Pager → Call → Prop) (start : Pager) : Pager → Prop
  | start : GoesOn allowed start start
  | call {before after : Pager} {call : Call} {outcome : Except PagingError Answer}
      (earlier : GoesOn allowed start before) (permitted : allowed before call)
      (run : attempt call.perform before = .ok outcome after) : GoesOn allowed start after
  | outside {pager : Pager} {files : FileTable} {device : Device} (earlier : GoesOn allowed start pager)
      (same : device.sectors = pager.swap.device.sectors) :
      GoesOn allowed start { pager with files := files, swap := { pager.swap with device := device } }

namespace GoesOn

variable {allowed : Pager → Call → Prop} {start before : Pager} {config : Config} {events : List Event}

theorem orderly (goesOn : GoesOn allowed start before) (orderly : start.Orderly config events) :
    ∃ all, before.Orderly config all := by
  induction goesOn with
  | start => exact ⟨events, orderly⟩
  | call _ _ run inductionHypothesis =>
      obtain ⟨all, orderly⟩ := inductionHypothesis
      obtain ⟨activity, orderlyThen⟩ := orderly.ran run
      exact ⟨_, orderlyThen⟩
  | outside _ same inductionHypothesis =>
      obtain ⟨all, orderly⟩ := inductionHypothesis
      exact ⟨all, orderly.outside _ same⟩

/-- Calls that are permitted in every state lead on. -/
theorem play
    {later latest : List Event} {calls : List Call} {final : Pager} (goesOn : GoesOn allowed start before)
    (permitted : ∀ call ∈ calls, ∀ pager, allowed pager call)
    (played : before.play later calls = some (latest, final)) : GoesOn allowed start final := by
  induction calls generalizing before later with
  | nil =>
      cases played
      exact goesOn
  | cons call rest inductionHypothesis =>
      unfold Pager.play at played
      split at played
      · rename_i outcome after run
        exact inductionHypothesis (.call goesOn (permitted call List.mem_cons_self before) run)
          (fun other member => permitted other (List.mem_cons_of_mem call member)) played
      · cases played

end GoesOn

/-! ## Clean pages -/

section Laws

variable {config : Config} {kind : PolicyKind} {device : Device} {files : FileTable}
  {events : List Event} {start before : Pager} {pid : Pid} {va : Nat}

theorem Pager.Orderly.unmarked_of_vacant
    (orderly : start.Orderly config events) {owner : Owner}
    (vacant : start.ledger.pages ⟨owner.pid, pageBase owner.va⟩ = none) : ¬ start.IsMarked owner := by
  rw [isMarked_iff, dirtyOf_of_vacant orderly.sound fun page present => ?_]
  · exact nofun
  · rw [vacant] at present
    cases present

/-- A page that nothing marked since it was not there is not marked. -/
theorem GoesOn.unmarked
    {owner : Owner} (goesOn : GoesOn (fun pager call => ¬ call.Dirties pager owner) start before)
    (orderly : start.Orderly config events) (clean : ¬ start.IsMarked owner) :
    ¬ before.IsMarked owner := by
  induction goesOn with
  | start => exact clean
  | call earlier spared run inductionHypothesis =>
      rename_i before after call outcome
      obtain ⟨all, orderlyBefore⟩ := earlier.orderly orderly
      have ready := orderlyBefore.unpinned.ready orderlyBefore.sound
      have heeds : Heeds (call.Dirties before) before after := by
        rcases (heeding_perform ready call).of_attempt run with ⟨_, _, heeds⟩ | ⟨_, _, heeds⟩
        · exact heeds
        · exact heeds
      exact heeds.unmarked inductionHypothesis spared
  | outside _ same inductionHypothesis => exact inductionHypothesis

/-- From a state without a page on, as long as nobody writes to the page and the process is not made as a
copy of one whose page is marked: however a call ends, it does not write the page back, and it changes
files only where it wrote other pages back. -/
theorem unwritten_page_never_written_back
    {call : Call} (history : History config kind device files events start)
    (vacant : start.ledger.pages ⟨pid, pageBase va⟩ = none)
    (goesOn : GoesOn (fun pager call => ¬ call.Dirties pager ⟨pid, pageBase va⟩) start before)
    (spared : ¬ call.Dirties before ⟨pid, pageBase va⟩) :
    ∃ noted, (call.perform.leaves before).journal = noted ++ before.journal ∧
      (∀ range succeeded, Activity.wroteBack ⟨pid, pageBase va⟩ range succeeded ∉ noted) ∧
      ChangedWithin (fun range => ∃ other : Owner, other ≠ ⟨pid, pageBase va⟩ ∧
          Activity.wroteBack other range true ∈ noted)
        before.files.content (call.perform.leaves before).files.content := by
  obtain ⟨all, orderly⟩ := goesOn.orderly history.orderly
  have clean := goesOn.unmarked history.orderly
    (history.orderly.unmarked_of_vacant (by rw [pageBase_idem]; exact vacant))
  have heeds := (heeding_perform (orderly.unpinned.ready orderly.sound) call).leaves
    (Heeds (call.Dirties before) before)
  obtain ⟨noted, journal, marked, within⟩ := heeds.noted
  have unwritten (range : FileRange) (succeeded : Bool) :
      Activity.wroteBack ⟨pid, pageBase va⟩ range succeeded ∉ noted :=
    fun member => (marked _ range succeeded member).elim clean spared
  refine ⟨noted, journal, unwritten, within.mono fun range ⟨other, member⟩ => ⟨other, ?_, member⟩⟩
  rintro rfl
  exact unwritten range true member

/-- A process that maps a file of two bytes. -/
def mapTwoBytes : List Call :=
  [.createProcess 1, .map 1 4096 2 true 0 0]

/-- The parent writes to the page and unmaps it while its child keeps the page. -/
def parentWrites : List Call :=
  [.writeUser 1 4096 #[89], .unmap 1 4096]

theorem parentWrites_spares :
    ∀ call ∈ parentWrites, ∀ pager, ¬ call.Dirties pager ⟨2, pageBase 4096⟩ := by
  intro call member pager
  simp only [parentWrites, List.mem_cons, List.not_mem_nil, or_false] at member
  rcases member with rfl | rfl
  · rintro (⟨_, _, here, _⟩ | ⟨_, forks, _⟩)
    · exact absurd here.1 (by decide)
    · cases forks
  · rintro (writes | ⟨_, forks, _⟩)
    · exact writes
    · cases forks

/-- Whether a child that was made before its parent wrote to the page keeps the page that it has. -/
def isCleanChild : Bool :=
  ((Pager.create { frameCount := 4 } .fifo (Device.blank .memory 0)
      ⟨#[.create .memory #[65, 66]]⟩).play [] (mapTwoBytes ++ [.readUser 1 4096 2])).any fun mapped =>
    decide (mapped.2.ledger.pages ⟨2, pageBase 4096⟩ = none) &&
      !(mapped.2.table 1).isDirty 4096 &&
      mapped.2.comesTo (.fork 1 2) fun _ forked =>
        (forked.play [] parentWrites).any fun written =>
          (written.2.ledger.pages ⟨2, pageBase 4096⟩).isSome &&
            decide (written.2.counters.writeBacks = 1)

/-- A child that did not write keeps its old page to itself when it exits. -/
theorem unwritten_page_never_written_back_of_clean_child :
    ∃ start before noted,
      GoesOn (fun pager call => ¬ call.Dirties pager ⟨2, pageBase 4096⟩) start before ∧
      before.ledger.pages ⟨2, pageBase 4096⟩ ≠ none ∧ before.counters.writeBacks = 1 ∧
      ((Call.exitProcess 2).perform.leaves before).journal = noted ++ before.journal ∧
      ∀ range succeeded, Activity.wroteBack ⟨2, pageBase 4096⟩ range succeeded ∉ noted := by
  have ended : isCleanChild = true := by decide +kernel
  unfold isCleanChild at ended
  obtain ⟨⟨events, start⟩, played, ended⟩ := (Option.any_eq_true ..).mp ended
  simp only [Bool.and_eq_true, decide_eq_true_eq, Bool.not_eq_true'] at ended
  obtain ⟨⟨vacant, clean⟩, ended⟩ := ended
  obtain ⟨outcome, forked, run, ended⟩ := exists_run_of_comesTo ended
  obtain ⟨⟨later, before⟩, written, ended⟩ := (Option.any_eq_true ..).mp ended
  simp only [Bool.and_eq_true, decide_eq_true_eq] at ended
  have spared : ¬ (Call.fork 1 2).Dirties start ⟨2, pageBase 4096⟩ := by
    rintro (writes | ⟨parent, forks, marked⟩)
    · exact writes
    · cases forks
      exact absurd (clean.symm.trans marked) Bool.false_ne_true
  have goesOn := (GoesOn.call .start spared run).play parentWrites_spares written
  obtain ⟨noted, journal, unwritten, _⟩ := unwritten_page_never_written_back
    (History.start.play played) vacant goesOn
      (by rintro (writes | ⟨_, forks, _⟩); exacts [writes, nomatch forks] :
        ¬ (Call.exitProcess 2).Dirties before ⟨2, pageBase 4096⟩)
  exact ⟨start, before, noted, goesOn, Option.isSome_iff_ne_none.mp ended.1, ended.2, journal,
    unwritten⟩

/-- Whether the child of a process that wrote before writes back what it got from its parent. -/
def isDirtyChild : Bool :=
  ((Pager.create { frameCount := 4 } .fifo (Device.blank .memory 0)
      ⟨#[.create .memory #[65, 66]]⟩).play [] mapTwoBytes).any fun mapped =>
    decide (mapped.2.ledger.pages ⟨2, pageBase 4096⟩ = none) &&
      (mapped.2.play [] ([.writeUser 1 4096 #[88], .fork 1 2] ++ parentWrites)).any fun written =>
        (((Call.exitProcess 2).perform.leaves written.2).journalSince written.2).contains
          (.wroteBack ⟨2, pageBase 4096⟩ ⟨0, 0, 2⟩ true)

/-- The child of a process that had written to its page writes that page back when it exits, although the
child never wrote and its parent wrote something else to the file meanwhile. -/
theorem unwritten_copy_of_marked_page_written_back :
    ¬ ∀ (config : Config) (kind : PolicyKind) (device : Device) (files : FileTable)
      (events : List Event) (start before : Pager) (pid : Pid) (va : Nat) (call : Call),
      History config kind device files events start →
      start.ledger.pages ⟨pid, pageBase va⟩ = none →
      GoesOn (fun pager call => ¬ call.WritesTo pager ⟨pid, pageBase va⟩) start before →
      ¬ call.WritesTo before ⟨pid, pageBase va⟩ →
      ∃ noted, (call.perform.leaves before).journal = noted ++ before.journal ∧
        ∀ range succeeded, Activity.wroteBack ⟨pid, pageBase va⟩ range succeeded ∉ noted := by
  intro claim
  have ended : isDirtyChild = true := by decide +kernel
  unfold isDirtyChild at ended
  obtain ⟨⟨events, start⟩, played, ended⟩ := (Option.any_eq_true ..).mp ended
  obtain ⟨vacant, ended⟩ := Bool.and_eq_true_iff.mp ended
  obtain ⟨⟨later, before⟩, written, ended⟩ := (Option.any_eq_true ..).mp ended
  have spared : ∀ call ∈ [.writeUser 1 4096 #[88], .fork 1 2] ++ parentWrites, ∀ pager,
      ¬ call.WritesTo pager ⟨2, pageBase 4096⟩ := by
    intro call member pager writes
    rcases List.mem_append.mp member with first | last
    · simp only [List.mem_cons, List.not_mem_nil, or_false] at first
      rcases first with rfl | rfl
      · obtain ⟨_, _, here, _⟩ := writes
        exact absurd here.1 (by decide)
      · exact writes
    · exact parentWrites_spares call last pager (Or.inl writes)
  obtain ⟨noted, journal, unwritten⟩ := claim _ _ _ _ _ start before 2 4096 (.exitProcess 2)
    (History.start.play played) (of_decide_eq_true vacant) (GoesOn.start.play spared written) id
  have since := journal_eq_since journal
  rw [journal] at since
  rw [← List.append_cancel_right since] at ended
  exact unwritten _ _ (List.contains_iff_mem.mp ended)

end Laws

end DemandPaging
