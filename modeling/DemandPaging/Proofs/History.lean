import DemandPaging.Proofs.Calls

/-!
# Histories

A history starts with virtual memory without processes and goes on by calls that were answered or
refused. Between calls files may change and the device may fail or recover, as long as it keeps its
sectors. Every state of a history is orderly: the holdings agree, nothing is pinned, and anonymous
memory holds what flat memory holds.
-/

namespace DemandPaging

/-- The states that virtual memory can be in after events, the latest first. -/
inductive History (config : Config) (kind : PolicyKind) (device : Device) (files : FileTable) :
    List Event → Pager → Prop
  | start : History config kind device files [] (Pager.create config kind device files)
  | call {event : Event} {events : List Event} {before after : Pager}
      (history : History config kind device files events before)
      (run : PagerM.attempt event.call.perform before = .ok event.outcome after)
      (noted : after.journal = event.activity ++ before.journal) :
      History config kind device files (event :: events) after
  | outside {events : List Event} {pager : Pager} {otherFiles : FileTable} {otherDevice : Device}
      (history : History config kind device files events pager)
      (same : otherDevice.sectors = pager.swap.device.sectors) :
      History config kind device files events
        { pager with files := otherFiles, swap := { pager.swap with device := otherDevice } }

/-- What holds after events. -/
structure Pager.Orderly (pager : Pager) (config : Config) (events : List Event) : Prop where
  sound : pager.ledger.Sound none
  unpinned : pager.Unpinned
  tidy : pager.Tidy
  config : pager.config = config
  content : pager.ledger.content = flatMemory events
  backed : ∀ owner succeeded, Activity.fetched owner (.anonymous none) succeeded ∉ pager.journal

namespace Pager

open PagerM

variable {before after pager : Pager} {config : Config} {events : List Event} {event : Event}

/-! ## Calls that are not admissible -/

/-- A program that can end in no other way than by halting at once. -/
def Halts {α : Type} (program : PagerM α) (before : Pager) : Prop :=
  program.Meets before ⟨fun _ _ => False, fun _ _ => False, fun _ after => after = before⟩

theorem Halts.bind
    {α β : Type} {program : PagerM α} (halts : Halts program before) (next : α → PagerM β) :
    Halts (program >>= next) before :=
  (meets_bind ..).mpr (halts.mono (fun _ _ => False.elim) (fun _ _ => id) fun _ _ => id)

theorem Halts.not_attempt
    {α : Type} {program : PagerM α} {outcome : Except PagingError α} (halts : Halts program before)
    (run : attempt program before = .ok outcome after) : False := by
  have never : (attempt program).Meets before
      ⟨fun _ _ => False, fun _ _ => False, fun _ after => after = before⟩ :=
    (meets_attempt ..).mpr halts
  exact never.of_ok run

/-- A page whose address is not aligned, or whose load is too long, is not reserved. -/
theorem halts_reservePage
    {page : Page} (wrong : pageAligned page.va = false ∨ ¬ page.kind.readLength ≤ pageSize)
    (pid : Pid) : Halts (reservePage pid page) before := by
  rw [Halts, reservePage, meets_bind, meets_insist]
  refine ⟨fun aligned => ?_, fun _ => rfl⟩
  refine (meets_bind ..).mpr ((meets_insist ..).mpr ⟨fun fits => ?_, fun _ => rfl⟩)
  rcases wrong with unaligned | long
  · rw [unaligned] at aligned
    cases aligned
  · exact absurd (of_decide_eq_true fits) long

/-- A stack that does not end with a page, or whose page starts at no word, is not begun. -/
theorem halts_setupStack (wrong : ¬ before.config.HasStackPage) (pid : Pid) :
    Halts (setupStack pid) before := by
  rw [Halts, setupStack, meets_bind, meets_get]
  dsimp only
  rw [meets_bind, meets_subtractWords]
  split
  · rfl
  · rename_i computed
    have unaligned : pageAligned before.config.stackTop = false := by
      rw [Bool.eq_false_iff]
      exact fun aligned => wrong ⟨aligned, fun checked => Nat.not_lt.mp fun low => computed ⟨checked, low⟩⟩
    rw [← pageAligned_below] at unaligned
    dsimp only
    generalize (before.config.stackTop + wordLimit - pageSize) % wordLimit = bottom at unaligned ⊢
    exact (halts_reservePage (Or.inl unaligned) pid).bind _

theorem halts_of_not_admissible
    {call : Call} (wrong : ¬ call.IsAdmissible before.config) : Halts call.perform before := by
  cases call with
  | allocateLazily pid va writable load =>
      have long : ¬ (PageKind.pending load).readLength ≤ pageSize := wrong
      exact (halts_reservePage (Or.inr long) pid).bind _
  | setupStack pid => exact (halts_setupStack wrong pid).bind _
  | _ => exact absurd trivial wrong

/-- A call that does not halt is admissible. -/
theorem admissible_of_run
    {call : Call} {outcome : Except PagingError Answer}
    (run : attempt call.perform before = .ok outcome after) : call.IsAdmissible before.config := by
  by_contra wrong
  exact (halts_of_not_admissible wrong).not_attempt run

/-! ## Every state is orderly -/

theorem tidy_create (config : Config) (kind : PolicyKind) (device : Device) (files : FileTable) :
    (create config kind device files).Tidy where
  marked owner dirty := by simp [dirtyOf, shown, space?, create] at dirty
  keyed pid layout found := by simp [layout?, space?, create] at found

theorem orderly_create (config : Config) (kind : PolicyKind) (device : Device) (files : FileTable) :
    (create config kind device files).Orderly config [] := by
  have sound := Ledger.sound_create config kind device files
  have vacant (owner : Owner) : (create config kind device files).ledger.pages owner = none := by
    simp [ledger, pageOf, shown, space?, create]
  refine ⟨sound, fun frame => ?_, tidy_create config kind device files, rfl, funext fun owner => ?_,
    fun _ _ => List.not_mem_nil⟩
  · rw [Bool.eq_false_iff]
    intro pinned
    obtain ⟨owner, owned⟩ := Option.ne_none_iff_exists'.mp (sound.listed.owned frame pinned)
    obtain ⟨page, present, _⟩ := sound.page_of_owner owned
    rw [vacant] at present
    cases present
  · exact Ledger.content_of_vacant (vacant owner)

/-- Files and failures of the device do not show in the ledger. -/
theorem ledger_outside
    (files : FileTable) {device : Device} (same : device.sectors = pager.swap.device.sectors) :
    { pager with files := files, swap := { pager.swap with device := device } }.ledger =
      pager.ledger := by
  have images : SwapSpace.slotImage { pager.swap with device := device } = pager.swap.slotImage :=
    funext fun slot => SwapSpace.slotImage_congr same slot
  simp only [ledger, images]
  rfl

theorem Orderly.outside
    {device : Device} (orderly : pager.Orderly config events) (files : FileTable)
    (same : device.sectors = pager.swap.device.sectors) :
    Orderly { pager with files := files, swap := { pager.swap with device := device } } config
      events := by
  have ledger := @ledger_outside pager files device same
  obtain ⟨sound, unpinned, tidy, isConfig, content, backed⟩ := orderly
  refine ⟨?_, ?_, ⟨?_, tidy.keyed⟩, isConfig, ?_, backed⟩
  · rw [ledger]
    exact sound
  · rw [Unpinned, ledger]
    exact unpinned
  · rw [ledger]
    exact tidy.marked
  · rw [ledger]
    exact content

/-- A call that does not halt reaches the state after it by deeds that it permits. -/
theorem Orderly.performs
    {call : Call} {outcome : Except PagingError Answer} (orderly : before.Orderly config events)
    (run : attempt call.perform before = .ok outcome after) :
    Reaches (call.Permits before) before after ∧ Fulfils call before after ∧
      ∃ activity, Event.Tells ⟨call, outcome, activity⟩ before after := by
  rcases (meets_perform orderly.sound orderly.unpinned orderly.tidy call
      (admissible_of_run run)).of_attempt run with
    ⟨_, rfl, reaches, does, tells⟩ | ⟨_, rfl, reaches, _, fulfils, tells⟩
  · exact ⟨reaches, Or.inl does, tells⟩
  · exact ⟨reaches, fulfils, tells⟩

theorem Orderly.tells
    (orderly : before.Orderly config events)
    (run : attempt event.call.perform before = .ok event.outcome after)
    (noted : after.journal = event.activity ++ before.journal) : event.Tells before after := by
  obtain ⟨_, _, activity, tells⟩ := orderly.performs run
  have same : activity = event.activity := List.append_cancel_right (tells.noted.symm.trans noted)
  subst same
  exact tells

theorem Orderly.call
    (orderly : before.Orderly config events)
    (run : attempt event.call.perform before = .ok event.outcome after)
    (noted : after.journal = event.activity ++ before.journal) :
    after.Orderly config (event :: events) := by
  have reaches := (orderly.performs run).1
  have tells := orderly.tells run noted
  refine ⟨reaches.runs.sound orderly.sound, reaches.unpinned orderly.unpinned,
    reaches.runs.tidy orderly.sound orderly.tidy, reaches.runs.config.trans orderly.config, ?_,
    fun owner succeeded member => ?_⟩
  · rw [tells.content, orderly.content]
    rfl
  · rw [noted] at member
    rcases List.mem_append.mp member with now | earlier
    · exact tells.backed owner succeeded now
    · exact orderly.backed owner succeeded earlier

theorem Orderly.ran
    {call : Call} {outcome : Except PagingError Answer} (orderly : before.Orderly config events)
    (run : attempt call.perform before = .ok outcome after) :
    ∃ activity, after.Orderly config (⟨call, outcome, activity⟩ :: events) := by
  obtain ⟨_, _, activity, tells⟩ := orderly.performs run
  exact ⟨activity, @Orderly.call before after config events ⟨call, outcome, activity⟩ orderly run
    tells.noted⟩

end Pager

theorem History.orderly
    {config : Config} {kind : PolicyKind} {device : Device} {files : FileTable}
    {events : List Event} {pager : Pager} (history : History config kind device files events pager) :
    pager.Orderly config events := by
  induction history with
  | start => exact Pager.orderly_create config kind device files
  | call _ run noted inductionHypothesis => exact inductionHypothesis.call run noted
  | outside _ same inductionHypothesis => exact inductionHypothesis.outside _ same

/-! ## Computing histories -/

namespace Pager

/-- What was noted since an earlier state, the latest first. -/
def journalSince (later earlier : Pager) : List Activity :=
  later.journal.take (later.journal.length - earlier.journal.length)

theorem journal_eq_since
    {later earlier : Pager} {activity : List Activity}
    (noted : later.journal = activity ++ earlier.journal) :
    later.journal = later.journalSince earlier ++ earlier.journal := by
  have since : later.journalSince earlier = activity := by
    rw [journalSince, noted, List.length_append, Nat.add_sub_cancel]
    exact List.take_left
  rw [since]
  exact noted

/-- The events of calls one after the other, put before earlier events, and the state they lead to,
unless a call halts. -/
def play (pager : Pager) (events : List Event) : List Call → Option (List Event × Pager)
  | [] => some (events, pager)
  | call :: rest =>
      match PagerM.attempt call.perform pager with
      | .ok outcome after => after.play (⟨call, outcome, after.journalSince pager⟩ :: events) rest
      | .error _ _ => none

end Pager

/-- Calls that do not halt continue a history. -/
theorem History.play
    {config : Config} {kind : PolicyKind} {device : Device} {files : FileTable}
    {events allEvents : List Event} {pager final : Pager} {calls : List Call}
    (history : History config kind device files events pager)
    (played : pager.play events calls = some (allEvents, final)) :
    History config kind device files allEvents final := by
  induction calls generalizing events pager with
  | nil =>
      cases played
      exact history
  | cons call rest inductionHypothesis =>
      unfold Pager.play at played
      split at played
      · rename_i outcome after run
        obtain ⟨_, _, _, tells⟩ := history.orderly.performs run
        exact inductionHypothesis (.call history run (Pager.journal_eq_since tells.noted)) played
      · cases played

namespace Pager

/-- Whether a call does not halt and something holds of its outcome and of the state after it. -/
def comesTo (pager : Pager) (call : Call) (holds : Except PagingError Answer → Pager → Bool) : Bool :=
  match PagerM.attempt call.perform pager with
  | .ok outcome after => holds outcome after
  | .error _ _ => false

theorem exists_run_of_comesTo
    {pager : Pager} {call : Call} {holds : Except PagingError Answer → Pager → Bool}
    (comes : pager.comesTo call holds = true) :
    ∃ outcome after, PagerM.attempt call.perform pager = .ok outcome after ∧
      holds outcome after = true := by
  unfold comesTo at comes
  split at comes
  · exact ⟨_, _, ‹_›, comes⟩
  · cases comes

end Pager

/-! ## How calls end -/

/-- Whatever is called in a state of a history, it halts for want of memory only, unless the build checks its
sums and a segment is loaded whose places in the file are no words, and no error tells of broken
bookkeeping. -/
theorem halts_exhausted_errors_external
    {config : Config} {kind : PolicyKind} {device : Device} {files : FileTable}
    {events : List Event} {before : Pager}
    (history : History config kind device files events before) (call : Call)
    (admissible : call.IsAdmissible config) :
    (∀ halt after, call.perform before = .error (.halted halt) after →
      after.Exhausted config.frameCount halt ∨ halt = .sumTooLarge ∧ config.arithmetic = .checked) ∧
        ∀ error after, call.perform before = .error (.failed error) after →
          ¬ error.IsInternal := by
  obtain ⟨sound, unpinned, tidy, same, _, _⟩ := history.orderly
  subst same
  have performs := Pager.meets_perform sound unpinned tidy call admissible
  constructor
  · exact fun halt after run =>
      (performs.of_halted run).cause.imp id fun overflows => ⟨overflows.isSum, overflows.checked⟩
  · exact fun error after run => (performs.of_failed run).2.1

/-- A process with two pages of anonymous memory. -/
def twoPages : List Call :=
  [.createProcess 1, .allocate 1 .anonymous 4096 true, .allocate 1 .anonymous 8192 true,
    .writeUser 1 4096 #[7]]

/-- With one frame and no slot the second page cannot be touched, also where sums may wrap. -/
theorem halts_exhausted_errors_external_of_one_frame :
    ∃ before after victim error,
      (Call.claim 1 8192).perform before = .error (.halted (.evictionFailed victim error)) after ∧
        ∃ owner, after.Stuck victim error owner := by
  have ended : (((Pager.create { frameCount := 1, arithmetic := .wrapping } .fifo (Device.blank .memory 0)
      ⟨#[]⟩).play [] twoPages).any fun result =>
        match (Call.claim 1 8192).perform result.2 with
        | .error (.halted (.evictionFailed _ _)) _ => true
        | _ => false) = true := by
    decide +kernel
  obtain ⟨⟨events, before⟩, played, stuck⟩ := (Option.any_eq_true ..).mp ended
  dsimp only at stuck
  split at stuck
  · rename_i victim error after run
    have cause := (halts_exhausted_errors_external (History.start.play played) (.claim 1 8192) trivial).1
      _ _ run
    exact ⟨before, after, victim, error, run, cause.resolve_right fun overflows => by cases overflows.2⟩
  · cases stuck

end DemandPaging
