import DemandPaging.Proofs.FaultVerdicts
import DemandPaging.Proofs.Heeding
import DemandPaging.Proofs.Accessing

/-!
# Runs in which page faults are counted

A run may count in any way. The programs count in their turns only what became of pages, and page faults
one by one; such a run is told by the number of its faults. A fault that was tried counts once, whether
or not it could be resolved.
-/

namespace DemandPaging

namespace Pager

/-- The pager after a page fault was counted. -/
def faulted (pager : Pager) : Pager :=
  pager.modifyCounters fun counters => { counters with pageFaults := counters.pageFaults + 1 }

/-- Runs that count nothing of their own, with page faults counted between them. -/
inductive CountedRun (before : Pager) : Nat → Pager → Prop
  | refl : CountedRun before 0 before
  | reaches {faults : Nat} {middle after : Pager} {allowed : Deed → Prop}
      (counts : CountedRun before faults middle) (reaches : Reaches allowed middle after)
      (told : ¬ allowed .counted) : CountedRun before faults after
  | fault {faults : Nat} {middle : Pager} (counts : CountedRun before faults middle) :
      CountedRun before (faults + 1) middle.faulted

variable {before middle after : Pager} {allowed : Deed → Prop} {first second faults : Nat}
  {deed : Deed} {pid : Pid} {owner : Owner} {page : Page} {frame : Nat}

namespace CountedRun

theorem trans (earlier : CountedRun before first middle) (later : CountedRun middle second after) :
    CountedRun before (first + second) after := by
  induction later with
  | refl => exact earlier
  | reaches _ reaches told inductionHypothesis => exact .reaches inductionHypothesis reaches told
  | fault _ inductionHypothesis => exact .fault inductionHypothesis

theorem of_reaches (reaches : Reaches allowed before after) (told : ¬ allowed .counted) :
    CountedRun before 0 after :=
  .reaches .refl reaches told

theorem of_turn
    (turn : Turn deed before after) (sound : before.ledger.Sound none) (told : deed ≠ .counted)
    (unpinning : ∀ frame, deed ≠ .pinned frame) : CountedRun before 0 after :=
  have reaches : Reaches (fun other => other = deed) before after := .turn turn sound rfl unpinning
  .of_reaches reaches told.symm

/-- Whatever is counted, it is a run. -/
theorem anyway (counts : CountedRun before faults after) (sound : before.ledger.Sound none) :
    Reaches (fun _ => True) before after := by
  induction counts with
  | refl => exact .refl before
  | reaches counts reaches _ inductionHypothesis =>
      exact inductionHypothesis.trans (reaches.mono fun _ _ => trivial)
  | fault counts inductionHypothesis =>
      exact inductionHypothesis.trans
        (.turn (.counted _ _) (inductionHypothesis.runs.sound sound) trivial (by simp))

theorem ready (counts : CountedRun before faults after) (ready : before.Ready) : after.Ready :=
  (counts.anyway ready.sound).ready ready

end CountedRun

/-! ## Turns do not count page faults -/

theorem Saves.pageFaults {saved : Pager} (saves : before.Saves owner page frame saved) :
    saved.counters.pageFaults = before.counters.pageFaults := by
  cases saves with
  | toSlot => rfl
  | toFile =>
      unfold writeBack
      split <;> rfl

theorem counters_selected (pager : Pager) : pager.selected.counters = pager.counters := by
  obtain ⟨spaces, same⟩ := pager.clearTaken_eq pager.candidates
    (pager.frames.policy.select pager.candidates).2.1
  rw [selected, same]
  rfl

theorem Acquires.pageFaults {held : Pager} (acquires : before.Acquires owner frame held) :
    held.counters.pageFaults = before.counters.pageFaults := by
  cases acquires with
  | free => rfl
  | evicted full chosen present resident saves =>
      rw [← before.counters_selected]
      exact saves.pageFaults

theorem counters_putFetched
    (pager : Pager) (owner : Owner) (kind : PageKind) (frame : Nat) (fetched : Fetched) :
    (pager.putFetched owner kind frame fetched).counters = pager.counters :=
  @keeps_putFetched _ owner Pager.counters (fun _ _ _ _ => rfl) (fun _ _ _ _ => rfl) (fun _ _ _ => rfl)
    (fun _ _ _ => rfl) pager kind frame fetched

theorem Arrives.pageFaults {held : Pager} (arrives : held.Arrives owner frame after) :
    after.counters.pageFaults = held.counters.pageFaults := by
  cases arrives with
  | intro found present absent installed fetch complete =>
      rename_i space page table fetched kind
      have same := congrArg Counters.pageFaults
        (counters_putFetched (held.attached owner frame table) owner page.kind frame fetched)
      exact same

theorem Returns.counters {held : Pager} (returns : held.Returns owner frame after) :
    after.counters = held.counters := by
  cases returns with
  | intro => exact counters_putFetched ..

theorem pageFaults_discarded (pager : Pager) (owner : Owner) (page : Page) :
    (pager.discarded owner page).counters.pageFaults = pager.counters.pageFaults := by
  refine @keeps_discarded _ owner page (fun other => other.counters.pageFaults) (fun _ _ => rfl)
    (fun other range frame => ?_) (fun _ _ => rfl) (fun _ _ => rfl) (fun _ _ => rfl) (fun _ => rfl) pager
  unfold writeBack
  split <;> rfl

theorem Turn.pageFaults (turn : Turn deed before after) (told : deed ≠ .counted) :
    after.counters.pageFaults = before.counters.pageFaults := by
  cases turn with
  | counted => exact absurd rfl told
  | discarded => exact pageFaults_discarded ..
  | claimed _ _ acquires arrives => exact arrives.pageFaults.trans acquires.pageFaults
  | missed _ _ acquires returns =>
      exact (congrArg Counters.pageFaults returns.counters).trans acquires.pageFaults
  | _ => rfl

theorem Runs.pageFaults (runs : Runs allowed before after) (told : ¬ allowed .counted) :
    after.counters.pageFaults = before.counters.pageFaults := by
  induction runs with
  | refl => rfl
  | tail _ permitted turn inductionHypothesis =>
      exact (turn.pageFaults fun counted => told (counted ▸ permitted)).trans inductionHypothesis

theorem CountedRun.pageFaults (counts : CountedRun before faults after) :
    after.counters.pageFaults = before.counters.pageFaults + faults := by
  induction counts with
  | refl => rfl
  | reaches _ reaches told inductionHypothesis =>
      exact (reaches.runs.pageFaults told).trans inductionHypothesis
  | fault _ inductionHypothesis => exact congrArg Nat.succ inductionHypothesis

end Pager

/-! ## Programs -/

namespace PagerM

open Pager

variable {α β : Type} {before middle : Pager} {program : PagerM α} {next : α → PagerM β}
  {first second faults : Nat} {allowed : Deed → Prop}

/-- However a program ends, it counted so many page faults. -/
def countingExactly {α : Type} (faults : Nat) (before : Pager) : Ending α :=
  ⟨fun _ => CountedRun before faults, fun _ => CountedRun before faults, fun _ _ => True⟩

/-- However a program ends, it counted page faults one by one. -/
def counting {α : Type} (before : Pager) : Ending α :=
  ⟨fun _ after => ∃ faults, CountedRun before faults after,
    fun _ after => ∃ faults, CountedRun before faults after, fun _ _ => True⟩

/-- A program that counts page faults one by one wherever it can start. -/
def IsCounted {α : Type} (program : PagerM α) : Prop :=
  ∀ before, before.Ready → program.Meets before (counting before)

theorem countingExactly_of_proceeds
    {answers : α → Pager → Prop} {fails : PagingError → Pager → Prop}
    (meets : program.Meets before (Proceeds allowed before answers fails)) (told : ¬ allowed .counted) :
    program.Meets before (countingExactly 0 before) :=
  meets.mono (fun _ _ ⟨reaches, _⟩ => .of_reaches reaches told)
    (fun _ _ ⟨reaches, _⟩ => .of_reaches reaches told) fun _ _ _ => trivial

theorem counting_of_exactly (meets : program.Meets before (countingExactly faults before)) :
    program.Meets before (counting before) :=
  meets.mono (fun _ _ counts => ⟨faults, counts⟩) (fun _ _ counts => ⟨faults, counts⟩)
    fun _ _ _ => trivial

theorem countingExactly_rebase
    (counts : CountedRun before first middle)
    (meets : program.Meets middle (countingExactly second middle)) :
    program.Meets middle (countingExactly (first + second) before) :=
  meets.mono (fun _ _ => counts.trans) (fun _ _ => counts.trans) fun _ _ _ => trivial

theorem counting_rebase
    (counts : CountedRun before first middle) (meets : program.Meets middle (counting middle)) :
    program.Meets middle (counting before) :=
  meets.mono (fun _ _ ⟨_, later⟩ => ⟨_, counts.trans later⟩)
    (fun _ _ ⟨_, later⟩ => ⟨_, counts.trans later⟩) fun _ _ _ => trivial

/-- A program may go on from each state that it reaches. -/
theorem counting_bind
    (first : program.Meets before
      ⟨fun answer middle => ∃ faults, CountedRun before faults middle ∧
          (next answer).Meets middle (counting middle),
        fun _ after => ∃ faults, CountedRun before faults after, fun _ _ => True⟩) :
    (program >>= next).Meets before (counting before) :=
  (meets_bind ..).mpr (first.mono (fun _ _ ⟨_, counts, rest⟩ => counting_rebase counts rest)
    (fun _ _ => id) fun _ _ => id)

theorem counted_bind (first : program.IsCounted) (rest : ∀ answer, (next answer).IsCounted) :
    (program >>= next).IsCounted := fun before ready =>
  counting_bind ((first before ready).mono
    (fun answer _ ⟨faults, counts⟩ => ⟨faults, counts, rest answer _ (counts.ready ready)⟩)
    (fun _ _ => id) fun _ _ => id)

theorem counted_attempt (counted : program.IsCounted) : (attempt program).IsCounted :=
  fun before ready => (meets_attempt ..).mpr (counted before ready)

theorem counted_get {next : Pager → PagerM β}
    (rest : ∀ pager, pager.Ready → (next pager).Meets pager (counting pager)) :
    (get >>= next).IsCounted :=
  fun before ready => (meets_bind ..).mpr (rest before ready)

theorem IsStill.counted (still : program.IsStill) : program.IsCounted := fun before _ =>
  (still before).mono (fun _ _ same => same ▸ ⟨0, .refl⟩) (fun _ _ same => same ▸ ⟨0, .refl⟩)
    fun _ _ _ => trivial

end PagerM

namespace Pager

open PagerM

variable {before : Pager}

/-! ## Claiming and faulting -/

theorem countingExactly_claim (ready : before.Ready) (pid : Pid) (address : Nat) :
    (claim pid address).Meets before (countingExactly 0 before) :=
  countingExactly_of_proceeds (meets_claim ready pid address) id

theorem countingExactly_growStack (ready : before.Ready) (pid : Pid) (address : Nat) :
    (growStack pid address).Meets before (countingExactly 0 before) :=
  countingExactly_of_proceeds
    (meets_reservePage ready.sound (pageAligned_pageBase address) readLength_zero rfl rfl) id

/-- A page fault is counted once, whatever comes of it. -/
theorem countingExactly_resolveFault (ready : before.Ready) (pid : Pid) (fault : PageFault) :
    (resolveFault pid fault).Meets before (countingExactly 1 before) := by
  have once : CountedRun before 1 before.faulted := .fault .refl
  rw [resolveFault, meets_bind, meets_modify]
  change Meets _ before.faulted (countingExactly (1 + 0) before)
  refine countingExactly_rebase once ?_
  have ready := once.ready ready
  generalize before.faulted = middle at ready ⊢
  have here (answer : Unit) : (countingExactly 0 middle).answers answer middle := .refl
  have stays (error : PagingError) : (countingExactly (α := Unit) 0 middle).fails error middle := .refl
  rw [meets_bind, meets_checkUserAddress]
  dsimp only
  split
  · exact stays _
  · split
    · exact stays _
    · simp only [meets_bind, meets_requireSpace]
      split
      · split
        · split
          · exact stays _
          · split
            · exact here ()
            · exact countingExactly_claim ready pid fault.address
        · rw [meets_bind, meets_get]
          dsimp only
          split
          · rw [meets_bind]
            refine (countingExactly_growStack ready pid fault.address).mono ?_ (fun _ _ => id)
              fun _ _ => id
            exact fun _ _ grown => countingExactly_rebase grown
              (countingExactly_claim (grown.ready ready) pid fault.address)
          · exact stays _
      · exact stays _

theorem counted_claim (pid : Pid) (address : Nat) : (claim pid address).IsCounted :=
  fun _ ready => counting_of_exactly (countingExactly_claim ready pid address)

theorem counted_resolveFault (pid : Pid) (fault : PageFault) : (resolveFault pid fault).IsCounted :=
  fun _ ready => counting_of_exactly (countingExactly_resolveFault ready pid fault)

/-! ## Processes -/

theorem counted_exitProcess (pid : Pid) : (exitProcess pid).IsCounted :=
  fun _ ready => counting_of_exactly (countingExactly_of_proceeds (ends_exitProcess ready.sound) id)

theorem counted_killOnFatal
    {α : Type} {program : PagerM α} (pid : Pid) (counted : program.IsCounted) :
    (killOnFatal pid program).IsCounted := by
  refine counted_bind (counted_attempt counted) fun outcome => ?_
  split
  · exact (still_pure _).counted
  · refine counted_get fun pager ready => ?_
    dsimp only
    split
    · exact counted_bind (counted_exitProcess pid) (fun _ => (still_fail _).counted) pager ready
    · exact (still_fail _).counted pager ready

theorem counted_handlePageFault (pid : Pid) (fault : PageFault) :
    (handlePageFault pid fault).IsCounted :=
  counted_killOnFatal pid (counted_resolveFault pid fault)

theorem counted_setupStack
    (ready : before.Ready) (pid : Pid) (has : before.config.HasStackPage) :
    (setupStack pid).Meets before (counting before) := by
  refine meets_setupStack_of_bottom has fun bottom bottomAligned => ?_
  have reserves : (reservePage pid
      { va := bottom, writable := true, isStack := true, kind := .pending .zero }).Meets before
        (counting before) :=
    counting_of_exactly (countingExactly_of_proceeds
      (meets_reservePage ready.sound bottomAligned readLength_zero rfl rfl) id)
  refine counting_bind (reserves.mono ?_ (fun _ _ => id) fun _ _ => id)
  rintro _ middle ⟨faults, counts⟩
  refine ⟨faults, counts, ?_⟩
  refine counted_bind (counted_claim pid bottom) (fun _ => ?_) middle (counts.ready ready)
  refine counted_bind (still_requireSpace pid).counted fun _ => fun after afterReady => ?_
  exact ⟨0, .of_turn (turn_setStackPointer after pid _) afterReady.sound (by simp) (by simp)⟩

/-! ## Accesses -/

variable {pid : Pid} {va : Nat} {isWrite : Bool} {frame : Nat}

/-- An access that is allowed leaves its trace in a turn. -/
theorem countedRun_touched
    (sound : before.ledger.Sound none)
    (grants : before.ledger.Grants ⟨pid, pageBase va⟩ isWrite frame) :
    CountedRun before 0 (before.touched pid va isWrite) := by
  obtain ⟨translation, translated, _, allowed⟩ := sound.grants_iff.mp grants
  exact .of_turn (.touched translated allowed) sound (by simp) (by simp)

/-- How an address is resolved: the page allows the access, or does so after a fault for it was
resolved. -/
inductive Resolves (before : Pager) (pid : Pid) (va : Nat) (isWrite : Bool) (address : Nat) :
    Pager → Prop
  | granted {frame : Nat} (grants : before.ledger.Grants ⟨pid, pageBase va⟩ isWrite frame)
      (leads : address = frameBase frame + pageOffset va) :
      Resolves before pid va isWrite address (before.touched pid va isWrite)
  | faulted {fault : PageFault} {frame : Nat} {middle : Pager}
      (refused : ∀ frame, ¬ before.ledger.Grants ⟨pid, pageBase va⟩ isWrite frame)
      (here : fault.address = va) (way : fault.isWrite = isWrite)
      (run : resolveFault pid fault before = .ok () middle)
      (grants : middle.ledger.Grants ⟨pid, pageBase va⟩ isWrite frame)
      (leads : address = frameBase frame + pageOffset va) :
      Resolves before pid va isWrite address (middle.touched pid va isWrite)

theorem resolves_physicalAddress (ready : before.Ready) (pid : Pid) (va : Nat) (isWrite : Bool) :
    (physicalAddress pid va isWrite).Meets before
      ⟨fun address after => before.Resolves pid va isWrite address after,
        fun _ after => ∃ faults, CountedRun before faults after, fun _ _ => True⟩ := by
  have looks {pager : Pager} (sound : pager.ledger.Sound none) :=
    meets_lookUp sound pager.config pid va isWrite
  rw [physicalAddress_eq, meets_bind]
  refine (looks ready.sound).mono ?_ ?_ fun _ _ _ => trivial
  · rintro first middle ⟨_, found⟩
    cases first with
    | some address =>
        obtain ⟨rfl, frame, resolved, leads⟩ := found
        have grants := resolved.grants
        rw [ledger_touched] at grants
        exact .granted grants leads
    | none =>
        obtain ⟨rfl, refused⟩ := found
        dsimp only
        rw [meets_bind, meets_requireSpace]
        split
        · rename_i space _
          dsimp only
          rw [meets_bind]
          have resolves := (meets_resolveFault ready pid
            { address := va, isWrite := isWrite, isPresent := (space.table.resolve? va).isSome,
              stackPointer := space.stackPointer }).ran.and
            (countingExactly_resolveFault ready pid _)
          refine resolves.mono ?_ (fun _ _ ⟨_, counts⟩ => ⟨1, counts⟩) fun _ _ _ => trivial
          rintro ⟨⟩ resolved ⟨⟨_, run, _⟩, counts⟩
          dsimp only
          rw [meets_bind]
          refine (looks (counts.ready ready).sound).mono ?_ ?_ fun _ _ _ => trivial
          · rintro second after ⟨_, found⟩
            cases second with
            | some address =>
                obtain ⟨rfl, frame, resolved, leads⟩ := found
                have grants := resolved.grants
                rw [ledger_touched] at grants
                exact .faulted refused rfl rfl run grants leads
            | none =>
                obtain ⟨rfl, _⟩ := found
                exact ⟨1, counts⟩
          · rintro error after ⟨_, _, _, rfl, _⟩
            exact ⟨1, counts⟩
        · exact ⟨0, .refl⟩
  · rintro error after ⟨_, _, _, rfl, _⟩
    exact ⟨0, .refl⟩

theorem Resolves.counts
    {address : Nat} {after : Pager} (resolves : before.Resolves pid va isWrite address after)
    (ready : before.Ready) : ∃ faults, CountedRun before faults after := by
  cases resolves with
  | granted grants _ => exact ⟨0, countedRun_touched ready.sound grants⟩
  | faulted refused here way run grants leads =>
      have once := (countingExactly_resolveFault ready pid _).of_ok run
      exact ⟨1 + 0, once.trans (countedRun_touched (once.ready ready).sound grants)⟩

/-- What was resolved may be accessed there. -/
theorem Resolves.resolved
    {address : Nat} {after : Pager} (resolves : before.Resolves pid va isWrite address after)
    (ready : before.Ready) :
    ∃ frame, after.Resolved pid va isWrite frame ∧ address = frameBase frame + pageOffset va := by
  cases resolves with
  | granted grants leads => exact ⟨_, resolved_touched ready.sound grants, leads⟩
  | faulted refused here way run grants leads =>
      have once := (countingExactly_resolveFault ready pid _).of_ok run
      exact ⟨_, resolved_touched (once.ready ready).sound grants, leads⟩

theorem counted_physicalAddress (pid : Pid) (va : Nat) (isWrite : Bool) :
    (physicalAddress pid va isWrite).IsCounted := fun _ ready =>
  (resolves_physicalAddress ready pid va isWrite).mono (fun _ _ resolves => resolves.counts ready)
    (fun _ _ => id) fun _ _ => id

theorem counted_readChunks (pid : Pid) (va length chunks done : Nat) (bytes : Array UInt8) :
    (readChunks pid va length chunks done bytes).IsCounted := by
  induction chunks generalizing done bytes with
  | zero => exact (still_pure bytes).counted
  | succ chunks inductionHypothesis =>
      refine counted_bind (still_chunkAddress va done).counted fun address => ?_
      refine counted_bind (counted_physicalAddress pid address false) fun physical => ?_
      refine counted_bind (still_checkPhysical _ _).counted fun _ => ?_
      exact counted_get fun pager ready => inductionHypothesis _ _ pager ready

theorem counted_writeChunks (pid : Pid) (va : Nat) (bytes : Array UInt8) (chunks done : Nat) :
    (writeChunks pid va bytes chunks done).IsCounted := by
  induction chunks generalizing done with
  | zero => exact (still_pure ()).counted
  | succ chunks inductionHypothesis =>
      refine counted_bind (still_chunkAddress va done).counted fun address before ready => ?_
      refine counting_bind ((resolves_physicalAddress ready pid address true).mono ?_ (fun _ _ => id)
        fun _ _ => id)
      intro physical middle resolves
      obtain ⟨faults, counts⟩ := resolves.counts ready
      obtain ⟨frame, resolved, rfl⟩ := resolves.resolved ready
      have middleReady := counts.ready ready
      obtain ⟨_, same, turn, _⟩ := store_of_grants middleReady.sound resolved
        (bytes.extract done (done + chunkLength address (bytes.size - done)))
      subst same
      have stored := CountedRun.of_turn turn middleReady.sound (by simp) (by simp)
      refine ⟨faults, counts, ?_⟩
      refine counting_bind ((still_checkPhysical _ _ middle).mono ?_ ?_ fun _ _ _ => trivial)
      · rintro _ _ rfl
        refine ⟨0, .refl, counting_bind ⟨0, stored, ?_⟩⟩
        exact inductionHypothesis _ _ (stored.ready middleReady)
      · rintro _ _ rfl
        exact ⟨0, .refl⟩

theorem counted_readUser (pid : Pid) (va length : Nat) : (readUser pid va length).IsCounted :=
  counted_killOnFatal pid (counted_readChunks pid va length _ 0 #[])

theorem counted_writeUser (pid : Pid) (va : Nat) (bytes : Array UInt8) :
    (writeUser pid va bytes).IsCounted :=
  counted_killOnFatal pid (counted_writeChunks pid va bytes _ 0)

/-! ## Calls -/

-- The bottom of the stack is a number that unification must not compute.
attribute [local irreducible] setupStack

/-- A call counts what became of pages, and besides page faults one by one. -/
theorem Orderly.counts
    {config : Config} {events : List Event} {call : Call} {outcome : Except PagingError Answer}
    {after : Pager} (orderly : before.Orderly config events)
    (run : attempt call.perform before = .ok outcome after) :
    ∃ faults, CountedRun before faults after := by
  have ready := orderly.unpinned.ready orderly.sound
  have admissible := admissible_of_run run
  have silent (told : ¬ call.Permits before .counted) :
      call.perform.Meets before (counting before) :=
    counting_of_exactly (countingExactly_of_proceeds
      (meets_perform orderly.sound orderly.unpinned orderly.tidy call admissible) told)
  have answers {α : Type} {program : PagerM α} {answer : α → Answer}
      (meets : program.Meets before (counting before)) :
      (program >>= fun result => pure (answer result)).Meets before (counting before) :=
    counting_bind (meets.mono (fun _ _ ⟨faults, counts⟩ => ⟨faults, counts, 0, .refl⟩)
      (fun _ _ => id) fun _ _ => id)
  have counted : call.perform.Meets before (counting before) := by
    cases call with
    | setupStack pid => exact answers (counted_setupStack ready pid admissible)
    | claim pid va => exact answers (counted_claim pid va before ready)
    | handlePageFault pid fault => exact answers (counted_handlePageFault pid fault before ready)
    | readUser pid va length => exact answers (counted_readUser pid va length before ready)
    | writeUser pid va bytes => exact answers (counted_writeUser pid va bytes before ready)
    | unmap pid base =>
        refine silent ?_
        rintro (⟨_, _, withdraws⟩ | ⟨_, _, ends⟩)
        · exact withdraws
        · exact ends
    | _ =>
        refine silent ?_
        rintro (does | ⟨_, _, ends⟩)
        · cases does
        · exact ends
  rcases counted.of_attempt run with ⟨_, _, counts⟩ | ⟨_, _, counts⟩ <;> exact counts

end Pager

end DemandPaging
