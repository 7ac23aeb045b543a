import DemandPaging.Proofs.Faulting
import DemandPaging.Proofs.Fetching

/-!
# Verdicts on page faults

A fault is resolved if a page may be accessed at its address or the stack may grow there, and is refused for
the first reason that applies otherwise. A page that lacks nothing is then resident where it was not before,
and no other page begins or ends.
-/

namespace DemandPaging

namespace Config

variable {config : Config} {fault : PageFault}

/-- Whether a fault is met inside the stack area, and not further below the stack pointer than a push
reaches. -/
structure Pushes (config : Config) (fault : PageFault) : Prop where
  above : config.stackLimit ≤ fault.address
  below : fault.address < config.stackTop
  reached : fault.stackPointer ≤ min (fault.address + config.stackSlack) (wordLimit - 1)

theorem isStackAccess_iff : config.isStackAccess fault = true ↔ config.Pushes fault := by
  simp only [isStackAccess, Bool.and_eq_true, decide_eq_true_eq]
  constructor
  · rintro ⟨⟨below, above⟩, reached⟩
    exact ⟨above, below, reached⟩
  · rintro ⟨above, below, reached⟩
    exact ⟨⟨below, above⟩, reached⟩

end Config

/-- The page by which the stack grows to an address. -/
def Page.ofStack (address : Nat) : Page :=
  { va := pageBase address, writable := true, isStack := true, kind := .pending .zero }

namespace Pager

variable {before middle after : Pager} {pid : Pid} {fault : PageFault} {error other : PagingError}

/-! ## The verdict -/

/-- Whether a fault is one of a process, at an address of user memory. -/
structure Concerns (pager : Pager) (pid : Pid) (fault : PageFault) : Prop where
  nonnull : fault.address ≠ 0
  user : fault.address < pager.config.kernelBase
  alive : pager.space? pid ≠ none

/-- Whether a fault can be resolved: there is a page that may be accessed, or the stack may grow by a page other
than the first one of memory. -/
inductive Admits (pager : Pager) (pid : Pid) (fault : PageFault) : Prop
  | found (concerns : pager.Concerns pid fault) {page : Page}
      (present : pager.pageOf ⟨pid, pageBase fault.address⟩ = some page)
      (allowed : fault.isWrite = true → page.writable = true) : Admits pager pid fault
  | grown (concerns : pager.Concerns pid fault)
      (vacant : pager.pageOf ⟨pid, pageBase fault.address⟩ = none)
      (pushes : pager.config.Pushes fault) (nonzero : pageBase fault.address ≠ 0) : Admits pager pid fault

/-- The first reason that applies against a fault. -/
inductive Refuses (pager : Pager) (pid : Pid) (fault : PageFault) : PagingError → Prop
  | null (null : fault.address = 0) : Refuses pager pid fault (.invalidAccess fault.address .nullAddress)
  | kernel (nonnull : fault.address ≠ 0) (kernel : pager.config.kernelBase ≤ fault.address) :
      Refuses pager pid fault (.invalidAccess fault.address .kernelAddress)
  | absent (nonnull : fault.address ≠ 0) (user : fault.address < pager.config.kernelBase)
      (gone : pager.space? pid = none) : Refuses pager pid fault (.noSuchProcess pid)
  | readOnly (concerns : pager.Concerns pid fault) {page : Page}
      (present : pager.pageOf ⟨pid, pageBase fault.address⟩ = some page)
      (write : fault.isWrite = true) (protects : page.writable = false) :
      Refuses pager pid fault (.invalidAccess fault.address .readOnly)
  | unmapped (concerns : pager.Concerns pid fault)
      (vacant : pager.pageOf ⟨pid, pageBase fault.address⟩ = none)
      (outside : ¬ pager.config.Pushes fault) :
      Refuses pager pid fault (.invalidAccess fault.address .unmapped)
  /-- The stack does not grow into the first page, whose address is the null address. -/
  | bottom (concerns : pager.Concerns pid fault)
      (vacant : pager.pageOf ⟨pid, pageBase fault.address⟩ = none)
      (pushes : pager.config.Pushes fault) (zero : pageBase fault.address = 0) :
      Refuses pager pid fault (.invalidAccess 0 .nullAddress)

theorem Admits.concerns (admits : before.Admits pid fault) : before.Concerns pid fault := by
  cases admits <;> assumption

theorem Admits.not_refuses (admits : before.Admits pid fault) : ¬ before.Refuses pid fault error := by
  intro refuses
  obtain ⟨nonnull, user, alive⟩ := admits.concerns
  cases refuses with
  | null null => exact nonnull null
  | kernel _ kernel => exact Nat.not_le.mpr user kernel
  | absent _ _ gone => exact alive gone
  | readOnly _ present write protects =>
      cases admits with
      | found _ presentToo allowed =>
          cases present.symm.trans presentToo
          cases protects.symm.trans (allowed write)
      | grown _ vacant => cases present.symm.trans vacant
  | unmapped _ vacant outside =>
      cases admits with
      | found _ present => cases present.symm.trans vacant
      | grown _ _ pushes => exact outside pushes
  | bottom _ vacant _ zero =>
      cases admits with
      | found _ present => cases present.symm.trans vacant
      | grown _ _ _ nonzero => exact nonzero zero

/-- Each reason excludes the later ones. -/
theorem Refuses.unique
    (refuses : before.Refuses pid fault error) (refusesToo : before.Refuses pid fault other) :
    error = other := by
  cases refuses <;> cases refusesToo <;> grind [Concerns]

/-! ## How the stack grows -/

open PagerM

/-- The stack grows by a page unless that is the first page of memory. -/
theorem ends_growStack
    {space : AddressSpace} {address : Nat} (found : before.space? pid = some space)
    (vacant : before.ledger.pages ⟨pid, pageBase address⟩ = none)
    (user : address < before.config.kernelBase) :
    (growStack pid address).Meets before
      ⟨fun _ after => pageBase address ≠ 0 ∧
          Turn (.reserved ⟨pid, pageBase address⟩ (.ofStack address)) before after,
        fun error after => pageBase address = 0 ∧ error = .invalidAccess 0 .nullAddress ∧ after = before,
        fun _ _ => False⟩ := by
  have aligned : pageAligned (Page.ofStack address).va = true := pageAligned_pageBase address
  have fits : (Page.ofStack address).kind.readLength ≤ pageSize := readLength_zero
  have below : pageBase address < before.config.kernelBase := by
    have split := pageBase_add_pageOffset address
    omega
  have free : space.pages.contains (Page.ofStack address).va = false := by
    have same := pages_of_space found (pageBase address)
    rw [vacant] at same
    exact Bool.eq_false_iff.mpr (by simpa [Page.ofStack] using same)
  have grows : growStack pid address = reservePage pid (.ofStack address) := rfl
  rw [grows, reservePage, meets_insist_bind aligned, meets_insist_bind (decide_eq_true fits), meets_bind,
    meets_attempt]
  simp only [insertPage, meets_bind, meets_checkUserAddress, meets_requireSpace, found, free, meets_modify,
    meets_fail, meets_pure]
  by_cases zero : pageBase address = 0
  · rw [if_pos (by exact zero)]
    exact ⟨zero, by rw [Page.ofStack, zero], rfl⟩
  · rw [if_neg (by exact zero), if_neg (by exact Nat.not_le.mpr below)]
    have placed : (Page.ofStack address).WellPlaced ⟨pid, pageBase address⟩ before.config.kernelBase :=
      ⟨rfl, pageBase_idem address, zero, below, fits⟩
    exact ⟨zero, .reserved found vacant placed rfl rfl⟩

/-- The state in which the page of a fault is claimed: the fault is counted, and where there was no page the
stack has grown. -/
inductive Readies (before : Pager) (pid : Pid) (fault : PageFault) : Pager → Prop
  | found {page : Page} {middle : Pager} (counted : Turn .counted before middle)
      (present : middle.ledger.pages ⟨pid, pageBase fault.address⟩ = some page) :
      Readies before pid fault middle
  | grown {counted middle : Pager} (counts : Turn .counted before counted)
      (vacant : counted.ledger.pages ⟨pid, pageBase fault.address⟩ = none)
      (turn : Turn (.reserved ⟨pid, pageBase fault.address⟩ (.ofStack fault.address)) counted middle) :
      Readies before pid fault middle

theorem Readies.sound (readies : before.Readies pid fault middle) (sound : before.ledger.Sound none) :
    middle.ledger.Sound none := by
  cases readies with
  | found counted => exact counted.sound sound
  | grown counts _ turn => exact turn.sound (counts.sound sound)

theorem Readies.present (readies : before.Readies pid fault middle) (sound : before.ledger.Sound none) :
    ∃ page, middle.ledger.pages ⟨pid, pageBase fault.address⟩ = some page := by
  cases readies with
  | found _ present => exact ⟨_, present⟩
  | grown counts _ turn =>
      rw [(turn.step (counts.sound sound)).begins.2.2, Function.update_self]
      exact ⟨_, rfl⟩

/-- Claiming the page of a fault fails only for want of its content. -/
theorem Readies.ends_claim
    (readies : before.Readies pid fault middle) (sound : before.ledger.Sound none) (ready : middle.Ready) :
    (claim pid fault.address).Meets middle
      ⟨fun _ after => middle.Claimed ⟨pid, pageBase fault.address⟩ after,
        fun error after => error = .io (pageBase fault.address) ∧
          Turn (.missed ⟨pid, pageBase fault.address⟩) middle after, fun _ _ => True⟩ := by
  obtain ⟨page, present⟩ := readies.present sound
  exact (Pager.ends_claim ready pid fault.address).mono (fun _ _ claimed => claimed)
    (fun _ _ fails => fails.misses present) fun _ _ _ => trivial

/-- How a fault is resolved: it is admitted and its page claimed, or it is refused, or its page cannot be
read. -/
theorem ends_resolveFault (ready : before.Ready) (pid : Pid) (fault : PageFault) :
    (resolveFault pid fault).Meets before
      ⟨fun _ after => before.Admits pid fault ∧ ∃ middle, before.Readies pid fault middle ∧
          middle.Claimed ⟨pid, pageBase fault.address⟩ after,
        fun error after => before.Refuses pid fault error ∨ error = .io (pageBase fault.address) ∧
          ∃ middle, before.Readies pid fault middle ∧
            Turn (.missed ⟨pid, pageBase fault.address⟩) middle after,
        fun _ _ => True⟩ := by
  have sound := ready.sound
  rw [resolveFault, meets_bind, meets_modify]
  have counts : Turn .counted before (before.modifyCounters fun counters =>
      { counters with pageFaults := counters.pageFaults + 1 }) := .counted before _
  have counted : Reaches (fun _ => True) before (before.modifyCounters fun counters =>
      { counters with pageFaults := counters.pageFaults + 1 }) :=
    .turn counts sound trivial (by simp)
  have ready := counted.ready ready
  dsimp only
  rw [meets_bind, meets_checkUserAddress]
  dsimp only
  split
  · exact Or.inl (.null ‹_›)
  · rename_i nonnull
    split
    · exact Or.inl (.kernel nonnull ‹_›)
    · rename_i user
      have user : fault.address < before.config.kernelBase := Nat.not_le.mp user
      simp only [meets_bind, meets_requireSpace]
      cases found : (before.modifyCounters _).space? pid with
      | none => exact Or.inl (.absent nonnull user found)
      | some space =>
          have alive : before.space? pid ≠ none := by
            rw [show before.space? pid = some space from found]
            exact Option.some_ne_none space
          have concerns : before.Concerns pid fault := ⟨nonnull, user, alive⟩
          have same := page?_of_space found fault.address
          cases shown : space.page? fault.address with
          | some page =>
              rw [shown] at same
              have present : before.pageOf ⟨pid, pageBase fault.address⟩ = some page := same.symm
              have readies : before.Readies pid fault _ := .found counts same.symm
              simp only [shown]
              split
              · rename_i refused
                simp only [Bool.and_eq_true, Bool.not_eq_true'] at refused
                exact Or.inl (.readOnly concerns present refused.1 refused.2)
              · rename_i allowed
                have admits : before.Admits pid fault := .found concerns present (by simpa using allowed)
                split
                · rename_i resident
                  obtain ⟨frame, resident⟩ := Option.isSome_iff_exists.mp resident
                  exact ⟨admits, _, readies, .resident same.symm resident⟩
                · exact (readies.ends_claim sound ready).mono (fun _ _ claimed => ⟨admits, _, readies, claimed⟩)
                    (fun _ _ ⟨same, missed⟩ => Or.inr ⟨same, _, readies, missed⟩) fun _ _ _ => trivial
          | none =>
              rw [shown] at same
              simp only [shown]
              have vacant : before.pageOf ⟨pid, pageBase fault.address⟩ = none := same.symm
              rw [meets_bind, meets_get]
              dsimp only
              split
              · rename_i isPush
                have pushes : before.config.Pushes fault := Config.isStackAccess_iff.mp isPush
                rw [meets_bind]
                refine (ends_growStack found same.symm user).mono ?_ ?_ fun _ _ => False.elim
                · rintro _ middle ⟨nonzero, turn⟩
                  have readies : before.Readies pid fault middle := .grown counts same.symm turn
                  have grown : Reaches (fun _ => True) _ middle := .turn turn ready.sound trivial (by simp)
                  have admits : before.Admits pid fault := .grown concerns vacant pushes nonzero
                  exact (readies.ends_claim sound (grown.ready ready)).mono
                    (fun _ _ claimed => ⟨admits, _, readies, claimed⟩)
                    (fun _ _ ⟨same, missed⟩ => Or.inr ⟨same, _, readies, missed⟩) fun _ _ _ => trivial
                · rintro _ after ⟨zero, rfl, _⟩
                  exact Or.inl (.bottom concerns vacant pushes zero)
              · rename_i isNoPush
                exact Or.inl (.unmapped concerns vacant fun pushes =>
                  isNoPush (Config.isStackAccess_iff.mpr pushes))

/-! ## What a resolved fault leaves -/

/-- An access that a page allows finds its frame. -/
theorem run_lookUp
    {va frame : Nat} {isWrite : Bool} (sound : before.ledger.Sound none)
    (grants : before.ledger.Grants ⟨pid, pageBase va⟩ isWrite frame) :
    lookUp pid va isWrite before =
      .ok (some (frameBase frame + pageOffset va)) (before.touched pid va isWrite) := by
  obtain ⟨page, present, resident, allowed⟩ := grants
  obtain ⟨space, found⟩ := space?_of_page present
  have translated := translation?_of_space found (pageBase va)
  rw [PageTable.translation?_pageBase, sound.frames.translation_of_page _ page frame present resident]
    at translated
  obtain ⟨entry, entryFound, leads⟩ := Option.map_eq_some_iff.mp translated
  rw [Translation.mk.injEq] at leads
  obtain ⟨base, writable⟩ := leads
  have unrefused : ¬ (isWrite && !entry.writable) = true := by
    rw [writable]
    simpa using allowed
  apply Meets.run
  simp only [lookUp, meets_bind, meets_requireSpace, found, PageTable.resolve?, PageTable.isWritable,
    entryFound, if_neg unrefused, meets_modify, meets_pure, base]
  exact ⟨trivial, rfl⟩

/-- What is left of a fault that was resolved: the page is resident and has its own permission, so the access
finds the frame when it is tried again, and no page began or ended but one by which the stack may have grown. -/
structure Repaired (before after : Pager) (pid : Pid) (fault : PageFault) : Prop where
  served : ∃ page frame, after.pageOf ⟨pid, pageBase fault.address⟩ = some page ∧
    page.frame = some frame ∧
      after.translationOf ⟨pid, pageBase fault.address⟩ = some ⟨frameBase frame, page.writable⟩ ∧
        lookUp pid fault.address fault.isWrite after =
          .ok (some (frameBase frame + pageOffset fault.address))
            (after.touched pid fault.address fault.isWrite)
  kept : ∀ owner page, before.pageOf owner = some page →
    ∃ new, after.pageOf owner = some new ∧ new.Continues page
  begun : ∀ owner new, before.pageOf owner = none → after.pageOf owner = some new →
    owner = ⟨pid, pageBase fault.address⟩ ∧ ∃ frame, after.frames.image frame = Image.zero ∧
      new = { Page.ofStack fault.address with frame := some frame, kind := .anonymous none }

/-- Claiming begins no page. -/
theorem Claimed.vacant
    {owner other : Owner} (claimed : before.Claimed owner after) (sound : before.ledger.Sound none)
    (vacant : before.ledger.pages other = none) : after.ledger.pages other = none :=
  (claimed.reaches sound).runs.vacant sound vacant fun _ => id

/-- A page that begins with a fault is one by which the stack grew. -/
theorem Readies.begun
    {owner : Owner} {new : Page} (readies : before.Readies pid fault middle)
    (claimed : middle.Claimed ⟨pid, pageBase fault.address⟩ after) (sound : before.ledger.Sound none)
    (vacant : before.ledger.pages owner = none) (present : after.ledger.pages owner = some new) :
    owner = ⟨pid, pageBase fault.address⟩ ∧ ∃ frame, after.frames.image frame = Image.zero ∧
      new = { Page.ofStack fault.address with frame := some frame, kind := .anonymous none } := by
  have soundThen := readies.sound sound
  cases readies with
  | found counted =>
      have vacantThen := (counted.step sound).vacant vacant (by simp)
      cases present.symm.trans (claimed.vacant soundThen vacantThen)
  | grown counts _ turn =>
      have vacantThen := (counts.step sound).vacant vacant (by simp)
      have begins := (turn.step (counts.sound sound)).begins.2.2
      by_cases here : owner = ⟨pid, pageBase fault.address⟩
      · subst here
        have reserved : middle.ledger.pages ⟨pid, pageBase fault.address⟩ =
            some (.ofStack fault.address) := by
          rw [begins, Function.update_self]
        obtain ⟨frame, brought⟩ := claimed.brings soundThen reserved rfl
        cases present.symm.trans brought.present
        exact ⟨rfl, frame, brought.image, rfl⟩
      · have still : middle.ledger.pages owner = none := by
          rw [begins, Function.update_of_ne here]
          exact vacantThen
        cases present.symm.trans (claimed.vacant soundThen still)

/-- Whether a page that has no frame lacks nothing, as far as transfers between two states tell. -/
def Supplied (before after : Pager) (owner : Owner) : Prop :=
  ∀ page, before.pageOf owner = some page → page.frame = none →
    ¬ page.kind.Lacks before.files (after.swap.transfersSince before.swap)

/-- The page of a fault is not missed if it lacks nothing, whatever is done afterwards. -/
theorem Supplied.not_missed
    {broken : Pager} {allowed : Deed → Prop}
    (supplied : before.Supplied after ⟨pid, pageBase fault.address⟩)
    (readies : before.Readies pid fault middle) (sound : before.ledger.Sound none)
    (runs : Runs allowed broken after) :
    ¬ Turn (.missed ⟨pid, pageBase fault.address⟩) middle broken := by
  intro turn
  have soundThen := readies.sound sound
  obtain ⟨page, present, absent, lacks⟩ := turn.lacks soundThen
  cases readies with
  | found counted =>
      obtain ⟨now, missed⟩ := turn.traffic soundThen
      obtain ⟨later, followed⟩ := runs.traffic (turn.sound soundThen)
      have issued := (missed.toNotes.trans followed.toNotes).issued
      cases counted with
      | counted =>
          have since : after.swap.transfersSince before.swap =
              (later ++ now).flatMap Activity.transfers := SwapSpace.transfersSince_eq issued
          refine supplied page present absent (lacks.mono (.refl before.files) fun transfer member => ?_)
          rw [SwapSpace.transfersSince_eq missed.issued] at member
          rw [since, List.flatMap_append]
          exact List.mem_append_right _ member
  | grown counts _ grows =>
      rw [(grows.step (counts.sound sound)).begins.2.2, Function.update_self] at present
      cases present
      exact PageKind.not_lacks_zero lacks

/-- How a fault ends that a process handles. -/
theorem ends_handlePageFault (ready : before.Ready) (pid : Pid) (fault : PageFault) :
    (handlePageFault pid fault).Meets before
      (Proceeds (fun deed => (deed.Serves pid ∧ deed.Extends before.config) ∨ deed.Ends pid) before
        (fun _ after => before.Admits pid fault ∧ before.Repaired after pid fault)
        fun error after => before.Refuses pid fault error ∨
          ¬ before.Supplied after ⟨pid, pageBase fault.address⟩) := by
  have sound := ready.sound
  have resolves : (resolveFault pid fault).Meets before
      (Proceeds (fun deed => deed.Serves pid ∧ deed.Extends before.config) before
        (fun _ after => (∃ frame,
            after.ledger.Grants ⟨pid, pageBase fault.address⟩ fault.isWrite frame) ∧
          before.Admits pid fault ∧ ∃ middle, before.Readies pid fault middle ∧
            middle.Claimed ⟨pid, pageBase fault.address⟩ after)
        fun error after => after.Bars pid error ∧ (before.Refuses pid fault error ∨
          error = .io (pageBase fault.address) ∧ ∃ middle, before.Readies pid fault middle ∧
            Turn (.missed ⟨pid, pageBase fault.address⟩) middle after)) :=
    ((meets_resolveFault ready pid fault).and (ends_resolveFault ready pid fault)).mono
      (fun _ _ ⟨⟨reaches, grants⟩, claimed⟩ => ⟨reaches, grants, claimed⟩)
      (fun _ _ ⟨⟨reaches, external, bars⟩, refused⟩ => ⟨reaches, external, bars, refused⟩)
      fun _ _ ⟨stops, _⟩ => stops
  apply (meets_killOnFatal ready resolves).weaken fun _ => id
  · rintro _ after - ⟨reaches, ⟨frame, grants⟩, admits, middle, readies, claimed⟩
    have soundThen := reaches.runs.sound sound
    refine ⟨admits, ?_, fun owner page present => ?_, fun owner new => readies.begun claimed sound⟩
    · have found := run_lookUp soundThen grants
      obtain ⟨page, present, resident, _⟩ := grants
      exact ⟨page, frame, present, resident,
        soundThen.frames.translation_of_page _ page frame present resident, found⟩
    · exact reaches.runs.continues sound present fun _ _ permitted => permitted.1
  · rintro error after - ⟨broken, _, refused | ⟨_, middle, readies, missed⟩, killed⟩
    · exact Or.inl refused
    · exact Or.inr fun supplied => supplied.not_missed readies sound killed.ends.runs missed

end Pager

section Laws

open PagerM Pager

variable {config : Config} {kind : PolicyKind} {device : Device} {files : FileTable}
  {events : List Event} {before after : Pager} {pid : Pid} {fault : PageFault}
  {outcome : Except PagingError Answer}

/-- A fault for a page that lacks nothing is resolved if and only if it is admitted, and answered with the first
reason that applies against it otherwise. Once it is resolved, the page is resident with its own permission, so
the access succeeds when it is tried again, and no page of any process began or ended but one writable page of
zeros by which the stack of this process may have grown. Whether there was an entry for the page plays no part. -/
theorem faults_classified_exactly
    (history : History config kind device files events before)
    (run : attempt (Call.handlePageFault pid fault).perform before = .ok outcome after)
    (supplied : before.Supplied after ⟨pid, pageBase fault.address⟩) :
    (outcome = .ok .done ↔ before.Admits pid fault) ∧
      (outcome = .ok .done → before.Repaired after pid fault) ∧
        (∀ error, outcome = .error error ↔ before.Refuses pid fault error) ∧
          ∀ isPresent, attempt (Call.handlePageFault pid { fault with isPresent := isPresent }).perform before =
            .ok outcome after := by
  have orderly := history.orderly
  have ready := orderly.unpinned.ready orderly.sound
  rcases (ends_handlePageFault ready pid fault).of_answered run with
    ⟨_, rfl, _, admits, repaired⟩ | ⟨error, rfl, _, refuses | lacking⟩
  · refine ⟨⟨fun _ => admits, fun _ => rfl⟩, fun _ => repaired, fun error => ⟨?_, ?_⟩, fun _ => run⟩
    · intro failed
      cases failed
    · exact fun refuses => absurd refuses admits.not_refuses
  · refine ⟨⟨?_, fun admits => absurd refuses admits.not_refuses⟩, ?_, fun other => ⟨?_, ?_⟩, fun _ => run⟩
    · intro answered
      cases answered
    · intro answered
      cases answered
    · rintro ⟨⟩
      exact refuses
    · exact fun refusesToo => by rw [refuses.unique refusesToo]
  · exact absurd supplied lacking

/-- With one frame a page comes back from its slot, for which the other one is evicted. -/
theorem faults_classified_exactly_of_swapped_page :
    ∃ before after, attempt (Call.handlePageFault 1 ⟨4096, true, false, 0⟩).perform before =
        .ok (.ok .done) after ∧
      before.Supplied after ⟨1, 4096⟩ ∧
        before.pageOf ⟨1, 4096⟩ = some { va := 4096, writable := true, kind := .anonymous (some 0) } ∧
          before.Admits 1 ⟨4096, true, false, 0⟩ ∧ before.Repaired after 1 ⟨4096, true, false, 0⟩ := by
  have ended : (((Pager.create { frameCount := 1 } .fifo (Device.blank .memory 16) ⟨#[]⟩).play []
      (twoPages ++ [.writeUser 1 8192 #[8]])).any fun result =>
        decide (result.2.pageOf ⟨1, 4096⟩ =
          some { va := 4096, writable := true, kind := .anonymous (some 0) }) &&
        result.2.comesTo (.handlePageFault 1 ⟨4096, true, false, 0⟩) fun outcome after =>
          decide (outcome = .ok .done) &&
            (after.swap.transfersSince result.2.swap).all Transfer.succeeded) = true := by
    decide +kernel
  obtain ⟨⟨events, before⟩, played, ended⟩ := (Option.any_eq_true ..).mp ended
  simp only [Bool.and_eq_true, decide_eq_true_eq] at ended
  obtain ⟨present, comes⟩ := ended
  obtain ⟨outcome, after, run, known⟩ := exists_run_of_comesTo comes
  simp only [Bool.and_eq_true, decide_eq_true_eq, List.all_eq_true] at known
  obtain ⟨rfl, served⟩ := known
  have supplied : before.Supplied after ⟨1, 4096⟩ := by
    intro page presentToo _
    cases present.symm.trans presentToo
    exact PageKind.not_lacks_of_served (fun _ => nofun) (fun _ => nofun) served
  obtain ⟨admits, repaired, _⟩ := faults_classified_exactly (History.start.play played) run supplied
  exact ⟨before, after, run, supplied, present, admits.mp rfl, repaired rfl⟩

/-- No read and no transfer fails, but the file is too short for the segment that the page starts with. -/
theorem fault_refused_by_short_segment :
    ∃ events before after page, History { frameCount := 8 } .fifo (Device.blank .memory 128)
        ⟨#[.create .memory #[65, 66]]⟩ events before ∧
      attempt (Call.handlePageFault 1 ⟨4096, false, false, 0⟩).perform before =
        .ok (.error (.io 4096)) after ∧
      before.Admits 1 ⟨4096, false, false, 0⟩ ∧ before.pageOf ⟨1, 4096⟩ = some page ∧
        (∀ range, page.kind.source? = some range →
          (before.files.readAt range.file range.offset range.length).2.isSome = true) ∧
            ∀ transfer ∈ after.swap.transfersSince before.swap, transfer.succeeded = true := by
  have ended : (((Pager.create { frameCount := 8 } .fifo (Device.blank .memory 128)
      ⟨#[.create .memory #[65, 66]]⟩).play []
      [.createProcess 1, .allocateLazily 1 4096 true (.segment ⟨0, 0, 8⟩)]).any fun result =>
        decide (result.2.pageOf ⟨1, 4096⟩ =
          some { va := 4096, writable := true, kind := .pending (.segment ⟨0, 0, 8⟩) }) &&
        (result.2.space? 1).isSome && decide (result.2.config.kernelBase = 0x8004000000) &&
        (result.2.files.readAt 0 0 8).2.isSome &&
        result.2.comesTo (.handlePageFault 1 ⟨4096, false, false, 0⟩) fun outcome after =>
          decide (outcome = .error (.io 4096)) &&
            (after.swap.transfersSince result.2.swap).all Transfer.succeeded) = true := by
    decide +kernel
  obtain ⟨⟨events, before⟩, played, ended⟩ := (Option.any_eq_true ..).mp ended
  simp only [Bool.and_eq_true, decide_eq_true_eq] at ended
  obtain ⟨⟨⟨⟨present, alive⟩, kernelBase⟩, read⟩, comes⟩ := ended
  obtain ⟨outcome, after, run, known⟩ := exists_run_of_comesTo comes
  simp only [Bool.and_eq_true, decide_eq_true_eq, List.all_eq_true] at known
  obtain ⟨rfl, served⟩ := known
  have concerns : before.Concerns 1 ⟨4096, false, false, 0⟩ :=
    ⟨by decide, by rw [kernelBase]; decide, Option.isSome_iff_ne_none.mp alive⟩
  refine ⟨events, before, after, _, History.start.play played, run, .found concerns present nofun, present,
    ?_, served⟩
  rintro range ⟨⟩
  exact read

end Laws

end DemandPaging
