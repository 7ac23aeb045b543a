import DemandPaging.Proofs.Balance
import DemandPaging.Proofs.HeedingCalls

/-!
# Page faults of an access

An access goes through its pages one after the other, and each page faults once if it is not in a frame when
the access comes to it, and not at all otherwise. As long as free frames are left no page loses its frame
meanwhile, so an access that finds enough of them faults once for each page that was not in a frame before,
and does not fault when it is made again.
-/

namespace DemandPaging

/-! ## The pages of an access -/

/-- The addresses of the pages that `length` bytes from an address on touch. -/
def touchedBases (va length : Nat) : List Nat :=
  (List.range (touchedPages va length)).map fun index => pageBase va + index * pageSize

/-- They are the pages of the bytes. -/
theorem mem_touchedBases {va length base : Nat} :
    base ∈ touchedBases va length ↔ ∃ byte < length, base = pageBase (va + byte) := by
  rw [touchedBases, List.mem_map]
  simp only [List.mem_range, touchedPages, pageBase, pageOffset, pageSize]
  constructor
  · rintro ⟨index, below, rfl⟩
    split at below
    · exact absurd below (Nat.not_lt_zero index)
    · exact ⟨index * 4096 - va % 4096, by omega, by omega⟩
  · rintro ⟨byte, below, rfl⟩
    refine ⟨(va % 4096 + byte) / 4096, ?_, by omega⟩
    rw [if_neg (by omega)]
    omega

/-- Where a chunk ends and bytes are left, the next page starts. -/
theorem pageBase_chunk {va left : Nat} (more : left - chunkLength va left ≠ 0) :
    pageBase (va + chunkLength va left) = pageBase va + pageSize := by
  have below := pageOffset_lt va
  simp only [chunkLength, pageBase, pageOffset, pageSize] at *
  omega

theorem touchedBases_chunk {va left : Nat} (remaining : left ≠ 0) :
    touchedBases va left =
      pageBase va :: touchedBases (va + chunkLength va left) (left - chunkLength va left) := by
  rw [touchedBases, touchedPages_chunk remaining, List.range_succ_eq_map, List.map_cons, List.map_map,
    Nat.zero_mul, Nat.add_zero, touchedBases]
  refine congrArg _ (List.map_congr_left fun index member => ?_)
  have more : left - chunkLength va left ≠ 0 := fun none => by
    rw [none] at member
    cases member
  rw [pageBase_chunk more, Function.comp_apply, Nat.succ_mul, Nat.add_assoc, Nat.add_comm pageSize]

/-- Where chunks are left, bytes are left, and the next chunk is one of them. -/
theorem remaining_of_touchedPages {va left chunks : Nat} (enough : chunks + 1 = touchedPages va left) :
    left ≠ 0 ∧ chunks = touchedPages (va + chunkLength va left) (left - chunkLength va left) := by
  have remaining : left ≠ 0 := by
    rw [ne_eq, ← @touchedPages_eq_zero va, ← enough]
    exact Nat.succ_ne_zero chunks
  rw [touchedPages_chunk remaining, Nat.add_right_cancel_iff] at enough
  exact ⟨remaining, enough⟩

theorem nodup_touchedBases (va length : Nat) : (touchedBases va length).Nodup := by
  refine List.nodup_range.map fun first second same => ?_
  have same : first * pageSize = second * pageSize := Nat.add_left_cancel same
  exact Nat.mul_right_cancel (by decide) same

namespace Ledger

variable {ledger held after : Ledger} {owner : Owner} {page : Page} {frame : Nat} {image : Image}

/-- A free frame is handed out if there is one, and no page changes by that. -/
theorem Acquires.first_free (acquires : ledger.Acquires owner frame held) (room : ledger.free ≠ []) :
    held.pages = ledger.pages ∧ ledger.free = frame :: held.free := by
  cases acquires with
  | free first => exact ⟨rfl, first⟩
  | evicted full => exact absurd full room

theorem Arrives.free (arrives : ledger.Arrives owner page frame image after) :
    after.free = ledger.free := by
  cases arrives <;> rfl

theorem Step.free_of_reserved (step : Step (.reserved owner page) ledger after) :
    after.free = ledger.free := by
  cases step <;> rfl

end Ledger

namespace Pager

open PagerM

variable {before middle after held : Pager} {owner : Owner} {pid : Pid} {va frame : Nat} {isWrite : Bool}

/-- Whether a page is not in a frame, or is not there at all. -/
def isAbsent (pager : Pager) (owner : Owner) : Bool :=
  !(pager.pageOf owner).any Page.isResident

theorem isAbsent_of_grants (grants : before.ledger.Grants owner isWrite frame) :
    before.isAbsent owner = false := by
  obtain ⟨page, present, resident, _⟩ := grants
  have found : before.pageOf owner = some page := present
  rw [isAbsent, found, Option.any_some, Page.isResident, resident]
  rfl

/-- A fault that is admitted where the access was not allowed finds the page absent. -/
theorem Admits.isAbsent
    {fault : PageFault} (admits : before.Admits pid fault)
    (refused : ∀ frame, ¬ before.ledger.Grants ⟨pid, pageBase fault.address⟩ fault.isWrite frame) :
    before.isAbsent ⟨pid, pageBase fault.address⟩ = true := by
  rw [Pager.isAbsent]
  cases admits with
  | found _ present allowed =>
      rename_i page
      rw [present, Option.any_some, Page.isResident]
      cases resident : page.frame with
      | none => rfl
      | some frame => exact absurd ⟨page, present, resident, allowed⟩ (refused frame)
  | grown _ vacant =>
      rw [vacant]
      rfl

/-! ## Pages that keep their frames -/

-- The evictions are those that were noted: of the step that counts a page fault a run tells only that it
-- changes counters, so it could count evictions as well.

/-- How many pages gave up their frames to others so far. -/
def evictionsNoted (pager : Pager) : Nat :=
  pager.journal.countP Activity.isEviction

theorem Arrives.evictionsNoted (arrives : held.Arrives owner frame after) :
    after.evictionsNoted = held.evictionsNoted := by
  cases arrives with
  | intro =>
      exact @keeps_putFetched _ owner Pager.evictionsNoted (fun _ _ _ _ => rfl) (fun _ _ _ _ => rfl)
        (fun _ _ _ => rfl) (fun _ _ _ => rfl) _ _ frame _

theorem Acquires.evictionsNoted
    (acquires : before.Acquires owner frame held) (room : before.ledger.free ≠ []) :
    held.evictionsNoted = before.evictionsNoted := by
  cases acquires with
  | free taken => rfl
  | evicted full => exact absurd full room

/-- No page lost its frame, and besides the pages of some owners none changed. -/
structure KeepsFrames (owners : List Owner) (before after : Pager) : Prop where
  evictions : after.evictionsNoted = before.evictionsNoted
  resident : ∀ owner page, before.pageOf owner = some page → page.isResident = true →
    after.pageOf owner = some page
  others : ∀ owner, owner ∉ owners → after.pageOf owner = before.pageOf owner

theorem KeepsFrames.of_same
    {owners : List Owner} (journal : after.journal = before.journal)
    (pages : after.pageOf = before.pageOf) : KeepsFrames owners before after where
  evictions := by rw [evictionsNoted, evictionsNoted, journal]
  resident owner page present _ := by rw [pages, present]
  others owner _ := by rw [pages]

theorem KeepsFrames.trans
    {first second : List Owner} (earlier : KeepsFrames first before middle)
    (later : KeepsFrames second middle after) : KeepsFrames (first ++ second) before after where
  evictions := later.evictions.trans earlier.evictions
  resident owner page present isResident :=
    later.resident owner page (earlier.resident owner page present isResident) isResident
  others owner outside := by
    rw [List.mem_append, not_or] at outside
    exact (later.others owner outside.2).trans (earlier.others owner outside.1)

/-- No page loses its frame if only one changes that has none. -/
theorem KeepsFrames.of_absent
    (evictions : after.evictionsNoted = before.evictionsNoted)
    (absent : before.isAbsent owner = true)
    (others : ∀ other, other ≠ owner → after.pageOf other = before.pageOf other) :
    KeepsFrames [owner] before after where
  evictions := evictions
  resident other page present resident := by
    refine (others other ?_).trans present
    rintro rfl
    rw [isAbsent, present, Option.any_some, resident] at absent
    cases absent
  others other outside := others other (List.ne_of_not_mem_cons outside)

/-- A page that is claimed takes a free frame if there is one, and no other page changes. -/
theorem keeps_claimed
    (turn : Turn (.claimed owner) before after) (sound : before.ledger.Sound none)
    (room : before.ledger.free ≠ []) :
    KeepsFrames [owner] before after ∧ after.ledger.free.length + 1 = before.ledger.free.length := by
  cases turn with
  | claimed present absent acquires arrives =>
      rename_i held page frame
      have evictions := arrives.evictionsNoted.trans (acquires.evictionsNoted room)
      have vacant : before.isAbsent owner = true := by
        have found : before.pageOf owner = some page := present
        rw [isAbsent, found, Option.any_some, Page.isResident, absent]
        rfl
      have moves := acquires.moves sound
      obtain ⟨flying, presentThen⟩ := moves.sound sound present absent
      obtain ⟨_, _, arrived, _⟩ := arrives.moves flying presentThen
      obtain ⟨new, pages, _⟩ := arrived.pages
      obtain ⟨same, first⟩ := moves.first_free room
      refine ⟨.of_absent evictions vacant fun other apart => ?_, by rw [first, arrived.free]; rfl⟩
      have kept : after.ledger.pages other = held.ledger.pages other := by
        rw [pages, Function.update_of_ne apart]
      exact kept.trans (congrFun same other)

/-- A page that begins takes no frame. -/
theorem keeps_reserved
    {page : Page} (turn : Turn (.reserved owner page) before after) (sound : before.ledger.Sound none) :
    KeepsFrames [owner] before after ∧ after.ledger.free = before.ledger.free := by
  have step := turn.step sound
  obtain ⟨vacant, _, pages⟩ := step.begins
  have missing : before.pageOf owner = none := vacant
  have journal : after.journal = before.journal := by
    cases turn
    rfl
  refine ⟨.of_absent (by rw [evictionsNoted, evictionsNoted, journal]) (by rw [isAbsent, missing]; rfl) fun other apart => ?_,
    step.free_of_reserved⟩
  exact (congrFun pages other).trans (Function.update_of_ne apart ..)

/-- Until the page of a fault is claimed no frame is taken. -/
theorem Readies.keeps
    {fault : PageFault} (readies : before.Readies pid fault middle) (sound : before.ledger.Sound none) :
    KeepsFrames [⟨pid, pageBase fault.address⟩] before middle ∧ middle.ledger.free = before.ledger.free := by
  cases readies with
  | found counted =>
      cases counted
      exact ⟨.of_same rfl rfl, rfl⟩
  | grown counts vacant turn =>
      cases counts
      obtain ⟨keeps, free⟩ := keeps_reserved turn sound
      exact ⟨⟨keeps.evictions, keeps.resident, keeps.others⟩, free⟩

/-- The page of a fault is as absent when it is claimed as it was when the fault was met. -/
theorem Readies.isAbsent
    {fault : PageFault} (readies : before.Readies pid fault middle) (sound : before.ledger.Sound none) :
    middle.isAbsent ⟨pid, pageBase fault.address⟩ = before.isAbsent ⟨pid, pageBase fault.address⟩ := by
  cases readies with
  | found counted =>
      cases counted
      rfl
  | grown counts vacant turn =>
      cases counts
      have begun := congrFun (turn.step sound).begins.2.2 ⟨pid, pageBase fault.address⟩
      rw [Function.update_self] at begun
      have present : middle.pageOf ⟨pid, pageBase fault.address⟩ = some (.ofStack fault.address) := begun
      have missing : before.pageOf ⟨pid, pageBase fault.address⟩ = none := vacant
      rw [Pager.isAbsent, Pager.isAbsent, present, missing]
      rfl

/-- A page that is claimed where there is room leaves all others alone. -/
theorem Claimed.keeps
    (claimed : before.Claimed owner after) (sound : before.ledger.Sound none)
    (absent : before.isAbsent owner = true) (room : before.ledger.free ≠ []) :
    KeepsFrames [owner] before after ∧ after.ledger.free.length + 1 = before.ledger.free.length := by
  cases claimed with
  | fetched _ _ turn => exact keeps_claimed turn sound room
  | resident present resident =>
      rename_i page frame
      have found : before.pageOf owner = some page := present
      rw [Pager.isAbsent, found, Option.any_some, Page.isResident, resident] at absent
      cases absent

/-! ## One page of an access -/

/-- What an access does at one of its pages: it faults if the page is absent, and then the page may be
accessed. If there is a free frame for an absent page, no page loses its frame. -/
structure Passes (before : Pager) (pid : Pid) (va : Nat) (isWrite : Bool) (after : Pager) : Prop where
  ready : after.Ready
  faults : after.counters.pageFaults =
    before.counters.pageFaults + (before.isAbsent ⟨pid, pageBase va⟩).toNat
  grants : ∃ frame, after.ledger.Grants ⟨pid, pageBase va⟩ isWrite frame
  keeps : (before.isAbsent ⟨pid, pageBase va⟩ = true → before.ledger.free ≠ []) →
    KeepsFrames [⟨pid, pageBase va⟩] before after ∧
      after.ledger.free.length + (before.isAbsent ⟨pid, pageBase va⟩).toNat =
        before.ledger.free.length

theorem pageOf_touched (pager : Pager) (pid : Pid) (va : Nat) (isWrite : Bool) :
    (pager.touched pid va isWrite).pageOf = pager.pageOf :=
  congrArg Ledger.pages (ledger_touched pager pid va isWrite)

theorem Resolves.passes
    {address : Nat} (resolves : before.Resolves pid va isWrite address after) (ready : before.Ready) :
    before.Passes pid va isWrite after := by
  obtain ⟨_, counts⟩ := resolves.counts ready
  obtain ⟨frame, resolved, _⟩ := resolves.resolved ready
  refine ⟨counts.ready ready, ?_, ⟨frame, resolved.grants⟩, fun room => ?_⟩
  · cases resolves with
    | granted grants _ =>
        rw [isAbsent_of_grants grants]
        rfl
    | faulted refused here way run grants _ =>
        subst here way
        obtain ⟨admits, _⟩ := (ends_resolveFault ready pid _).of_ok run
        rw [admits.isAbsent refused]
        exact ((countingExactly_resolveFault ready pid _).of_ok run).pageFaults
  · cases resolves with
    | granted grants _ =>
        rw [isAbsent_of_grants grants, ledger_touched]
        exact ⟨.of_same rfl (pageOf_touched ..), rfl⟩
    | faulted refused here way run grants _ =>
        subst here way
        obtain ⟨admits, readied, readies, claimed⟩ := (ends_resolveFault ready pid _).of_ok run
        have absent := admits.isAbsent refused
        obtain ⟨earlier, same⟩ := readies.keeps ready.sound
        obtain ⟨later, taken⟩ := claimed.keeps (readies.sound ready.sound)
          ((readies.isAbsent ready.sound).trans absent) (by rw [same]; exact room absent)
        rw [absent, ledger_touched, ← same]
        refine ⟨?_, taken⟩
        have both := earlier.trans later
        exact ⟨both.evictions, fun other page there isResident =>
          (congrFun (pageOf_touched ..) other).trans (both.resident other page there isResident),
            fun other outside => (congrFun (pageOf_touched ..) other).trans
              (both.others other (by simpa using outside))⟩

/-- Storing a chunk in the page changes nothing of this. -/
theorem Passes.stored
    (passes : before.Passes pid va true middle) (resolved : middle.Resolved pid va true frame)
    (bytes : Array UInt8) :
    before.Passes pid va true (middle.modifyFrames fun frames =>
      frames.store (frameBase frame + pageOffset va) bytes) := by
  have sound := passes.ready.sound
  obtain ⟨_, same, turn, _⟩ := store_of_grants sound resolved bytes
  subst same
  have ready := (CountedRun.of_turn turn sound (by simp) (by simp)).ready passes.ready
  obtain ⟨⟨page, present, resident, allowed⟩, _⟩ := resolved
  have shown := @ledger_store middle (frameBase frame + pageOffset va)
    (by rw [frameBase_div (pageOffset_lt va)]
        exact sound.lt_frameCount (sound.owner_of_page present resident)) bytes
  refine ⟨ready, passes.faults, ⟨frame, page, ?_, resident, allowed⟩, fun room => ?_⟩
  · rw [shown]
    exact present
  · obtain ⟨keeps, free⟩ := passes.keeps room
    exact ⟨⟨keeps.evictions, keeps.resident, keeps.others⟩, free⟩

/-! ## The course of an access -/

/-- The course of an access: the states in which it comes to its pages, with the addresses of these, the
first one first. -/
inductive Visits (pid : Pid) (isWrite : Bool) :
    Nat → Nat → List (Pager × Nat) → Pager → Pager → Prop
  | done {va : Nat} {pager : Pager} : Visits pid isWrite va 0 [] pager pager
  | page {va left : Nat} {moments : List (Pager × Nat)} {before next after : Pager}
      (remaining : left ≠ 0) (isWord : va < wordLimit) (passes : before.Passes pid va isWrite next)
      (rest : Visits pid isWrite (va + chunkLength va left) (left - chunkLength va left) moments next
        after) :
      Visits pid isWrite va left ((before, pageBase va) :: moments) before after

/-- How many pages of some moments were absent in them. -/
def absentAmong (pid : Pid) (moments : List (Pager × Nat)) : Nat :=
  moments.countP fun moment => moment.1.isAbsent ⟨pid, moment.2⟩

/-- How many pages of some addresses are absent. -/
def absentOf (pager : Pager) (pid : Pid) (bases : List Nat) : Nat :=
  bases.countP fun base => pager.isAbsent ⟨pid, base⟩

namespace Visits

variable {left : Nat} {moments : List (Pager × Nat)}

theorem ready (visits : Visits pid isWrite va left moments before after) (ready : before.Ready) :
    after.Ready := by
  induction visits with
  | done => exact ready
  | page _ _ passes _ inductionHypothesis => exact inductionHypothesis passes.ready

theorem bases (visits : Visits pid isWrite va left moments before after) :
    moments.map Prod.snd = touchedBases va left := by
  induction visits with
  | done => rfl
  | page remaining _ _ _ inductionHypothesis =>
      rw [List.map_cons, inductionHypothesis, touchedBases_chunk remaining]

/-- An access faults once for each page that is absent when it comes to it. -/
theorem pageFaults (visits : Visits pid isWrite va left moments before after) :
    after.counters.pageFaults = before.counters.pageFaults + absentAmong pid moments := by
  induction visits with
  | done => rfl
  | page _ _ passes _ inductionHypothesis =>
      rw [inductionHypothesis, passes.faults, absentAmong, absentAmong, List.countP_cons,
        Nat.add_assoc, Nat.add_comm (List.countP _ _)]
      cases Pager.isAbsent _ _ <;> rfl

/-- Where there is a free frame for each page that is absent, the pages are absent when the access comes to
them that were before, no page loses its frame, and the access is allowed at all pages in the end. -/
theorem keeps
    (visits : Visits pid isWrite va left moments before after)
    (room : before.absentOf pid (touchedBases va left) ≤ before.ledger.free.length) :
    absentAmong pid moments = before.absentOf pid (touchedBases va left) ∧
      (∃ owners, KeepsFrames owners before after) ∧
        ∀ base ∈ touchedBases va left, ∃ frame, after.ledger.Grants ⟨pid, base⟩ isWrite frame := by
  induction visits with
  | done => exact ⟨rfl, ⟨[], .of_same rfl rfl⟩, fun _ member => absurd member List.not_mem_nil⟩
  | @page va left moments before next after remaining _ passes rest inductionHypothesis =>
      have nodup := nodup_touchedBases va left
      rw [touchedBases_chunk remaining] at room nodup ⊢
      generalize touchedBases (va + chunkLength va left) (left - chunkLength va left) = bases at *
      have split (pager : Pager) : pager.absentOf pid (pageBase va :: bases) =
          pager.absentOf pid bases + (pager.isAbsent ⟨pid, pageBase va⟩).toNat := by
        rw [absentOf, List.countP_cons, absentOf]
        cases pager.isAbsent ⟨pid, pageBase va⟩ <;> rfl
      rw [split] at room ⊢
      obtain ⟨keeps, free⟩ := passes.keeps fun absent none => by
        rw [absent, none] at room
        exact absurd room (by simp)
      have same : next.absentOf pid bases = before.absentOf pid bases := by
        refine List.countP_congr fun base member => ?_
        have apart : (⟨pid, base⟩ : Owner) ∉ [(⟨pid, pageBase va⟩ : Owner)] := by
          rw [List.mem_singleton, Owner.mk.injEq, not_and]
          rintro _ rfl
          exact (List.nodup_cons.mp nodup).1 member
        rw [isAbsent, isAbsent, keeps.others _ apart]
      obtain ⟨reached, ⟨owners, later⟩, granted⟩ := inductionHypothesis (by omega)
      refine ⟨?_, ⟨_, keeps.trans later⟩, fun base member => ?_⟩
      · rw [absentAmong, List.countP_cons, ← absentAmong, reached, same]
        cases before.isAbsent ⟨pid, pageBase va⟩ <;> rfl
      · rcases List.mem_cons.mp member with rfl | member
        · obtain ⟨frame, page, present, resident, allowed⟩ := passes.grants
          exact ⟨frame, page, later.resident _ page present (by rw [Page.isResident, resident]; rfl),
            resident, allowed⟩
        · exact granted base member

/-- What is left of an access after its next page. -/
theorem rest
    (visits : Visits pid isWrite va left moments before after) (remaining : left ≠ 0) :
    va < wordLimit ∧ ∃ later next,
      Visits pid isWrite (va + chunkLength va left) (left - chunkLength va left) later next after := by
  cases visits with
  | done => exact absurd rfl remaining
  | page _ isWord _ rest => exact ⟨isWord, _, _, rest⟩

end Visits

/-! ## Reads and writes -/

theorem leaves_of_same
    {α : Type} {program other : PagerM α} (same : program before = other middle) :
    program.leaves before = other.leaves middle := by
  rw [leaves, leaves, same]

theorem checkedSum_of_run
    {done address : Nat} (run : chunkAddress va done before = .ok address middle) :
    checkedSum va done = some address := by
  cases sum : checkedSum va done with
  | none =>
      rw [chunkAddress, sum] at run
      cases run
  | some there =>
      rw [chunkAddress, sum] at run
      cases run
      rfl

theorem lt_of_checkedSum {left right sum : Nat} (isWord : checkedSum left right = some sum) :
    sum < wordLimit := by
  unfold checkedSum at isWord
  split at isWord
  · cases isWord
    assumption
  · cases isWord

/-- A chunk that can be read is read before the chunks behind it. -/
theorem readChunks_succ
    {length chunks done address physical count : Nat} {bytes : Array UInt8}
    (isWord : checkedSum va done = some address)
    (resolved : physicalAddress pid address false before = .ok physical middle)
    (counted : chunkLength address (length - done) = count)
    (checked : checkPhysical physical count middle = .ok ⟨⟩ middle) :
    readChunks pid va length (chunks + 1) done bytes before =
      readChunks pid va length chunks (done + count) (bytes ++ middle.frames.load physical count)
        middle := by
  simp only [readChunks, chunkAddress, isWord, bind, EStateM.bind, pure, EStateM.pure, resolved,
    counted, checked]
  rfl

/-- What is found at the next chunk of an access that is answered. -/
theorem found_of_run
    {α : Type} {done count : Nat} {next : Nat → Nat → PagerM α} {result : α} (ready : before.Ready)
    (run : (chunkAddress va done >>= fun address =>
      physicalAddress pid address isWrite >>= next address) before = .ok result after)
    (fits : pageOffset (va + done) + count ≤ pageSize) :
    checkedSum va done = some (va + done) ∧ ∃ frame middle,
      physicalAddress pid (va + done) isWrite before =
        .ok (frameBase frame + pageOffset (va + done)) middle ∧
      before.Passes pid (va + done) isWrite middle ∧ middle.Resolved pid (va + done) isWrite frame ∧
        checkPhysical (frameBase frame + pageOffset (va + done)) count middle = .ok ⟨⟩ middle := by
  obtain ⟨address, _, addressed, later⟩ := ok_of_bind run
  have isWord := checkedSum_of_run addressed
  cases checkedSum_eq_some isWord
  have same : _ = before := (still_chunkAddress va done before).of_ok addressed
  subst same
  obtain ⟨physical, middle, found, _⟩ := ok_of_bind later
  have resolves := (resolves_physicalAddress ready pid (va + done) isWrite).of_ok found
  have passes := resolves.passes ready
  obtain ⟨frame, resolved, rfl⟩ := resolves.resolved ready
  exact ⟨isWord, frame, middle, found, passes, resolved,
    checkPhysical_of_resolved passes.ready.sound resolved fits⟩

/-- A read that is answered has a course, and comes to each page in the state that reading the pages before
it leaves. -/
theorem visits_readChunks
    (ready : before.Ready) {length chunks done : Nat} {bytes result : Array UInt8}
    (enough : chunks = touchedPages (va + done) (length - done))
    (run : readChunks pid va length chunks done bytes before = .ok result after) :
    ∃ moments, Visits pid false (va + done) (length - done) moments before after ∧
      moments.map Prod.fst = (List.range chunks).map fun pages =>
        (readChunks pid va length pages done bytes).leaves before := by
  induction chunks generalizing before done bytes with
  | zero =>
      have finished := touchedPages_eq_zero.mp enough.symm
      cases run
      rw [finished]
      exact ⟨[], .done, rfl⟩
  | succ chunks inductionHypothesis =>
      obtain ⟨remaining, enough⟩ := remaining_of_touchedPages enough
      rw [Nat.add_assoc, Nat.sub_sub] at enough
      obtain ⟨isWord, frame, middle, found, passes, resolved, checked⟩ :=
        @found_of_run before after pid va false _ done _ _ _ ready run (chunkLength_le (va + done) (length - done)).2
      have first (chunks : Nat) := @readChunks_succ before middle pid va length chunks done _ _ _ bytes isWord
        found rfl checked
      rw [first] at run
      obtain ⟨moments, visits, reached⟩ := inductionHypothesis passes.ready enough run
      rw [← Nat.add_assoc, ← Nat.sub_sub] at visits
      refine ⟨_, .page remaining (lt_of_checkedSum isWord) passes visits, ?_⟩
      rw [List.map_cons, reached, List.range_succ_eq_map, List.map_cons, List.map_map]
      congr 1
      exact List.map_congr_left fun pages _ => (leaves_of_same (first pages)).symm

theorem visits_writeChunks
    (ready : before.Ready) {chunks done : Nat} {bytes : Array UInt8}
    (enough : chunks = touchedPages (va + done) (bytes.size - done))
    (run : writeChunks pid va bytes chunks done before = .ok ⟨⟩ after) :
    ∃ moments, Visits pid true (va + done) (bytes.size - done) moments before after ∧
      moments.map Prod.fst = (List.range chunks).map fun pages =>
        (writeChunks pid va bytes pages done).leaves before := by
  induction chunks generalizing before done with
  | zero =>
      have finished := touchedPages_eq_zero.mp enough.symm
      cases run
      rw [finished]
      exact ⟨[], .done, rfl⟩
  | succ chunks inductionHypothesis =>
      obtain ⟨remaining, enough⟩ := remaining_of_touchedPages enough
      rw [Nat.add_assoc, Nat.sub_sub] at enough
      obtain ⟨isWord, frame, middle, found, passes, resolved, checked⟩ :=
        @found_of_run before after pid va true _ done _ _ _ ready run
          (chunkLength_le (va + done) (bytes.size - done)).2
      have first (chunks : Nat) := @writeChunks_succ before pid va chunks done _ _ _ bytes middle isWord
        found rfl checked
      have stored := passes.stored resolved
        (bytes.extract done (done + chunkLength (va + done) (bytes.size - done)))
      rw [first] at run
      obtain ⟨moments, visits, reached⟩ := inductionHypothesis stored.ready enough run
      rw [← Nat.add_assoc, ← Nat.sub_sub] at visits
      refine ⟨_, .page remaining (lt_of_checkedSum isWord) stored visits, ?_⟩
      rw [List.map_cons, reached, List.range_succ_eq_map, List.map_cons, List.map_map]
      congr 1
      exact List.map_congr_left fun pages _ => (leaves_of_same (first pages)).symm

/-! ## The same access again -/

/-- Where an access is allowed nothing faults. -/
theorem run_physicalAddress
    (sound : before.ledger.Sound none)
    (grants : before.ledger.Grants ⟨pid, pageBase va⟩ isWrite frame) :
    physicalAddress pid va isWrite before =
      .ok (frameBase frame + pageOffset va) (before.touched pid va isWrite) := by
  rw [physicalAddress_eq, bind_of_ok (run_lookUp sound grants)]
  rfl

/-- Whether an access is allowed at all of its pages. -/
def Allows (pager : Pager) (pid : Pid) (isWrite : Bool) (bases : List Nat) : Prop :=
  ∀ base ∈ bases, ∃ frame, pager.ledger.Grants ⟨pid, base⟩ isWrite frame

/-- An access at a page that allows it does not fault, and takes no frame from other pages. -/
theorem Passes.allowed
    {bases : List Nat} (passes : before.Passes pid va isWrite after)
    (allows : before.Allows pid isWrite (pageBase va :: bases)) :
    after.counters.pageFaults = before.counters.pageFaults ∧ after.Allows pid isWrite bases := by
  obtain ⟨_, here⟩ := allows (pageBase va) List.mem_cons_self
  have present := isAbsent_of_grants here
  refine ⟨by rw [passes.faults, present]; rfl, fun base member => ?_⟩
  obtain ⟨frame, page, there, resident, allowed⟩ := allows base (List.mem_cons_of_mem _ member)
  have keeps := (passes.keeps fun absent => by rw [present] at absent; cases absent).1
  exact ⟨frame, page, keeps.resident _ page there (by rw [Page.isResident, resident]; rfl), resident,
    allowed⟩

theorem again_readChunks
    {moments : List (Pager × Nat)} {length chunks done : Nat} {bytes : Array UInt8} (ready : middle.Ready)
    (visits : Visits pid false (va + done) (length - done) moments before after)
    (enough : chunks = touchedPages (va + done) (length - done))
    (allows : middle.Allows pid false (touchedBases (va + done) (length - done))) :
    ∃ result last, readChunks pid va length chunks done bytes middle = .ok result last ∧
      last.counters.pageFaults = middle.counters.pageFaults := by
  induction chunks generalizing middle before done bytes moments with
  | zero => exact ⟨bytes, middle, rfl, rfl⟩
  | succ chunks inductionHypothesis =>
      obtain ⟨remaining, enough⟩ := remaining_of_touchedPages enough
      obtain ⟨isWord, later, next, rest⟩ := visits.rest remaining
      rw [Nat.add_assoc, Nat.sub_sub] at enough
      rw [touchedBases_chunk remaining] at allows
      obtain ⟨frame, grants⟩ := allows (pageBase (va + done)) List.mem_cons_self
      have resolves : middle.Resolves pid (va + done) false _ _ := .granted grants rfl
      have passes := resolves.passes ready
      obtain ⟨same, allowsThen⟩ := passes.allowed allows
      have checked := checkPhysical_of_resolved passes.ready.sound (resolved_touched ready.sound grants)
        (chunkLength_le (va + done) (length - done)).2
      rw [readChunks_succ (if_pos isWord) (run_physicalAddress ready.sound grants) rfl checked]
      rw [Nat.add_assoc, Nat.sub_sub] at rest allowsThen
      obtain ⟨result, last, run, faults⟩ := inductionHypothesis passes.ready rest enough allowsThen
      exact ⟨result, last, run, faults.trans same⟩

theorem again_writeChunks
    {moments : List (Pager × Nat)} {chunks done : Nat} {bytes : Array UInt8} (ready : middle.Ready)
    (visits : Visits pid true (va + done) (bytes.size - done) moments before after)
    (enough : chunks = touchedPages (va + done) (bytes.size - done))
    (allows : middle.Allows pid true (touchedBases (va + done) (bytes.size - done))) :
    ∃ last, writeChunks pid va bytes chunks done middle = .ok ⟨⟩ last ∧
      last.counters.pageFaults = middle.counters.pageFaults := by
  induction chunks generalizing middle before done moments with
  | zero => exact ⟨middle, rfl, rfl⟩
  | succ chunks inductionHypothesis =>
      obtain ⟨remaining, enough⟩ := remaining_of_touchedPages enough
      obtain ⟨isWord, later, next, rest⟩ := visits.rest remaining
      rw [Nat.add_assoc, Nat.sub_sub] at enough
      rw [touchedBases_chunk remaining] at allows
      obtain ⟨frame, grants⟩ := allows (pageBase (va + done)) List.mem_cons_self
      have resolves : middle.Resolves pid (va + done) true _ _ := .granted grants rfl
      have resolved := resolved_touched ready.sound grants
      have passes := (resolves.passes ready).stored resolved
        (bytes.extract done (done + chunkLength (va + done) (bytes.size - done)))
      obtain ⟨same, allowsThen⟩ := passes.allowed allows
      have checked := checkPhysical_of_resolved (resolves.passes ready).ready.sound resolved
        (chunkLength_le (va + done) (bytes.size - done)).2
      rw [writeChunks_succ (if_pos isWord) (run_physicalAddress ready.sound grants) rfl checked]
      rw [Nat.add_assoc, Nat.sub_sub] at rest allowsThen
      obtain ⟨last, run, faults⟩ := inductionHypothesis passes.ready rest enough allowsThen
      exact ⟨last, run, faults.trans same⟩

/-- What is answered although a fatal error would end the process was answered by the program itself. -/
theorem ok_of_killOnFatal
    {α : Type} {program : PagerM α} {answer : α}
    (run : killOnFatal pid program before = .ok answer after) : program before = .ok answer after := by
  obtain ⟨outcome, failed, attempted, rest⟩ := ok_of_bind run
  cases outcome with
  | ok result =>
      cases rest
      exact ok_of_attempt attempted
  | error error =>
      have never : (do
          if error.isFatal && (← get).spaces.contains pid then exitProcess pid
          PagerM.fail error : PagerM α).Meets failed ⟨fun _ _ => False, fun _ _ => True, fun _ _ => True⟩ := by
        rw [meets_bind, meets_get]
        dsimp only
        split
        · exact (meets_bind ..).mpr
            ((Meets.anyway _ _).mono (fun _ _ _ => trivial) (fun _ _ => id) fun _ _ => id)
        · trivial
      exact (never.of_ok rest).elim

end Pager

namespace Call

/-- The process, the address and the number of bytes of an access. -/
def extent? : Call → Option (Pid × Nat × Nat)
  | readUser pid va length => some (pid, va, length)
  | writeUser pid va bytes => some (pid, va, bytes.size)
  | _ => none

/-- The state in which an access comes to the page with an index among those it touches: the one that the
pages before it leave. -/
def reaching (call : Call) (index : Nat) (before : Pager) : Pager :=
  match call with
  | readUser pid va length => (Pager.readChunks pid va length index 0 #[]).leaves before
  | writeUser pid va bytes => (Pager.writeChunks pid va bytes index 0).leaves before
  | _ => before

/-- How many of the pages that an access touches are absent when it comes to them. -/
def absentWhenReached (call : Call) (before : Pager) (pid : Pid) (va length : Nat) : Nat :=
  (List.range (touchedPages va length)).countP fun index =>
    (call.reaching index before).isAbsent ⟨pid, pageBase va + index * pageSize⟩

end Call

namespace Pager

open PagerM

variable {before after : Pager} {pid : Pid} {va : Nat}

/-- An access that is answered has a course, and it is answered without a fault wherever it is allowed at all
of its pages. -/
theorem visits_of_run
    {call : Call} {length : Nat} {answer : Answer} (ready : before.Ready)
    (extent : call.extent? = some (pid, va, length))
    (run : attempt call.perform before = .ok (.ok answer) after) :
    ∃ isWrite moments, Visits pid isWrite va length moments before after ∧
      moments.map Prod.fst =
        ((List.range (touchedPages va length)).map fun index => call.reaching index before) ∧
      ∀ middle : Pager, middle.Ready → middle.Allows pid isWrite (touchedBases va length) →
        ∃ again last, attempt call.perform middle = .ok (.ok again) last ∧
          last.counters.pageFaults = middle.counters.pageFaults := by
  have run := ok_of_attempt run
  cases call with
  | readUser =>
      cases extent
      obtain ⟨bytes, _, read, answered⟩ := ok_of_bind run
      cases answered
      obtain ⟨moments, visits, reached⟩ := @visits_readChunks before after pid va ready length _ 0 _ _ rfl
        (ok_of_killOnFatal read)
      refine ⟨false, moments, visits, reached, fun middle middleReady allows => ?_⟩
      obtain ⟨result, last, again, same⟩ := @again_readChunks before middle after pid va moments length _ 0
        #[] middleReady visits rfl allows
      refine ⟨.bytes result, last, attempt_of_ok ?_, same⟩
      exact bind_of_ok (killOnFatal_of_ok pid again) _
  | writeUser _ _ bytes =>
      cases extent
      obtain ⟨_, _, written, answered⟩ := ok_of_bind run
      cases answered
      obtain ⟨moments, visits, reached⟩ := @visits_writeChunks before after _ _ ready _ 0 bytes rfl
        (ok_of_killOnFatal written)
      refine ⟨true, moments, visits, reached, fun middle middleReady allows => ?_⟩
      obtain ⟨last, again, same⟩ := @again_writeChunks before middle after _ _ moments _ 0 bytes
        middleReady visits rfl allows
      refine ⟨.done, last, attempt_of_ok ?_, same⟩
      exact bind_of_ok (killOnFatal_of_ok pid again) _
  | _ => cases extent

/-- The pages of the course of an access are those that it touches, each in the state in which the access
comes to it. -/
theorem Visits.absentAmong_eq
    {call : Call} {isWrite : Bool} {length : Nat} {moments : List (Pager × Nat)}
    (visits : Visits pid isWrite va length moments before after)
    (reached : moments.map Prod.fst =
      (List.range (touchedPages va length)).map fun index => call.reaching index before) :
    absentAmong pid moments = call.absentWhenReached before pid va length := by
  have zipped := List.zip_of_prod reached visits.bases
  rw [touchedBases, List.zip_map'] at zipped
  rw [zipped, absentAmong, List.countP_map]
  rfl

/-! ## Rounds -/

/-- Two rounds are enough for whatever becomes of an address. -/
theorem translate_two_rounds (pid : Pid) (va : Nat) (isWrite : Bool) (rounds : Nat) :
    translate pid va isWrite (rounds + 2) false = some <$> physicalAddress pid va isWrite := by
  rw [translate, physicalAddress_eq, map_bind]
  refine bind_congr fun found => ?_
  cases found with
  | some address => exact (map_pure ..).symm
  | none =>
      dsimp only
      rw [map_bind]
      refine bind_congr fun space => ?_
      rw [map_bind]
      refine bind_congr fun _ => ?_
      rw [translate, map_bind]
      refine bind_congr fun found => ?_
      cases found with
      | some address => exact (map_pure ..).symm
      | none => rfl

end Pager

/-! ## How often an access faults -/

/-- An access that is answered faults once for each page that is not in a frame when it comes to it. If
there were enough free frames for the pages that were not in one at the start, those are the pages it faults
on, no page loses its frame, and the same access does not fault when it is made again. No address is looked
up more than twice. -/
theorem touched_pages_fault_once
    {config : Config} {kind : PolicyKind} {device : Device} {files : FileTable} {events : List Event}
    {before after : Pager} (history : History config kind device files events before)
    {call : Call} {pid : Pid} {va length : Nat} {answer : Answer}
    (extent : call.extent? = some (pid, va, length))
    (run : PagerM.attempt call.perform before = .ok (.ok answer) after) :
    after.stats.pageFaults =
        before.stats.pageFaults + call.absentWhenReached before pid va length ∧
    after.stats.pageFaults ≤ before.stats.pageFaults + touchedPages va length ∧
    (before.absentOf pid (touchedBases va length) ≤ before.stats.framesFree →
      after.stats.pageFaults =
          before.stats.pageFaults + before.absentOf pid (touchedBases va length) ∧
        after.stats.evictions = before.stats.evictions ∧
          (∀ owner page, before.pageOf owner = some page → page.isResident = true →
            after.pageOf owner = some page) ∧
            ∃ again last, PagerM.attempt call.perform after = .ok (.ok again) last ∧
              last.stats.pageFaults = after.stats.pageFaults) ∧
    ∀ (isWrite : Bool) (address rounds : Nat),
      Pager.translate pid address isWrite (rounds + 2) false =
        some <$> Pager.physicalAddress pid address isWrite := by
  have orderly := history.orderly
  have ready := orderly.unpinned.ready orderly.sound
  obtain ⟨isWrite, moments, visits, reached, repeats⟩ := Pager.visits_of_run ready extent run
  have counted := visits.pageFaults
  rw [visits.absentAmong_eq reached] at counted
  refine ⟨counted, ?_, fun room => ?_, fun isWrite address => Pager.translate_two_rounds pid address isWrite⟩
  · have few : call.absentWhenReached before pid va length ≤ touchedPages va length :=
      List.countP_le_length.trans_eq List.length_range
    exact counted.trans_le (Nat.add_le_add_left few _)
  · obtain ⟨same, ⟨owners, keeps⟩, allows⟩ := visits.keeps room
    rw [visits.absentAmong_eq reached] at same
    obtain ⟨_, counts⟩ := orderly.counts run
    have balanced := history.isBalanced
    have balancedThen := counts.isBalanced orderly.sound orderly.tidy balanced
    have evictions : after.stats.evictions = before.stats.evictions :=
      balancedThen.evictions.trans (keeps.evictions.trans balanced.evictions.symm)
    exact ⟨by rw [← same]; exact counted, evictions, keeps.resident,
      repeats after (visits.ready ready) allows⟩

/-- A read over two pages of which one was touched before faults once, while a frame is free. -/
theorem touched_pages_fault_once_of_two_frames :
    ∃ events before after answer,
      History { frameCount := 2 } .fifo (Device.blank .memory 0) ⟨#[]⟩ events before ∧
        PagerM.attempt (Call.readUser 1 8190 10).perform before = .ok (.ok answer) after ∧
          before.absentOf 1 (touchedBases 8190 10) = 1 ∧ before.stats.framesFree = 1 ∧
            after.stats.pageFaults = before.stats.pageFaults + 1 ∧
              after.stats.evictions = before.stats.evictions ∧
                ∃ again last,
                  PagerM.attempt (Call.readUser 1 8190 10).perform after = .ok (.ok again) last ∧
                    last.stats.pageFaults = after.stats.pageFaults := by
  have read : (((Pager.create { frameCount := 2 } .fifo (Device.blank .memory 0) ⟨#[]⟩).play []
      twoPages).any fun result =>
        result.2.comesTo (.readUser 1 8190 10) fun outcome _ => outcome.isOk &&
          (result.2.absentOf 1 (touchedBases 8190 10) == 1 && result.2.stats.framesFree == 1)) = true := by
    decide +kernel
  obtain ⟨⟨events, before⟩, played, comes⟩ := (Option.any_eq_true ..).mp read
  obtain ⟨outcome, after, run, holds⟩ := Pager.exists_run_of_comesTo comes
  obtain ⟨answered, counts⟩ := Bool.and_eq_true_iff.mp holds
  obtain ⟨absent, free⟩ := Bool.and_eq_true_iff.mp counts
  have absent : before.absentOf 1 (touchedBases 8190 10) = 1 := beq_iff_eq.mp absent
  have free : before.stats.framesFree = 1 := beq_iff_eq.mp free
  cases outcome with
  | error => cases answered
  | ok answer =>
      have history := History.start.play played
      obtain ⟨_, _, within, _⟩ := touched_pages_fault_once history rfl run
      obtain ⟨faults, evictions, _, again⟩ := within (by rw [absent, free])
      rw [absent] at faults
      exact ⟨events, before, after, answer, history, run, absent, free, faults, evictions, again⟩

end DemandPaging
