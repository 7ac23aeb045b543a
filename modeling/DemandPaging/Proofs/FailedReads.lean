import DemandPaging.Proofs.FaultVerdicts
import DemandPaging.Proofs.ShortFiles

/-!
# Why a read fails

A read that stays in pages of its process is refused nowhere. It fails only because one of the pages that it
comes to cannot be brought in, and then with the address of that page: because something could not be read, or
because the page waits for more than its file has.
-/

namespace DemandPaging

/-- The content of a page could not be read: its file refused a read, or the device failed to read its slot. -/
inductive PageKind.IsUnreadable (kind : PageKind) (files : FileTable) (transfers : List Transfer) : Prop
  | byFile {range : FileRange} (source : kind.source? = some range)
      (refused : (files.readAt range.file range.offset range.length).2 = none)
  | byDevice {slot : Nat} {transfer : Transfer} (held : kind.slot? = some slot)
      (issued : transfer ∈ transfers) (reads : transfer.direction = .read)
      (within : SwapSpace.Contains slot transfer.sector) (failed : transfer.succeeded = false)

namespace Pager

open PagerM

variable {before middle after : Pager} {pid : Pid} {va length : Nat} {fault : PageFault} {error : PagingError}

/-- An access fails because the page of an address cannot be brought in when the access comes to it. -/
structure Loses (before : Pager) (pid : Pid) (address : Nat) (error : PagingError) (after : Pager) : Prop where
  error : error = .io (pageBase address)
  missed : ∃ middle, Runs (Deed.Serves pid) before middle ∧
    Turn (.missed ⟨pid, pageBase address⟩) middle after

/-- What was lost on the way of an access was lost by it. -/
theorem Loses.rebase
    {address : Nat} (loses : middle.Loses pid address error after)
    (runs : Runs (Deed.Serves pid) before middle) : before.Loses pid address error after := by
  obtain ⟨there, later, missed⟩ := loses.missed
  exact ⟨loses.error, there, runs.trans later, missed⟩

/-- A page is lost because something could not be read, or because it waited for more than its file has. -/
theorem Loses.cause
    {address : Nat} (loses : before.Loses pid address error after) (sound : before.ledger.Sound none)
    (tidy : before.Tidy) {page : Page} (present : before.pageOf ⟨pid, pageBase address⟩ = some page) :
    ∃ middle lost, Runs (Deed.Serves pid) before middle ∧
      Turn (.missed ⟨pid, pageBase address⟩) middle after ∧
      middle.pageOf ⟨pid, pageBase address⟩ = some lost ∧ lost.frame = none ∧
        (lost.kind.IsUnreadable middle.files (after.swap.transfersSince middle.swap) ∨
          ∃ range, before.WaitsInVain ⟨pid, pageBase address⟩ page range) := by
  obtain ⟨middle, runs, missed⟩ := loses.missed
  obtain ⟨lost, presentThen, absent, lacks⟩ := missed.lacks (runs.sound sound)
  refine ⟨middle, lost, runs, missed, presentThen, absent, ?_⟩
  cases lacks with
  | unread source refused => exact Or.inl (.byFile source refused)
  | broken held issued reads within failed => exact Or.inl (.byDevice held issued reads within failed)
  | @short range pending short =>
      obtain ⟨new, presentNew, continues⟩ := runs.continues sound present fun _ _ => id
      cases presentThen.symm.trans presentNew
      rw [FileTable.size_eq, runs.size_content sound tidy] at short
      exact Or.inr ⟨range, present, continues.pending _ pending, short⟩

/-- The page of a fault is found by serving its process. -/
theorem Readies.runs (readies : before.Readies pid fault middle) :
    Runs (Deed.Serves pid) before middle := by
  cases readies with
  | found counted => exact Runs.single (show Deed.Serves pid .counted from trivial) counted
  | grown counts _ turn =>
      have counted := Runs.single (show Deed.Serves pid .counted from trivial) counts
      refine counted.tail ?permitted turn
      exact ⟨rfl, rfl, rfl⟩

/-- A user address in a page of a process. -/
structure IsReadable (pager : Pager) (pid : Pid) (address : Nat) : Prop where
  user : address < pager.config.kernelBase
  present : ∃ page, pager.pageOf ⟨pid, pageBase address⟩ = some page

/-- What can be read stays readable while its process is served. -/
theorem IsReadable.of_runs
    {address : Nat} (readable : before.IsReadable pid address) (runs : Runs (Deed.Serves pid) before middle)
    (sound : before.ledger.Sound none) : middle.IsReadable pid address where
  user := by
    rw [runs.config]
    exact readable.user
  present := by
    obtain ⟨page, present⟩ := readable.present
    obtain ⟨new, presentThen, _⟩ := runs.continues sound present fun _ _ => id
    exact ⟨new, presentThen⟩

/-- A fault of a read at a readable address is admitted. -/
theorem IsReadable.admits
    (readable : before.IsReadable pid fault.address) (sound : before.ledger.Sound none)
    (isRead : fault.isWrite = false) : before.Admits pid fault := by
  obtain ⟨page, present⟩ := readable.present
  obtain ⟨space, found⟩ := space?_of_page present
  have nonnull : fault.address ≠ 0 := by
    intro null
    apply (sound.placed _ page present).nonnull
    rw [null]
    rfl
  have alive : before.space? pid ≠ none := by
    rw [found]
    exact Option.some_ne_none space
  exact .found ⟨nonnull, readable.user, alive⟩ present fun isWrite => by
    rw [isRead] at isWrite
    cases isWrite

/-! ## One address -/

/-- A readable address is resolved, or its page is lost. -/
theorem ends_physicalAddress (ready : before.Ready) (readable : before.IsReadable pid va) :
    (physicalAddress pid va false).Meets before
      ⟨fun _ _ => True, before.Loses pid va, fun _ _ => True⟩ := by
  have sound := ready.sound
  obtain ⟨page, present⟩ := readable.present
  obtain ⟨space, found⟩ := space?_of_page present
  have first := meets_lookUp sound before.config pid va false
  rw [physicalAddress_eq, meets_bind]
  refine first.mono (fun known middle ⟨_, looked⟩ => ?_) (fun error after ⟨_, _, absent⟩ => ?_)
    fun _ _ _ => trivial
  · cases known with
    | some address => trivial
    | none =>
        obtain ⟨rfl, _⟩ := looked
        simp only [meets_bind, meets_requireSpace, found]
        refine ((meets_resolveFault ready pid _).and (ends_resolveFault ready pid _)).mono ?_ ?_
          fun _ _ _ => trivial
        · intro _ resolved ⟨⟨reaches, frame, grants⟩, _⟩
          obtain ⟨_, foundThen⟩ := space?_of_page grants.choose_spec.1
          refine (meets_lookUp (reaches.runs.sound sound) middle.config pid va false).mono
            (fun again _ looked => ?_) (fun _ _ ⟨_, _, absent⟩ => ?_) fun _ _ _ => trivial
          · cases again with
            | some address => trivial
            | none => exact absurd grants (looked.2.2 frame)
          · cases foundThen.symm.trans absent.2.2
        · rintro error after ⟨_, refused | ⟨same, ready, readies, missed⟩⟩
          · exact absurd refused (readable.admits sound rfl).not_refuses
          · exact ⟨same, ready, readies.runs, missed⟩
  · cases found.symm.trans absent.2.2

/-! ## A whole read -/

/-- A read of readable addresses comes to no other error than that of a page that is lost. -/
theorem ends_readChunks
    (ready : before.Ready) {chunks done : Nat} {bytes : Array UInt8} (started : done ≤ length)
    (enough : chunks = touchedPages (va + done) (length - done)) (words : va + length ≤ wordLimit)
    (readable : ∀ index < length, before.IsReadable pid (va + index)) :
    (readChunks pid va length chunks done bytes).Meets before
      ⟨fun _ _ => True,
        fun error after => ∃ index < length, before.Loses pid (va + index) error after,
        fun _ _ => True⟩ := by
  induction chunks generalizing before done bytes with
  | zero => trivial
  | succ chunks inductionHypothesis =>
      have remaining : length - done ≠ 0 := by
        rw [ne_eq, ← @touchedPages_eq_zero (va + done), ← enough]
        exact Nat.succ_ne_zero chunks
      rw [touchedPages_chunk remaining, Nat.add_right_cancel_iff] at enough
      obtain ⟨inLength, inPage⟩ := chunkLength_le (va + done) (length - done)
      have isWord : checkedSum va done = some (va + done) := by
        rw [checkedSum, if_pos (by omega)]
      rw [readChunks, chunkAddress, isWord]
      simp only [pure_bind]
      generalize chunkLength (va + done) (length - done) = count at *
      rw [meets_bind]
      refine ((meets_physicalAddress ready pid (va + done) false).and
        (ends_physicalAddress ready (readable done (by omega)))).mono ?_
          (fun error after failed => ⟨done, by omega, failed.2⟩) fun _ _ _ => trivial
      rintro _ middle ⟨⟨reaches, frame, ⟨grants, _⟩, rfl⟩, _⟩
      have serves := reaches.runs.mono fun _ permitted => permitted.1
      dsimp only
      rw [meets_bind, meets_checkPhysical_of_grants (reaches.ready ready).sound grants inPage]
      dsimp only
      rw [meets_bind, meets_get]
      dsimp only
      refine (inductionHypothesis (reaches.ready ready) (by omega)
        (by rw [← Nat.add_assoc, ← Nat.sub_sub]; exact enough)
        fun index inside => (readable index inside).of_runs serves ready.sound).mono
          (fun _ _ => id) (fun error after failed => ?_) fun _ _ => id
      obtain ⟨index, inside, loses⟩ := failed
      exact ⟨index, inside, loses.rebase serves⟩

/-- A read of readable addresses fails only because a page is lost, and ends the process then. -/
theorem ends_readUser
    (ready : before.Ready) (words : va + length ≤ wordLimit)
    (readable : ∀ index < length, before.IsReadable pid (va + index)) :
    (readUser pid va length).Meets before
      ⟨fun bytes _ => bytes.size = length,
        fun error after => ∃ index < length, ∃ broken,
          before.Loses pid (va + index) error broken ∧ Killed pid error broken after,
        fun reason after => after.Exhausted before.config.frameCount reason⟩ := by
  have broken : (readChunks pid va length (touchedPages va length) 0 #[]).Meets before
      (Proceeds (fun deed => deed.Serves pid ∧ deed.Extends before.config) before
        (fun bytes _ => bytes.size = length)
        fun error after => after.Bars pid error ∧
          ∃ index < length, before.Loses pid (va + index) error after) := by
    refine ((meets_readChunks ready (Nat.zero_le length) rfl rfl).and
      (ends_readChunks ready (Nat.zero_le length) rfl words readable)).mono ?_ ?_ fun _ _ => And.left
    · intro bytes after answered
      exact ⟨answered.1.1, answered.1.2.1⟩
    · intro error after failed
      exact ⟨failed.1.1, failed.1.2.1, failed.1.2.2, failed.2⟩
  refine (meets_killOnFatal ready broken).mono (fun _ _ answered => answered.2.2) ?_ ?_
  · rintro error after ⟨_, _, middle, _, ⟨index, inside, loses⟩, killed⟩
    exact ⟨index, inside, middle, loses, killed⟩
  · intro reason after stops
    rcases stops.cause with exhausted | ⟨_, _, owner, page, range, permitted, reads⟩
    · exact exhausted
    -- A read reserves no pages of segments, only zeros for the stack, so it adds up no places of a file.
    · rcases permitted with ⟨serves, _⟩ | ends
      · cases serves.2.1.symm.trans reads
      · cases ends

/-- How a read of readable addresses ends: it is answered; or a page is lost, because something could not be read
or because the page waited for more than its file has, and the process ends; or memory is exhausted. -/
inductive ReadEnds (before : Pager) (pid : Pid) (va length : Nat) : Prop
  | answered {bytes : Array UInt8} {after : Pager}
      (run : (Call.readUser pid va length).perform before = .ok (.bytes bytes) after)
      (sized : bytes.size = length)
  | lost {index : Nat} {middle broken after : Pager} {page : Page} (inside : index < length)
      (run : (Call.readUser pid va length).perform before =
        .error (.failed (.io (pageBase (va + index)))) after)
      (runs : Runs (Deed.Serves pid) before middle)
      (missed : Turn (.missed ⟨pid, pageBase (va + index)⟩) middle broken)
      (present : middle.pageOf ⟨pid, pageBase (va + index)⟩ = some page) (absent : page.frame = none)
      (cause : page.kind.IsUnreadable middle.files (broken.swap.transfersSince middle.swap) ∨
        ∃ waiting range, before.WaitsInVain ⟨pid, pageBase (va + index)⟩ waiting range)
      (ended : Ended pid broken after)
  | exhausted {halt : Halt} {after : Pager}
      (run : (Call.readUser pid va length).perform before = .error (.halted halt) after)
      (exhausted : after.Exhausted before.config.frameCount halt)

theorem readEnds_of_readable
    (ready : before.Ready) (tidy : before.Tidy) (words : va + length ≤ wordLimit)
    (readable : ∀ index < length, before.IsReadable pid (va + index)) : before.ReadEnds pid va length := by
  have ended : (Call.readUser pid va length).perform.Meets before
      ⟨fun answer _ => ∃ bytes : Array UInt8, answer = .bytes bytes ∧ bytes.size = length,
        fun error after => ∃ index < length, ∃ broken,
          before.Loses pid (va + index) error broken ∧ Killed pid error broken after,
        fun reason after => after.Exhausted before.config.frameCount reason⟩ := by
    rw [Call.perform, meets_bind]
    exact (ends_readUser ready words readable).mono (fun bytes _ sized => ⟨bytes, rfl, sized⟩)
      (fun _ _ => id) fun _ _ => id
  rcases ended.outcome with
    ⟨_, after, run, bytes, rfl, sized⟩ | ⟨error, after, run, index, inside, broken, loses, killed⟩ |
      ⟨halt, after, run, exhausted⟩
  · exact .answered run sized
  · obtain ⟨waiting, found⟩ := (readable index inside).present
    obtain ⟨middle, lost, runs, missed, presentThen, absent, cause⟩ := loses.cause ready.sound tidy found
    rw [loses.error] at run
    exact .lost inside run runs missed presentThen absent (cause.imp id fun vain => ⟨waiting, vain⟩)
      killed.toEnded
  · exact .exhausted run exhausted

end Pager

end DemandPaging
