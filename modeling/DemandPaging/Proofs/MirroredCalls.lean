import DemandPaging.Proofs.Mirroring

/-!
# Calls that mirror the memory of one process

The calls that are made for a process that uses no file answer and fail like the programs on its memory
alone, as long as the device does not fail for it. Where its pages are shows in no answer.
-/

namespace DemandPaging

namespace Pager

open PagerM

variable {α β : Type} {pid : Pid} {before after : Pager}

/-! ## Reading and writing -/

theorem seen_of_grants {va frame : Nat} {isWrite : Bool}
    (grants : before.ledger.Grants ⟨pid, pageBase va⟩ isWrite frame) :
    ∃ memory, before.userMemory pid = some memory := by
  obtain ⟨page, present, _⟩ := grants
  exact seen_of_page present

/-- A process sees what the frame of its page holds. -/
theorem content_of_plain
    {owner : Owner} {page : Page} {frame : Nat} (sound : before.ledger.Sound none)
    (plain : before.Plain owner.pid) (present : before.ledger.pages owner = some page)
    (resident : page.frame = some frame) :
    before.ledger.content owner = some (before.ledger.images frame) := by
  rw [sound.content_of_resident present resident, if_pos (plain owner.va page present).1]

/-- A chunk in its frame is a chunk of the memory that the process sees. -/
theorem load_of_seen
    {memory : UserMemory} {address frame : Nat} {isWrite : Bool} (sound : before.ledger.Sound none)
    (plain : before.Plain pid) (seen : before.userMemory pid = some memory)
    (grants : before.ledger.Grants ⟨pid, pageBase address⟩ isWrite frame) (count : Nat) :
    before.frames.load (frameBase frame + pageOffset address) count = memory.load address count := by
  have below := pageOffset_lt address
  obtain ⟨page, present, resident, _⟩ := grants
  rw [FramePool.load, frameBase_div below, frameBase_mod below, UserMemory.load,
    userPage_of_seen seen, userPage_of_present present, content_of_plain sound plain present resident]
  rfl

/-- What is stored in a frame is stored in the memory that the process sees. -/
theorem userMemory_store
    {memory : UserMemory} {address frame : Nat} (sound : before.ledger.Sound none)
    (plain : before.Plain pid) (seen : before.userMemory pid = some memory)
    (resolved : before.Resolved pid address true frame) (bytes : Array UInt8) :
    (before.modifyFrames fun frames =>
      frames.store (frameBase frame + pageOffset address) bytes).userMemory pid =
        some (memory.store address bytes) := by
  obtain ⟨_, same, turn, _, _, content⟩ := store_of_grants sound resolved bytes
  subst same
  obtain ⟨page, present, resident, _⟩ := resolved.grants
  have held := content_of_plain sound plain present resident
  rw [held, Option.map_some] at content
  obtain ⟨new, presentThen, continues⟩ := (turn.step sound).continues present nofun
  have here := userPage_of_present presentThen
  rw [content, continues.writable, Option.getD_some] at here
  have put := turn.userMemory_put sound plain seen (by rintro (⟨⟨⟩⟩ | ⟨⟨⟩⟩ | ⟨_, ⟨⟩⟩)) here
    fun other apart => ⟨by simp, by simp, by
      rintro (⟨⟨⟩⟩ | ⟨⟨⟩⟩)
      exact apart rfl⟩
  rw [put, UserMemory.store, userPage_of_seen seen, userPage_of_present present, held]
  rfl

theorem mirrors_readChunks
    (ready : before.Ready) (plain : before.Plain pid)
    (aligned : pageAligned before.config.kernelBase = true) (va length chunks done : Nat)
    (bytes : Array UInt8) :
    Mirrors pid (readChunks pid va length chunks done bytes) id
      (UserMemory.readChunks before.config.unlimited pid va length chunks done bytes) before := by
  induction chunks generalizing before done bytes with
  | zero => exact echoes_here rfl
  | succ chunks inductionHypothesis =>
      rw [readChunks, UserMemory.readChunks, chunkAddress, UserMemory.chunkAddress]
      cases checkedSum va done with
      | none => exact echoes_here rfl
      | some address =>
          obtain ⟨_, inPage⟩ := chunkLength_le address (length - done)
          simp only [pure_bind]
          generalize chunkLength address (length - done) = count at *
          refine (mirrors_physicalAddress ready plain aligned address false).bind
            (meets_physicalAddress ready pid address false) ?_
          rintro _ middle reaches ⟨frame, ⟨grants, _⟩, rfl⟩
          have middleReady := reaches.ready ready
          have sound := middleReady.sound
          have middlePlain := reaches.runs.plain ready.sound plain fun _ serves => serves.1.plainly
          have config := reaches.runs.config
          obtain ⟨memory, seen⟩ := seen_of_grants grants
          rw [Mirrors, meets_bind, meets_checkPhysical_of_grants sound grants inPage]
          dsimp only
          rw [meets_bind, meets_get, UserMemory.run_require, seen]
          dsimp only
          rw [load_of_seen sound middlePlain seen grants, ← seen, ← config]
          rw [← config] at aligned
          exact inductionHypothesis middleReady middlePlain aligned _ _

theorem mirrors_writeChunks
    (ready : before.Ready) (plain : before.Plain pid)
    (aligned : pageAligned before.config.kernelBase = true) (va : Nat) (bytes : Array UInt8)
    (chunks done : Nat) :
    Mirrors pid (writeChunks pid va bytes chunks done) id
      (UserMemory.writeChunks before.config.unlimited pid va bytes chunks done) before := by
  induction chunks generalizing before done with
  | zero => exact echoes_here rfl
  | succ chunks inductionHypothesis =>
      rw [writeChunks, UserMemory.writeChunks, chunkAddress, UserMemory.chunkAddress]
      cases checkedSum va done with
      | none => exact echoes_here rfl
      | some address =>
          obtain ⟨_, inPage⟩ := chunkLength_le address (bytes.size - done)
          simp only [pure_bind]
          generalize chunkLength address (bytes.size - done) = count at *
          refine (mirrors_physicalAddress ready plain aligned address true).bind
            (meets_physicalAddress ready pid address true) ?_
          rintro _ middle reaches ⟨frame, resolved, rfl⟩
          have middleReady := reaches.ready ready
          have sound := middleReady.sound
          have middlePlain := reaches.runs.plain ready.sound plain fun _ serves => serves.1.plainly
          have config := reaches.runs.config
          obtain ⟨memory, seen⟩ := seen_of_grants resolved.grants
          have put := userMemory_store sound middlePlain seen resolved
            (bytes.extract done (done + count))
          obtain ⟨_, same, turn, _⟩ :=
            store_of_grants sound resolved (bytes.extract done (done + count))
          subst same
          have stored : Reaches (Deed.Writes pid) middle _ := .turn turn sound rfl (by simp)
          rw [Mirrors, meets_bind, meets_checkPhysical_of_grants sound resolved.grants inPage]
          dsimp only
          rw [meets_bind, meets_modify, UserMemory.run_require, seen]
          dsimp only
          rw [UserM.run_bind, UserM.run_set, ← put, ← config]
          rw [← config] at aligned
          exact inductionHypothesis (stored.ready middleReady)
            (turn.plain sound middlePlain trivial) aligned _

/-! ## Processes -/

theorem mirrors_createProcess (pid : Pid) :
    Mirrors pid (createProcess pid) id (UserMemory.create before.config.unlimited pid) before := by
  rw [Mirrors, createProcess, meets_bind, meets_get, UserMemory.run_create]
  dsimp only
  split
  · rename_i taken
    have found : before.space? pid ≠ none := by simpa [space?] using taken
    obtain ⟨space, found⟩ := Option.ne_none_iff_exists'.mp found
    rw [userMemory_of_space found, meets_fail]
    exact echoes_here (by rw [userMemory_of_space found])
  · rename_i free
    have absent : before.space? pid = none := by simpa [space?] using free
    rw [userMemory_eq_none_iff.mpr absent, meets_set]
    refine ⟨[], rfl, Or.inr ?_⟩
    have blank (va : Nat) : userPage { before with
        spaces := before.spaces.insert pid (AddressSpace.empty before.config.stackTop) } ⟨pid, va⟩ =
          none := by
      apply userPage_of_vacant
      rw [ledger_createProcess before pid absent]
      exact pages_of_absent absent va
    rw [@userMemory_of_space _ pid (AddressSpace.empty before.config.stackTop) (by simp [space?])]
    simp only [blank]
    rfl

theorem mirrors_exitProcess (sound : before.ledger.Sound none) :
    Mirrors pid (exitProcess pid) id (UserMemory.exit pid) before := by
  refine (meets_exitProcess sound).mono ?_ ?_ fun _ _ _ => trivial
  · rintro _ after ⟨exits, found, gone, _⟩
    obtain ⟨later, noted⟩ := exits.runs.journal sound
    obtain ⟨space, found⟩ := Option.ne_none_iff_exists'.mp found
    exact ⟨later, noted, Or.inr (by
      rw [UserMemory.run_exit, userMemory_of_space found, userMemory_eq_none_iff.mpr gone])⟩
  · rintro error after ⟨_, _, rfl, absent, rfl⟩
    exact ⟨[], rfl, Or.inr (by rw [UserMemory.run_exit, userMemory_eq_none_iff.mpr absent])⟩

theorem mirrors_setStackPointer (pid : Pid) (address : Nat) :
    Mirrors pid (setStackPointer pid address) id (UserMemory.setStackPointer pid address) before := by
  rw [Mirrors, setStackPointer, meets_bind, meets_requireSpace, UserMemory.run_setStackPointer]
  cases found : before.space? pid with
  | none =>
      have gone := userMemory_eq_none_iff.mpr found
      rw [gone]
      exact echoes_here (by rw [gone])
  | some space =>
      have ledger : (before.modifySpace pid fun space =>
          { space with stackPointer := address }).ledger = before.ledger :=
        ledger_modifySpace_of_same before pid (fun _ => rfl) fun _ _ => rfl
      rw [userMemory_of_space found]
      dsimp only
      rw [meets_modify]
      refine ⟨[], rfl, Or.inr ?_⟩
      rw [@userMemory_of_space _ pid { space with stackPointer := address } (by
        rw [space?_modifySpace, if_pos rfl, found, Option.map_some])]
      simp only [userPage, ledger]

theorem mirrors_setupStack
    (ready : before.Ready) (plain : before.Plain pid) (has : before.config.HasStackPage) :
    Mirrors pid (setupStack pid) id (UserMemory.setupStack before.config.unlimited pid) before := by
  have sound := ready.sound
  have bottomAligned := pageAligned_stackBottom has
  have top : before.config.unlimited.stackTop = before.config.stackTop := rfl
  rw [Mirrors, setupStack, meets_bind, meets_get, UserMemory.setupStack, top]
  dsimp only
  rw [meets_bind, meets_stackBottom has]
  dsimp only
  generalize (before.config.stackTop + wordLimit - pageSize) % wordLimit = bottom at *
  refine (mirrors_reservePage sound plain bottomAligned rfl rfl).bind
    (meets_reservePage sound bottomAligned readLength_zero rfl rfl) ?_
  rintro _ middle reserves -
  have middleReady := reserves.ready ready
  have middlePlain := reserves.runs.plain sound plain fun _ reserves => reserves.plainly rfl
  have pointed (after : Pager) := @mirrors_setStackPointer after pid before.config.stackTop
  exact (mirrors_claim middleReady middlePlain bottom).bind (serves_claim middleReady pid bottom)
    fun _ after _ _ => pointed after

/-! ## The end of a process -/

/-- A process ends by a fatal error. -/
theorem mirrors_killOnFatal
    {program : PagerM α} {machine : UserM α} {allowed : Deed → Prop}
    {answers : α → Pager → Prop} {fails : PagingError → Pager → Prop} (ready : before.Ready)
    (meets : program.Meets before (Proceeds allowed before answers fails))
    (mirrors : Mirrors pid program id machine before) :
    Mirrors pid (killOnFatal pid program) id (UserM.killOnFatal machine) before := by
  rw [Mirrors, killOnFatal, meets_bind, meets_attempt]
  refine (meets.and mirrors).mono ?_ ?_ fun _ _ _ => trivial
  · rintro answer middle ⟨_, later, noted, same⟩
    exact ⟨later, noted, same.imp_right fun same => by rw [UserM.killOnFatal, same]⟩
  · rintro error middle ⟨⟨reaches, _, _⟩, later, noted, same⟩
    have middleSound := reaches.runs.sound ready.sound
    have present : middle.spaces.contains pid = (middle.space? pid).isSome := by
      rw [space?, Std.ExtTreeMap.isSome_getElem?_eq_contains]
    simp only [meets_bind, meets_get, present]
    -- Either the process is ended now, or it had no memory to lose.
    split
    · rename_i ends
      obtain ⟨fatal, alive⟩ := Bool.and_eq_true_iff.mp ends
      rw [meets_bind]
      refine (meets_exitProcess middleSound).mono ?_ ?_ fun _ _ _ => trivial
      · rintro _ after ⟨exits, _, gone, _⟩
        obtain ⟨last, notedLast⟩ := exits.runs.journal middleSound
        refine ⟨last ++ later, by rw [notedLast, noted, List.append_assoc], ?_⟩
        rcases same with missed | same
        · exact Or.inl (missed.mono (List.subset_append_right last later))
        · have ended := userMemory_eq_none_iff.mpr gone
          exact Or.inr (by rw [UserM.killOnFatal, same, ended]; simp only [fatal, if_true])
      · rintro _ after ⟨_, _, _, gone, _⟩
        rw [gone] at alive
        cases alive
    · rename_i spared
      refine ⟨later, noted, same.imp_right fun same => ?_⟩
      rw [UserM.killOnFatal, same]
      dsimp only
      split
      · rename_i fatal
        rw [fatal, Bool.true_and, Option.isSome_iff_ne_none, not_not, ← userMemory_eq_none_iff] at spared
        rw [spared]
      · rfl

/-! ## Calls -/

theorem mirrors_allocateLazily
    (sound : before.ledger.Sound none) (plain : before.Plain pid) (va : Nat) (writable : Bool) :
    Mirrors pid (allocateLazily pid va writable .zero) id
      (UserMemory.reserve before.config.unlimited pid (pageBase va) writable) before :=
  mirrors_reservePage sound plain (pageAligned_pageBase va) rfl rfl

/-- A process is looked at as it sees itself. -/
theorem mirrors_look
    {look : AddressSpace → Answer} {lookUser : UserMemory → Answer}
    (same : ∀ space memory, before.space? pid = some space →
      before.userMemory pid = some memory → look space = lookUser memory) :
    Mirrors pid (requireSpace pid >>= fun space => pure (look space)) id
      (UserMemory.require pid >>= fun memory => pure (lookUser memory)) before := by
  rw [Mirrors, meets_bind, meets_requireSpace, UserMemory.run_require]
  cases found : before.space? pid with
  | none =>
      have gone := userMemory_eq_none_iff.mpr found
      rw [gone]
      exact echoes_here (by rw [gone])
  | some space =>
      have seen := userMemory_of_space found
      rw [seen]
      dsimp only
      rw [meets_pure, same space _ found seen, ← seen]
      exact echoes_here rfl

-- The bottom of the stack is a number that unification must not compute.
attribute [local irreducible] setupStack UserMemory.setupStack

/-- A call that is made for a process that uses no file answers and fails as it does for the memory that the
process sees. -/
theorem mirrors_perform
    (ready : before.Ready) (plain : before.Plain pid)
    (aligned : pageAligned before.config.kernelBase = true) {call : Call}
    (isFor : call.isFor pid = true) (unforked : call.isFork = false)
    (anonymous : call.isAnonymous pid = true) (admissible : call.IsAdmissible before.config) :
    Mirrors pid call.perform id (UserMemory.perform before.config.unlimited call) before := by
  have sound := ready.sound
  cases call with
  | createProcess other =>
      cases eq_of_beq isFor
      exact (mirrors_createProcess pid).andAnswer _
  | exitProcess other =>
      cases eq_of_beq isFor
      exact (mirrors_exitProcess sound).andAnswer _
  | fork parent child => cases unforked
  | allocate other type va writable =>
      cases eq_of_beq isFor
      cases type with
      | anonymous => exact (mirrors_allocateLazily sound plain va writable).andAnswer _
      | file => exact echoes_here rfl
  | allocateLazily other va writable load =>
      cases eq_of_beq isFor
      rw [Call.isAnonymous, bne_self_eq_false, Bool.false_or] at anonymous
      rw [eq_of_beq anonymous]
      exact (mirrors_allocateLazily sound plain va writable).andAnswer _
  | loadSegment other | map other | unmap other =>
      exact absurd (eq_of_beq isFor) (bne_iff_ne.mp anonymous)
  | setupStack other =>
      cases eq_of_beq isFor
      exact (mirrors_setupStack ready plain admissible).andAnswer _
  | setStackPointer other address =>
      cases eq_of_beq isFor
      exact (mirrors_setStackPointer pid address).andAnswer _
  | stackPointer other =>
      cases eq_of_beq isFor
      apply mirrors_look
      intro space memory found seen
      rw [userMemory_of_space found] at seen
      cases seen
      rfl
  | claim other va =>
      cases eq_of_beq isFor
      exact (mirrors_claim ready plain va).andAnswer _
  | handlePageFault other fault =>
      cases eq_of_beq isFor
      exact (mirrors_killOnFatal ready (meets_resolveFault ready pid fault)
        (mirrors_resolveFault ready plain fault)).andAnswer _
  | readUser other va length =>
      cases eq_of_beq isFor
      exact (mirrors_killOnFatal ready (meets_readChunks ready (Nat.zero_le length) rfl rfl)
        (mirrors_readChunks ready plain aligned va length _ 0 #[])).andAnswer _
  | writeUser other va bytes =>
      cases eq_of_beq isFor
      exact (mirrors_killOnFatal ready (meets_writeChunks ready (Nat.zero_le bytes.size) rfl)
        (mirrors_writeChunks ready plain aligned va bytes _ 0)).andAnswer _
  | pageType other va =>
      cases eq_of_beq isFor
      apply mirrors_look
      intro space memory found seen
      rw [page?_of_space found, userPage_of_seen seen, userPage, Option.map_map]
      congr 1
      cases present : before.ledger.pages ⟨pid, pageBase va⟩ with
      | none => rfl
      | some page => exact congrArg some (plain _ page present).1
  | isResident | stats | config => cases isFor

end Pager

end DemandPaging
