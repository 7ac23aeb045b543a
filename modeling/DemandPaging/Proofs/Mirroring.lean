import DemandPaging.Proofs.Views

/-!
# Programs that mirror the memory of one process

A program that runs for a process answers and fails like the program on the memory of the process alone, and
leaves the memory that this leaves, wherever the pages are; unless the device failed for one of them.
-/

namespace DemandPaging

/-- Whether a transfer of a page of a process between its frame and its slot failed, as was noted. -/
def Activity.misses (pid : Pid) : Activity → Bool
  | .swapped owner _ _ _ transfers =>
      owner.pid == pid && transfers.any fun transfer => !transfer.succeeded
  | _ => false

/-- Whether the device failed for a page of a process. -/
def Missed (pid : Pid) (journal : List Activity) : Prop :=
  ∃ activity ∈ journal, activity.misses pid = true

instance (pid : Pid) (journal : List Activity) : Decidable (Missed pid journal) :=
  inferInstanceAs (Decidable (∃ activity ∈ journal, activity.misses pid = true))

theorem Missed.mono {pid : Pid} {journal longer : List Activity} (missed : Missed pid journal)
    (within : journal ⊆ longer) : Missed pid longer := by
  obtain ⟨activity, member, misses⟩ := missed
  exact ⟨activity, within member, misses⟩

namespace Pager

open PagerM

variable {α β γ δ : Type} {pid : Pid} {before middle after : Pager} {allowed : Deed → Prop}

/-- What a program on the memory of a process came to is what became of the process, unless the device
failed for it. -/
def Echoes (pid : Pid) (before after : Pager)
    (came : EStateM.Result PagingError (Option UserMemory) β)
    (became : Option UserMemory → EStateM.Result PagingError (Option UserMemory) β) : Prop :=
  ∃ later, after.journal = later ++ before.journal ∧
    (Missed pid later ∨ came = became (after.userMemory pid))

/-- A program does for a process what another does on its memory alone. -/
def Mirrors (pid : Pid) (program : PagerM α) (view : α → β) (machine : UserM β) (before : Pager) :
    Prop :=
  program.Meets before
    ⟨fun answer after =>
      Echoes pid before after (machine (before.userMemory pid)) (.ok (view answer)),
      fun error after => Echoes pid before after (machine (before.userMemory pid)) (.error error),
      fun _ _ => True⟩

/-! ## Putting programs together -/

theorem echoes_here
    {came : EStateM.Result PagingError (Option UserMemory) β}
    {became : Option UserMemory → EStateM.Result PagingError (Option UserMemory) β}
    (same : came = became (before.userMemory pid)) : Echoes pid before before came became :=
  ⟨[], rfl, Or.inr same⟩

/-- What is echoed by a part is echoed by the whole. -/
theorem Echoes.rebase
    {came earlier : EStateM.Result PagingError (Option UserMemory) β}
    {became : Option UserMemory → EStateM.Result PagingError (Option UserMemory) β}
    (echoes : Echoes pid middle after came became) {first : List Activity}
    (noted : middle.journal = first ++ before.journal)
    (same : Missed pid first ∨ earlier = came) : Echoes pid before after earlier became := by
  obtain ⟨later, notedThen, missed | echoed⟩ := echoes
  · refine ⟨later ++ first, by rw [notedThen, noted, List.append_assoc], Or.inl ?_⟩
    exact missed.mono (List.subset_append_left later first)
  · refine ⟨later ++ first, by rw [notedThen, noted, List.append_assoc], ?_⟩
    rcases same with missed | same
    · exact Or.inl (missed.mono (List.subset_append_right later first))
    · exact Or.inr (same.trans echoed)

/-- A program that goes on from a state mirrors what is left to do there. -/
theorem Mirrors.rebase
    {program : PagerM α} {view : α → β} {machine earlier : UserM β}
    (mirrors : Mirrors pid program view machine middle) {first : List Activity}
    (noted : middle.journal = first ++ before.journal)
    (same : Missed pid first ∨
      earlier (before.userMemory pid) = machine (middle.userMemory pid)) :
    program.Meets middle
      ⟨fun answer after =>
        Echoes pid before after (earlier (before.userMemory pid)) (.ok (view answer)),
        fun error after => Echoes pid before after (earlier (before.userMemory pid)) (.error error),
        fun _ _ => True⟩ :=
  mirrors.mono (fun _ _ echoes => echoes.rebase noted same)
    (fun _ _ echoes => echoes.rebase noted same) fun _ _ => id

theorem Mirrors.bind
    {program : PagerM α} {next : α → PagerM γ} {view : α → β} {viewNext : γ → δ} {machine : UserM β}
    {machineNext : β → UserM δ} {answers : α → Pager → Prop} {fails : PagingError → Pager → Prop}
    (mirrors : Mirrors pid program view machine before)
    (meets : program.Meets before (Proceeds allowed before answers fails))
    (rest : ∀ answer middle, Reaches allowed before middle → answers answer middle →
      Mirrors pid (next answer) viewNext (machineNext (view answer)) middle) :
    Mirrors pid (program >>= next) viewNext (machine >>= machineNext) before := by
  rw [Mirrors, meets_bind]
  refine (meets.and mirrors).mono ?_ ?_ fun _ _ _ => trivial
  · rintro answer middle ⟨⟨reaches, holds⟩, first, noted, same⟩
    apply (rest answer middle reaches holds).rebase noted
    rcases same with missed | same
    · exact Or.inl missed
    · exact Or.inr (by rw [UserM.run_bind, same])
  · rintro error after ⟨_, later, noted, same⟩
    refine ⟨later, noted, ?_⟩
    rcases same with missed | same
    · exact Or.inl missed
    · exact Or.inr (by rw [UserM.run_bind, same])

/-- An answer may be put to what was brought. -/
theorem Mirrors.andAnswer
    {program : PagerM α} {machine : UserM α} (mirrors : Mirrors pid program id machine before)
    (answer : α → β) :
    Mirrors pid (program >>= fun result => pure (answer result)) id
      (machine >>= fun result => pure (answer result)) before := by
  rw [Mirrors, meets_bind]
  refine mirrors.mono ?_ ?_ fun _ _ => id
  · rintro result after ⟨later, noted, same⟩
    exact ⟨later, noted, same.imp_right fun same => by rw [UserM.run_bind, same]; rfl⟩
  · rintro error after ⟨later, noted, same⟩
    exact ⟨later, noted, same.imp_right fun same => by rw [UserM.run_bind, same]⟩

/-! ## Failures of the device -/

/-- If a page without a file is not fetched, it was in a slot, and a read of the slot failed. -/
theorem fetch_incomplete_of_plain
    {page : Page} {swap : SwapSpace} {files : FileTable} {image : Image} (plain : page.IsPlain)
    (incomplete : (page.kind.fetch swap files image).kind = none) :
    ∃ slot, page.kind = .anonymous (some slot) ∧
      ∃ transfer ∈ (page.kind.fetch swap files image).swap.transfersSince swap,
        transfer.succeeded = false := by
  obtain ⟨anonymous, pending⟩ := plain
  rw [Page.type] at anonymous
  generalize page.kind = kind at *
  rcases kind with load | slot | range
  · cases pending load rfl
    cases incomplete
  · cases slot with
    | none => cases incomplete
    | some slot =>
        refine ⟨slot, rfl, ?_⟩
        unfold PageKind.fetch at incomplete ⊢
        dsimp only at incomplete ⊢
        split at incomplete
        · cases incomplete
        · rename_i after content fetched
          have failed : (swap.fetch slot image).2.2 = false := by rw [fetched]
          have noted := SwapSpace.fetch_incomplete failed
          rw [fetched] at noted
          exact noted
  · cases anonymous

/-- If a page without a file goes without its frame, the device failed for it. -/
theorem Returns.missed
    {held : Pager} {owner : Owner} {frame : Nat} {page : Page} (returns : held.Returns owner frame after)
    (present : held.ledger.pages owner = some page) (plain : page.IsPlain) :
    ∃ later, after.journal = later ++ held.journal ∧ Missed owner.pid later := by
  cases returns with
  | @intro space pageThen table fetched found presentThen absent installed fetch incomplete =>
      cases present.symm.trans presentThen
      subst fetch
      obtain ⟨slot, kind, transfer, member, failed⟩ := fetch_incomplete_of_plain plain incomplete
      rw [kind] at incomplete member ⊢
      refine ⟨_, (held.attached owner frame table).journal_putFetched_of_slot owner slot frame _, _,
        List.mem_cons_of_mem _ List.mem_cons_self, ?_⟩
      rw [Activity.misses, beq_self_eq_true, Bool.true_and, List.any_eq_true]
      exact ⟨transfer, member, by rw [failed]; rfl⟩

/-- If a page without a file could not be fetched, the device failed for it. -/
theorem Turn.missed_of_plain
    {owner : Owner} (turn : Turn (.missed owner) before after) (sound : before.ledger.Sound none)
    (plain : before.Plain owner.pid) :
    ∃ later, after.journal = later ++ before.journal ∧ Missed owner.pid later := by
  cases turn with
  | missed present absent acquires returns =>
      obtain ⟨earlier, _, acquired⟩ := acquires.journal
      obtain ⟨_, presentThen⟩ := (acquires.moves sound).sound sound present absent
      obtain ⟨later, noted, missed⟩ := returns.missed presentThen (plain owner.va _ present)
      refine ⟨later ++ earlier, ?_, missed.mono (List.subset_append_left later earlier)⟩
      rw [noted, acquired, List.append_assoc]

/-! ## Pages -/

/-- A process sees the page of zeros that is reserved for it. -/
theorem userMemory_reserved
    {space : AddressSpace} {page : Page} (sound : before.ledger.Sound none) (plain : before.Plain pid)
    (found : before.space? pid = some space) (vacant : before.ledger.pages ⟨pid, page.va⟩ = none)
    (placed : page.WellPlaced ⟨pid, page.va⟩ before.config.kernelBase)
    (zero : page.kind = .pending .zero) (absent : page.frame = none) :
    (before.modifySpace pid fun space =>
        { space with pages := space.pages.insert page.va page }).userMemory pid =
      some (UserMemory.put ⟨space.stackPointer, fun va => before.userPage ⟨pid, va⟩⟩ page.va
        ⟨page.writable, Image.zero⟩) := by
  have turn := Turn.reserved found vacant placed zero absent
  have present : (before.modifySpace pid fun space =>
      { space with pages := space.pages.insert page.va page }).ledger.pages ⟨pid, page.va⟩ =
        some page := by
    rw [before.ledger_insertPage pid found page]
    exact Function.update_self ..
  have here := userPage_of_present present
  rw [Ledger.content_of_page present, Ledger.pageContent_of_pending zero, Option.getD_none] at here
  exact turn.userMemory_put sound plain (userMemory_of_space found)
    (by rintro (⟨⟨⟩⟩ | ⟨⟨⟩⟩ | ⟨_, ⟨⟩⟩)) here fun other apart =>
      ⟨by simpa using fun same => absurd same.symm apart, by simp, by rintro (⟨⟨⟩⟩ | ⟨⟨⟩⟩)⟩

/-- A page of zeros is reserved. -/
theorem mirrors_reservePage
    {page : Page} (sound : before.ledger.Sound none) (plain : before.Plain pid)
    (aligned : pageAligned page.va = true) (zero : page.kind = .pending .zero)
    (absent : page.frame = none) :
    Mirrors pid (reservePage pid page) id
      (UserMemory.reserve before.config.unlimited pid page.va page.writable) before := by
  have fits : page.kind.readLength ≤ pageSize := by
    rw [zero]
    exact readLength_zero
  have unhandled (pager : Pager) : pager.closeHandle page = pager := by
    rw [closeHandle, zero]
    rfl
  have bounds : before.config.unlimited.kernelBase = before.config.kernelBase := rfl
  rw [Mirrors, reservePage, meets_insist_bind aligned, meets_insist_bind (decide_eq_true fits),
    meets_bind, meets_attempt]
  simp only [insertPage, meets_bind, meets_checkUserAddress, meets_modify, meets_fail, meets_pure,
    unhandled, UserMemory.run_reserve, bounds]
  split
  · exact echoes_here rfl
  · rename_i nonnull
    split
    · exact echoes_here rfl
    · rename_i user
      rw [meets_requireSpace]
      cases found : before.space? pid with
      | none =>
          rw [userMemory_eq_none_iff.mpr found]
          exact echoes_here (by rw [userMemory_eq_none_iff.mpr found])
      | some space =>
          have seen := userMemory_of_space found
          have same := pages_of_space found page.va
          simp only [seen]
          split
          · rename_i occupied
            obtain ⟨old, present⟩ : ∃ old, before.ledger.pages ⟨pid, page.va⟩ = some old := by
              rw [← same, ← Option.isSome_iff_exists]
              simpa using occupied
            simp only [userPage_of_present present]
            exact echoes_here (by rw [seen])
          · rename_i free
            have vacant : before.ledger.pages ⟨pid, page.va⟩ = none := by
              rw [← same]
              simpa using free
            have placed : page.WellPlaced ⟨pid, page.va⟩ before.config.kernelBase :=
              ⟨rfl, pageBase_of_pageAligned aligned, nonnull, Nat.not_le.mp user, fits⟩
            have put := userMemory_reserved sound plain found vacant placed zero absent
            simp only [userPage_of_vacant vacant]
            exact ⟨[], rfl, Or.inr (by rw [put])⟩

/-- A claim shows the process nothing. -/
theorem mirrors_claim (ready : before.Ready) (plain : before.Plain pid) (address : Nat) :
    Mirrors pid (claim pid address) id (UserMemory.claim pid address) before := by
  have sound := ready.sound
  refine (meets_claim ready pid address).mono ?_ ?_ fun _ _ _ => trivial
  · rintro _ after ⟨reaches, page, frame, present, _⟩
    obtain ⟨later, noted⟩ := reaches.runs.journal sound
    obtain ⟨old, presentOld, _⟩ := reaches.runs.continued sound present fun _ => id
    obtain ⟨space, found⟩ := space?_of_page presentOld
    have same := reaches.runs.userMemory sound plain fun deed claims => by
      cases deed <;> first | exact trivial | exact absurd claims id
    refine ⟨later, noted, Or.inr ?_⟩
    rw [same, UserMemory.run_claim, userMemory_of_space found]
    simp only [userPage_of_present presentOld]
  · rintro error after ⟨_, _, fails⟩
    cases fails with
    | absent gone =>
        apply echoes_here
        rw [UserMemory.run_claim, userMemory_eq_none_iff.mpr gone]
    | vacant found vacant =>
        apply echoes_here
        rw [UserMemory.run_claim, userMemory_of_space found]
        simp only [userPage_of_vacant vacant]
    | missed missed =>
        obtain ⟨later, noted, missed⟩ := missed.missed_of_plain sound plain
        exact ⟨later, noted, Or.inl missed⟩

/-! ## Faults -/

/-- A page is reserved and gets a frame. -/
theorem mirrors_reservePage_claim
    {page : Page} (ready : before.Ready) (plain : before.Plain pid) {address : Nat}
    (va : page.va = pageBase address) (zero : page.kind = .pending .zero)
    (absent : page.frame = none) :
    Mirrors pid (reservePage pid page >>= fun _ => claim pid address) id
      (UserMemory.reserve before.config.unlimited pid (pageBase address) page.writable) before := by
  have aligned : pageAligned page.va = true := by
    rw [va]
    exact pageAligned_pageBase address
  have fits : page.kind.readLength ≤ pageSize := by
    rw [zero]
    exact readLength_zero
  have sound := ready.sound
  have claims (middle : Pager) (reaches : Reaches (Deed.Reserves ⟨pid, page.va⟩ page) before middle) :
      Mirrors pid (claim pid address) id (UserMemory.claim pid address) middle :=
    mirrors_claim (reaches.ready ready)
      (reaches.runs.plain sound plain fun _ reserves => reserves.plainly zero) address
  have mirrors : Mirrors pid (reservePage pid page >>= fun _ => claim pid address) id
      (UserMemory.reserve before.config.unlimited pid page.va page.writable >>= fun _ =>
        UserMemory.claim pid address) before :=
    (mirrors_reservePage sound plain aligned zero absent).bind
      (meets_reservePage sound aligned fits zero absent) fun _ middle reaches _ => claims middle reaches
  rw [va] at mirrors
  rw [Mirrors, ← UserMemory.run_reserve_claim]
  exact mirrors

/-- A fault is resolved as the process sees it. -/
theorem mirrors_resolveFault (ready : before.Ready) (plain : before.Plain pid) (fault : PageFault) :
    Mirrors pid (resolveFault pid fault) id
      (UserMemory.resolve before.config.unlimited pid fault) before := by
  rw [Mirrors, resolveFault, meets_bind, meets_modify]
  have counted : Reaches (Deed.Faults pid) before (before.modifyCounters fun counters =>
      { counters with pageFaults := counters.pageFaults + 1 }) :=
    .turn (.counted before _) ready.sound trivial (by simp)
  -- Counting the fault shows the process nothing, so the rest is compared from the counted state on.
  refine Mirrors.rebase ?_ (List.nil_append before.journal).symm
    (Or.inr (Eq.refl (UserMemory.resolve before.config.unlimited pid fault (before.userMemory pid))))
  have ready := counted.ready ready
  have plain : (before.modifyCounters fun counters =>
    { counters with pageFaults := counters.pageFaults + 1 }).Plain pid := plain
  have bounds : before.config = (before.modifyCounters fun counters =>
    { counters with pageFaults := counters.pageFaults + 1 }).config := rfl
  rw [bounds]
  generalize before.modifyCounters _ = middle at *
  have kernelBase : middle.config.unlimited.kernelBase = middle.config.kernelBase := rfl
  have isStackAccess :
    middle.config.unlimited.isStackAccess fault = middle.config.isStackAccess fault := rfl
  rw [Mirrors, meets_bind, meets_checkUserAddress, UserMemory.run_resolve, kernelBase, isStackAccess]
  dsimp only
  split
  · exact echoes_here rfl
  · split
    · exact echoes_here rfl
    · rw [meets_bind, meets_requireSpace]
      cases found : middle.space? pid with
      | none =>
          have gone := userMemory_eq_none_iff.mpr found
          simp only [gone]
          exact echoes_here (by rw [gone])
      | some space =>
          have seen := userMemory_of_space found
          have same := page?_of_space found fault.address
          simp only [seen]
          cases present : space.page? fault.address with
          | some page =>
              rw [present] at same
              simp only [userPage_of_present same.symm]
              split
              · exact echoes_here (by rw [seen])
              · rw [← seen]
                split
                · exact echoes_here rfl
                · have claims := mirrors_claim ready plain fault.address
                  rw [Mirrors, UserMemory.run_claim, seen] at claims
                  simp only [userPage_of_present same.symm, ← seen] at claims
                  exact claims
          | none =>
              rw [present] at same
              simp only [userPage_of_vacant same.symm]
              rw [meets_bind, meets_get, ← seen]
              dsimp only
              split
              · exact mirrors_reservePage_claim ready plain rfl rfl rfl
              · exact echoes_here rfl

/-! ## Accesses -/

theorem userPage_of_seen {memory : UserMemory} (seen : before.userMemory pid = some memory) (va : Nat) :
    memory.pages va = before.userPage ⟨pid, va⟩ := by
  obtain ⟨layout, _, rfl⟩ := Option.map_eq_some_iff.mp seen
  rfl

theorem seen_of_page {va : Nat} {page : Page} (present : before.ledger.pages ⟨pid, va⟩ = some page) :
    ∃ memory, before.userMemory pid = some memory := by
  obtain ⟨space, found⟩ := space?_of_page present
  exact ⟨_, userMemory_of_space found⟩

theorem userMemory_touched (pid other : Pid) (va : Nat) (isWrite : Bool) :
    (before.touched other va isWrite).userMemory pid = before.userMemory pid := by
  simp only [userMemory, userPage, ledger_touched]
  rw [touched, layout?_modifyTable]

/-- The last page of user memory is a whole one. -/
theorem lt_of_pageBase_lt {va kernelBase : Nat} (aligned : pageAligned kernelBase = true)
    (below : pageBase va < kernelBase) : va < kernelBase := by
  have base := pageBase_of_pageAligned aligned
  simp only [pageBase, pageSize] at base below
  omega

/-- A page that may be accessed in its frame may be accessed by its process. -/
theorem access_of_grants
    {va frame : Nat} {isWrite : Bool} (sound : before.ledger.Sound none)
    (aligned : pageAligned before.config.kernelBase = true)
    (grants : before.ledger.Grants ⟨pid, pageBase va⟩ isWrite frame) :
    UserMemory.access before.config.unlimited pid va isWrite (before.userMemory pid) =
      .ok ⟨⟩ (before.userMemory pid) := by
  obtain ⟨page, present, _, allowed⟩ := grants
  obtain ⟨memory, seen⟩ := seen_of_page present
  have placed := sound.placed _ page present
  have nonnull : va ≠ 0 := by
    rintro rfl
    exact placed.nonnull (Nat.zero_mul pageSize)
  have user : ¬ before.config.unlimited.kernelBase ≤ va :=
    Nat.not_le.mpr (lt_of_pageBase_lt aligned placed.user)
  have writable : ¬ (isWrite && !page.writable) = true := by simpa using allowed
  rw [seen, UserMemory.run_access]
  dsimp only
  rw [UserMemory.run_resolve, if_neg nonnull, if_neg user]
  dsimp only
  rw [userPage_of_seen seen, userPage_of_present present]
  dsimp only
  rw [if_neg writable]

/-- A page that may be accessed is found, which its process does not see. -/
theorem mirrors_lookUp
    {va frame : Nat} {isWrite : Bool} (sound : before.ledger.Sound none)
    (grants : before.ledger.Grants ⟨pid, pageBase va⟩ isWrite frame) (otherwise : PagerM Nat) :
    Mirrors pid
      (lookUp pid va isWrite >>= fun
        | some address => pure address
        | none => otherwise)
      (fun _ => ()) (pure ()) before := by
  rw [Mirrors, meets_bind]
  refine (meets_lookUp sound before.config pid va isWrite).mono ?_ ?_ fun _ _ _ => trivial
  · rintro (_ | address) after ⟨_, found⟩
    · exact absurd grants (found.2 frame)
    · obtain ⟨rfl, _⟩ := found
      exact ⟨[], rfl, Or.inr (by rw [userMemory_touched]; rfl)⟩
  · rintro error after ⟨_, _, _, _, gone⟩
    obtain ⟨page, present, _⟩ := grants
    rw [pages_of_absent gone] at present
    cases present

/-- An address is resolved as the process sees it. -/
theorem mirrors_physicalAddress
    (ready : before.Ready) (plain : before.Plain pid)
    (aligned : pageAligned before.config.kernelBase = true) (va : Nat) (isWrite : Bool) :
    Mirrors pid (physicalAddress pid va isWrite) (fun _ => ())
      (UserMemory.access before.config.unlimited pid va isWrite) before := by
  have sound := ready.sound
  -- The page table of a resident page checks no address: that is done with when the page is reserved, and
  -- a page does not reach into the kernel if that starts with a page.
  by_cases granted : ∃ frame, before.ledger.Grants ⟨pid, pageBase va⟩ isWrite frame
  · obtain ⟨frame, grants⟩ := granted
    rw [Mirrors, physicalAddress_eq, access_of_grants sound aligned grants]
    exact mirrors_lookUp sound grants _
  · rw [Mirrors, physicalAddress_eq, meets_bind]
    refine (meets_lookUp sound before.config pid va isWrite).mono ?_ ?_ fun _ _ _ => trivial
    · rintro (_ | address) now ⟨_, found⟩
      · obtain ⟨rfl, _⟩ := found
        dsimp only
        rw [meets_bind, meets_requireSpace, UserMemory.run_access]
        cases found : now.space? pid with
        | none =>
            have gone := userMemory_eq_none_iff.mpr found
            rw [gone]
            exact echoes_here (by rw [gone])
        | some space =>
            have resolves (otherwise : PagerM Nat) (isPresent : Bool) :
                Mirrors pid
                  (resolveFault pid ⟨va, isWrite, isPresent, space.stackPointer⟩ >>= fun _ =>
                    lookUp pid va isWrite >>= fun
                      | some address => pure address
                      | none => otherwise)
                  (fun _ => ())
                  (UserMemory.resolve now.config.unlimited pid
                    ⟨va, isWrite, isPresent, space.stackPointer⟩ >>= fun _ => pure ()) now :=
              (mirrors_resolveFault ready plain _).bind (meets_resolveFault ready pid _)
                fun _ middle reaches ⟨frame, grants⟩ =>
                  mirrors_lookUp (reaches.ready ready).sound grants otherwise
            have resolved := resolves (PagerM.fail (.mappingFailed va)) (space.table.resolve? va).isSome
            rw [bind_pure_unit] at resolved
            rw [userMemory_of_space found]
            dsimp only
            rw [← userMemory_of_space found]
            exact resolved
      · obtain ⟨rfl, frame, resolved, _⟩ := found
        refine absurd ⟨frame, ?_⟩ granted
        rw [← before.ledger_touched]
        exact resolved.grants
    · rintro error after ⟨_, _, rfl, rfl, gone⟩
      have gone := userMemory_eq_none_iff.mpr gone
      exact echoes_here (by rw [UserMemory.run_access, gone])

end Pager

end DemandPaging
