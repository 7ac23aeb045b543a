import DemandPaging.Pager.Access
import DemandPaging.Proofs.Reserving

/-!
# Page faults and translations

A page fault that is resolved leaves the page resident and allows the access, so the translation that is
tried again afterwards succeeds.
-/

namespace DemandPaging

namespace Ledger

variable {ledger : Ledger} {owner : Owner} {frame : Nat} {isWrite : Bool}

/-- A page may be accessed in its frame. -/
def Grants (ledger : Ledger) (owner : Owner) (isWrite : Bool) (frame : Nat) : Prop :=
  ∃ page, ledger.pages owner = some page ∧ page.frame = some frame ∧
    (isWrite = true → page.writable = true)

/-- A page may be accessed in its frame if and only if its translation allows the access. -/
theorem Sound.grants_iff (sound : ledger.Sound none) :
    ledger.Grants owner isWrite frame ↔
      ∃ translation, ledger.translations owner = some translation ∧
        translation.base = frameBase frame ∧
          (isWrite = true → translation.writable = true) := by
  constructor
  · rintro ⟨page, present, resident, allowed⟩
    exact ⟨_, sound.frames.translation_of_page owner page frame present resident, rfl, allowed⟩
  · rintro ⟨translation, translated, base, allowed⟩
    obtain ⟨page, other, present, resident⟩ :=
      sound.frames.page_of_translation owner translation translated
    have same := sound.frames.translation_of_page owner page other present resident
    rw [translated] at same
    cases same
    have sameFrame : other = frame := Nat.eq_of_mul_eq_mul_right (by decide) base
    rw [sameFrame] at resident
    exact ⟨page, present, resident, allowed⟩

end Ledger

/-- A push is made to a page that the stack may reach. -/
theorem Config.stackReaches_of_isStackAccess
    {config : Config} {fault : PageFault} (pushes : config.isStackAccess fault = true) :
    config.StackReaches (pageBase fault.address) := by
  simp only [isStackAccess, Bool.and_eq_true, decide_eq_true_eq] at pushes
  obtain ⟨⟨below, above⟩, _⟩ := pushes
  refine ⟨pageBase_idem _, ?_, ?_⟩ <;> simp only [pageBase, pageSize] <;> omega

namespace Pager

open PagerM

variable {before : Pager} {pid : Pid}

/-! ## Faults -/

/-- Claiming a page leaves its permission as it is. -/
theorem grants_claim
    (ready : before.Ready) (config : Config) {address : Nat} {page : Page} {isWrite : Bool}
    (present : before.ledger.pages ⟨pid, pageBase address⟩ = some page)
    (allowed : isWrite = true → page.writable = true) :
    (claim pid address).Meets before
      (Proceeds (fun deed => deed.Serves pid ∧ deed.Extends config) before
        (fun _ after => ∃ frame, after.ledger.Grants ⟨pid, pageBase address⟩ isWrite frame)
        fun error after => after.Bars pid error) := by
  apply (meets_claim ready pid address).weaken fun _ claims => ⟨claims.serves, claims.extends config⟩
  · rintro _ after reaches ⟨new, frame, presentThen, resident⟩
    obtain ⟨same, presentNow, continues⟩ := reaches.runs.continues ready.sound present fun _ _ => id
    rw [presentThen] at presentNow
    cases presentNow
    refine ⟨frame, new, presentThen, resident, fun write => ?_⟩
    rw [continues.writable]
    exact allowed write
  · exact fun _ _ _ fails => fails.bars

/-- A page of the stack may be accessed in every way. -/
theorem grants_growStack
    (ready : before.Ready) {config : Config} (pid : Pid) {address : Nat} (isWrite : Bool)
    (vacant : before.ledger.pages ⟨pid, pageBase address⟩ = none)
    (reached : config.StackReaches (pageBase address)) :
    (growStack pid address >>= fun _ => claim pid address).Meets before
      (Proceeds (fun deed => deed.Serves pid ∧ deed.Extends config) before
        (fun _ after => ∃ frame, after.ledger.Grants ⟨pid, pageBase address⟩ isWrite frame)
        fun error after => after.Bars pid error) := by
  apply ((meets_reservePage ready.sound (pageAligned_pageBase address) readLength_zero rfl
    rfl).widen fun _ reserves => ⟨reserves.serves rfl rfl, reserves.extends rfl reached⟩).andThen
  · intro _ middle reaches present
    exact grants_claim (reaches.ready ready) config present fun _ => rfl
  · rintro error after _ (bars | occupied)
    · exact bars
    · exact absurd vacant occupied

/-- After a fault was resolved the access is allowed. -/
theorem meets_resolveFault (ready : before.Ready) (pid : Pid) (fault : PageFault) :
    (resolveFault pid fault).Meets before
      (Proceeds (fun deed => deed.Serves pid ∧ deed.Extends before.config) before
        (fun _ after => ∃ frame,
          after.ledger.Grants ⟨pid, pageBase fault.address⟩ fault.isWrite frame)
        fun error after => after.Bars pid error) := by
  have counted : Reaches (fun deed => deed.Serves pid ∧ deed.Extends before.config) before
      (before.modifyCounters fun counters =>
        { counters with pageFaults := counters.pageFaults + 1 }) :=
    .turn (.counted before _) ready.sound ⟨trivial, trivial⟩ (by simp)
  apply Meets.afterChange counted
  rw [← counted.runs.config] at counted ⊢
  generalize before.modifyCounters _ = middle at counted ⊢
  have ready := counted.ready ready
  rw [meets_bind, meets_checkUserAddress]
  dsimp only
  split
  · exact fails_here id (Or.inl rfl)
  · split
    · exact fails_here id (Or.inl rfl)
    · simp only [meets_bind, meets_requireSpace]
      cases found : middle.space? pid with
      | none => exact fails_here id (Or.inr ⟨rfl, found⟩)
      | some space =>
          have same := page?_of_space found fault.address
          cases present : space.page? fault.address with
          | some page =>
              rw [present] at same
              simp only [present]
              split
              · exact fails_here id (Or.inl rfl)
              · rename_i allowed
                have allowed : fault.isWrite = true → page.writable = true := by
                  simpa using allowed
                split
                · rename_i resident
                  obtain ⟨frame, resident⟩ := Option.isSome_iff_exists.mp resident
                  exact answers_here ⟨frame, page, same.symm, resident, allowed⟩
                · exact grants_claim ready _ same.symm allowed
          | none =>
              rw [present] at same
              simp only [present]
              rw [meets_bind, meets_get]
              dsimp only
              split
              · rename_i pushes
                exact grants_growStack ready pid fault.isWrite same.symm
                  (Config.stackReaches_of_isStackAccess pushes)
              · exact fails_here id (Or.inl rfl)

/-- A page fault ends the process if it cannot be resolved. -/
theorem meets_handlePageFault (ready : before.Ready) (pid : Pid) (fault : PageFault) :
    (handlePageFault pid fault).Meets before
      (Proceeds (fun deed => (deed.Serves pid ∧ deed.Extends before.config) ∨ deed.Ends pid) before
        (fun _ after => Reaches (fun deed => deed.Serves pid ∧ deed.Extends before.config) before after ∧
          ∃ frame, after.ledger.Grants ⟨pid, pageBase fault.address⟩ fault.isWrite frame)
        fun error after => ∃ middle,
          Reaches (fun deed => deed.Serves pid ∧ deed.Extends before.config) before middle ∧
            Killed pid error middle after) :=
  proceeds_killOnFatal ready (meets_resolveFault ready pid fault)

/-! ## Translations -/

/-- A page may be accessed in its frame, and is marked as changed if it is to be written. -/
structure Resolved (pager : Pager) (pid : Pid) (va : Nat) (isWrite : Bool) (frame : Nat) : Prop where
  grants : pager.ledger.Grants ⟨pid, pageBase va⟩ isWrite frame
  marked : isWrite = true → pager.dirtyOf ⟨pid, pageBase va⟩ = some true

theorem resolved_touched
    {va frame : Nat} {isWrite : Bool} (sound : before.ledger.Sound none)
    (grants : before.ledger.Grants ⟨pid, pageBase va⟩ isWrite frame) :
    (before.touched pid va isWrite).Resolved pid va isWrite frame where
  grants := by
    rw [ledger_touched]
    exact grants
  marked := by
    rintro rfl
    obtain ⟨page, present, resident, _⟩ := grants
    obtain ⟨dirty, bit⟩ := dirtyOf_of_resident sound present resident
    rw [dirtyOf_touched, if_pos rfl, Function.update_self, bit, Option.map_some]

/-- A look-up finds the frame of a page that may be accessed. -/
theorem meets_lookUp
    (sound : before.ledger.Sound none) (config : Config) (pid : Pid) (va : Nat) (isWrite : Bool) :
    (lookUp pid va isWrite).Meets before
      (Proceeds (fun deed => deed.Serves pid ∧ deed.Extends config) before
        (fun found after => match found with
          | some address => after = before.touched pid va isWrite ∧
              ∃ frame, after.Resolved pid va isWrite frame ∧
                address = frameBase frame + pageOffset va
          | none => after = before ∧
              ∀ frame, ¬ before.ledger.Grants ⟨pid, pageBase va⟩ isWrite frame)
        fun error after => error = .noSuchProcess pid ∧ after = before ∧
          before.space? pid = none) := by
  simp only [lookUp, meets_bind, meets_requireSpace]
  cases found : before.space? pid with
  | none => exact fails_here id ⟨rfl, rfl, rfl⟩
  | some space =>
      have translated := translation?_of_space found (pageBase va)
      rw [PageTable.translation?_pageBase] at translated
      cases entryFound : space.table.find? va with
      | none =>
          have refused : ∀ frame, ¬ before.ledger.Grants ⟨pid, pageBase va⟩ isWrite frame := by
            intro frame grants
            obtain ⟨_, there, _⟩ := sound.grants_iff.mp grants
            rw [entryFound, there] at translated
            cases translated
          simp only [PageTable.resolve?, entryFound, meets_pure]
          exact answers_here ⟨rfl, refused⟩
      | some entry =>
          rw [entryFound, Option.map_some] at translated
          simp only [PageTable.resolve?, PageTable.isWritable, entryFound]
          split
          · rename_i refusing
            simp only [Bool.and_eq_true, Bool.not_eq_true'] at refusing
            refine answers_here ⟨rfl, fun frame grants => ?_⟩
            obtain ⟨_, there, _, allowed⟩ := sound.grants_iff.mp grants
            rw [there] at translated
            cases translated
            have writable := allowed refusing.1
            rw [refusing.2] at writable
            cases writable
          · rename_i allowing
            have allowed : isWrite = true → entry.writable = true := by simpa using allowing
            have touches : Reaches (fun deed => deed.Serves pid ∧ deed.Extends config) before
                (before.touched pid va isWrite) :=
              .turn (.touched translated.symm allowed) sound ⟨rfl, trivial⟩ (by simp)
            obtain ⟨page, frame, present, resident⟩ :=
              sound.frames.page_of_translation _ _ translated.symm
            have base := sound.frames.translation_of_page _ page frame present resident
            rw [← translated, Option.some.injEq, Translation.mk.injEq] at base
            obtain ⟨base, writable⟩ := base
            have grants : before.ledger.Grants ⟨pid, pageBase va⟩ isWrite frame :=
              ⟨page, present, resident, fun write => by rw [← writable, allowed write]⟩
            rw [meets_bind, meets_modify]
            exact ⟨touches, rfl, frame, resolved_touched sound grants, by rw [base]⟩

/-- An address is resolved with at most one fault. -/
theorem meets_physicalAddress
    (ready : before.Ready) (pid : Pid) (va : Nat) (isWrite : Bool) :
    (physicalAddress pid va isWrite).Meets before
      (Proceeds (fun deed => deed.Serves pid ∧ deed.Extends before.config) before
        (fun address after => ∃ frame, after.Resolved pid va isWrite frame ∧
          address = frameBase frame + pageOffset va)
        fun error after => after.Bars pid error) := by
  have gone {error : PagingError} {before after : Pager} (is : error = .noSuchProcess pid)
      (same : after = before) (absent : before.space? pid = none) : after.Bars pid error :=
    Or.inr ⟨is, same ▸ absent⟩
  rw [physicalAddress_eq]
  apply (meets_lookUp ready.sound _ pid va isWrite).andThen _
    fun _ _ _ ⟨is, same, absent⟩ => gone is same absent
  intro first middle reaches found
  cases first with
  | some address => exact answers_here found.2
  | none =>
      obtain ⟨rfl, _⟩ := found
      rw [meets_bind, meets_requireSpace]
      dsimp only
      cases found : middle.space? pid with
      | none => exact fails_here id (Or.inr ⟨rfl, found⟩)
      | some space =>
          dsimp only
          apply (meets_resolveFault ready pid _).andThen _ fun _ _ _ => id
          intro _ resolved reaches granted
          apply (meets_lookUp (reaches.ready ready).sound _ pid va isWrite).andThen _
            fun _ _ _ ⟨is, same, absent⟩ => gone is same absent
          intro second after _ found
          cases second with
          | some address => exact answers_here found.2
          | none =>
              obtain ⟨frame, grants⟩ := granted
              exact absurd grants (found.2 frame)

end Pager

end DemandPaging
