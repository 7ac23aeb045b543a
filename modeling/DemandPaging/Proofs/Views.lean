import DemandPaging.Proofs.Calls
import DemandPaging.Proofs.UserMemory

/-!
# What a process sees

A process that uses no file sees the same memory wherever its pages are, also before they are touched.
Turns show it nothing but what they reserve, discard and write for it, and calls for other processes show it
nothing at all.
-/

namespace DemandPaging

/-- A page without a file: zeros that were not touched yet, or anonymous memory. -/
def Page.IsPlain (page : Page) : Prop :=
  page.type = .anonymous ∧ ∀ load, page.kind = .pending load → load = .zero

theorem Page.IsPlain.of_continues {new old : Page} (plain : old.IsPlain) (continues : new.Continues old) :
    new.IsPlain :=
  ⟨continues.type.trans plain.1, fun load pending => plain.2 load (continues.pending load pending)⟩

theorem Page.isPlain_of_zero {page : Page} (zero : page.kind = .pending .zero) : page.IsPlain := by
  refine ⟨?_, fun load pending => ?_⟩
  · rw [Page.type, zero]
    rfl
  · rw [zero] at pending
    cases pending
    rfl

namespace Deed

/-- Deeds that show a process nothing. -/
def Bypasses (pid : Pid) : Deed → Prop
  | reserved owner _ | discarded owner _ | stored owner | copied owner => owner.pid ≠ pid
  | created other | removed other | relaid other _ => other ≠ pid
  | _ => True

/-- Deeds that bring a process no page with a file. -/
def Plainly (pid : Pid) : Deed → Prop
  | reserved owner page => owner.pid = pid → page.kind = .pending .zero
  | _ => True

variable {deed : Deed} {pid other : Pid} {owner : Owner}

theorem Bypasses.not_reserved {page : Page} (bypasses : deed.Bypasses owner.pid) :
    deed ≠ .reserved owner page := by
  rintro rfl
  exact bypasses rfl

theorem Bypasses.not_discarded {page : Page} (bypasses : deed.Bypasses owner.pid) :
    deed ≠ .discarded owner page := by
  rintro rfl
  exact bypasses rfl

theorem Bypasses.not_alters (bypasses : deed.Bypasses owner.pid) : ¬ deed.Alters owner := by
  rintro (rfl | rfl) <;> exact bypasses rfl

theorem Bypasses.not_replaces (bypasses : deed.Bypasses pid) : ¬ deed.Replaces pid := by
  rintro (rfl | rfl | ⟨_, rfl⟩) <;> exact bypasses rfl

theorem Uses.bypasses (uses : deed.Uses other) (apart : other ≠ pid) : deed.Bypasses pid := by
  cases deed <;> first
    | exact trivial
    | exact fun same => apart (Eq.trans (Eq.symm uses) same)
    | exact absurd uses id

theorem Writes.bypasses (writes : deed.Writes other) (apart : other ≠ pid) : deed.Bypasses pid := by
  cases deed with
  | stored owner => exact fun same => apart (writes.symm.trans same)
  | _ => exact Uses.bypasses (Faults.uses writes) apart

theorem Forks.bypasses {originals : Owner → Option Page} {parent child : Pid}
    (forks : deed.Forks originals parent child) (apart : child ≠ pid) : deed.Bypasses pid := by
  cases deed with
  | reserved owner page => exact fun same => apart (forks.1.symm.trans same)
  | copied owner | created other | relaid other reach =>
      exact fun same => apart (Eq.trans (Eq.symm forks) same)
  | discarded | stored | removed => exact absurd forks id
  | _ => exact trivial

theorem Reserves.plainly {page : Page} (reserves : deed.Reserves owner page)
    (zero : page.kind = .pending .zero) : deed.Plainly pid := by
  cases deed with
  | reserved other new =>
      obtain ⟨_, rfl⟩ := reserves
      exact fun _ => zero
  | _ => exact trivial

theorem Serves.plainly (serves : deed.Serves other) : deed.Plainly pid := by
  cases deed <;> first | exact trivial | exact fun _ => serves.2.1

end Deed

namespace Pager

/-- The page of a process that starts at an address, as the process sees it: zeros before it is touched. -/
def userPage (pager : Pager) (owner : Owner) : Option UserPage :=
  (pager.ledger.pages owner).map fun page =>
    ⟨page.writable, (pager.ledger.content owner).getD Image.zero⟩

/-- The memory of a process, as the process sees it. -/
def userMemory (pager : Pager) (pid : Pid) : Option UserMemory :=
  (pager.layout? pid).map fun layout => ⟨layout.stackPointer, fun va => pager.userPage ⟨pid, va⟩⟩

/-- Whether a process uses no file. -/
def Plain (pager : Pager) (pid : Pid) : Prop :=
  ∀ va page, pager.ledger.pages ⟨pid, va⟩ = some page → page.IsPlain

variable {before after pager : Pager} {allowed : Deed → Prop} {deed : Deed} {owner : Owner}
  {pid : Pid} {page : Page}

theorem userPage_of_vacant (vacant : pager.ledger.pages owner = none) :
    pager.userPage owner = none := by
  rw [userPage, vacant, Option.map_none]

theorem userPage_of_present (present : pager.ledger.pages owner = some page) :
    pager.userPage owner = some ⟨page.writable, (pager.ledger.content owner).getD Image.zero⟩ := by
  rw [userPage, present, Option.map_some]

theorem userMemory_eq_none_iff : pager.userMemory pid = none ↔ pager.space? pid = none :=
  Option.map_eq_none_iff.trans layout?_eq_none_iff

theorem userMemory_of_space {space : AddressSpace} (found : pager.space? pid = some space) :
    pager.userMemory pid = some ⟨space.stackPointer, fun va => pager.userPage ⟨pid, va⟩⟩ := by
  rw [userMemory, layout?, found]
  rfl

/-! ## Turns and runs -/

/-- A page of zeros that gets a frame still holds zeros. -/
theorem Turn.content_claimed
    (turn : Turn (.claimed owner) before after) (sound : before.ledger.Sound none)
    (present : before.ledger.pages owner = some page) (plain : page.IsPlain) :
    (after.ledger.content owner).getD Image.zero = (before.ledger.content owner).getD Image.zero := by
  cases turn with
  | claimed presentThere absent acquires arrives =>
      cases present.symm.trans presentThere
      have moves := acquires.moves sound
      obtain ⟨flying, presentThen⟩ := moves.sound sound present absent
      obtain ⟨image, _, arrived, brings, _⟩ := arrives.moves flying presentThen
      rw [arrived.content_self flying presentThen absent, moves.content sound, if_pos plain.1,
        Option.getD_some]
      cases content : before.ledger.content owner with
      | some old => rfl
      | none =>
          rw [Ledger.content_of_page present] at content
          rcases kind : page.kind with load | slot | range
          · cases plain.2 load kind
            rw [← brings.image, kind, PageKind.fetch_zero, Option.getD_none]
          · cases slot with
            | none => exact absurd absent (sound.slots.resident owner page present kind)
            | some slot => simp [Ledger.pageContent, kind] at content
          · have type := plain.1
            rw [Page.type, kind] at type
            cases type

theorem Turn.userPage
    (turn : Turn deed before after) (sound : before.ledger.Sound none)
    (plain : ∀ page, before.ledger.pages owner = some page → page.IsPlain)
    (unreserved : ∀ page, deed ≠ .reserved owner page) (kept : ∀ page, deed ≠ .discarded owner page)
    (unaltered : ¬ deed.Alters owner) : after.userPage owner = before.userPage owner := by
  have step := turn.step sound
  cases present : before.ledger.pages owner with
  | none => rw [userPage_of_vacant present, userPage_of_vacant (step.vacant present unreserved)]
  | some page =>
      obtain ⟨new, presentThen, continues⟩ := step.continues present (kept page)
      rw [userPage_of_present present, userPage_of_present presentThen, continues.writable]
      rcases step.content sound unaltered with same | ⟨⟨old, discarded⟩, _⟩ | rfl
      · rw [same]
      · exact absurd discarded (kept old)
      · rw [turn.content_claimed sound present (plain page present)]

/-- A turn that changes one page of a process shows the process this change. -/
theorem Turn.userMemory_put
    {memory : UserMemory} {va : Nat} {page : UserPage} (turn : Turn deed before after)
    (sound : before.ledger.Sound none) (plain : before.Plain pid)
    (seen : before.userMemory pid = some memory) (kept : ¬ deed.Replaces pid)
    (here : after.userPage ⟨pid, va⟩ = some page)
    (elsewhere : ∀ other, other ≠ va → (∀ page, deed ≠ .reserved ⟨pid, other⟩ page) ∧
      (∀ page, deed ≠ .discarded ⟨pid, other⟩ page) ∧ ¬ deed.Alters ⟨pid, other⟩) :
    after.userMemory pid = some (memory.put va page) := by
  obtain ⟨layout, found, rfl⟩ := Option.map_eq_some_iff.mp seen
  rw [userMemory, turn.layout? kept, found, Option.map_some, UserMemory.put]
  congr 2
  funext other
  by_cases same : other = va
  · rw [same, Function.update_self]
    exact here
  · obtain ⟨unreserved, undiscarded, unaltered⟩ := elsewhere other same
    rw [Function.update_of_ne same]
    exact turn.userPage sound (plain other) unreserved undiscarded unaltered

theorem Turn.plain
    (turn : Turn deed before after) (sound : before.ledger.Sound none) (plain : before.Plain pid)
    (plainly : deed.Plainly pid) : after.Plain pid := by
  intro va page present
  by_cases reserved : deed = .reserved ⟨pid, va⟩ page
  · rw [reserved] at plainly
    exact Page.isPlain_of_zero (plainly rfl)
  · obtain ⟨old, presentOld, continues⟩ := (turn.step sound).continued present reserved
    exact (plain va old presentOld).of_continues continues

theorem Runs.plain
    (runs : Runs allowed before after) (sound : before.ledger.Sound none) (plain : before.Plain pid)
    (plainly : ∀ deed, allowed deed → deed.Plainly pid) : after.Plain pid := by
  induction runs with
  | refl => exact plain
  | tail runs permitted turn inductionHypothesis =>
      exact turn.plain (runs.sound sound) inductionHypothesis (plainly _ permitted)

/-- A page without a file shows its process the same after deeds that bypass the process. -/
theorem Runs.userPage
    (runs : Runs allowed before after) (sound : before.ledger.Sound none)
    (plain : ∀ page, before.ledger.pages owner = some page → page.IsPlain)
    (bypass : ∀ deed, allowed deed → deed.Bypasses owner.pid) :
    after.userPage owner = before.userPage owner := by
  induction runs with
  | refl => rfl
  | tail runs permitted turn inductionHypothesis =>
      rename_i middle after deed
      have plainThen (page : Page) (present : middle.ledger.pages owner = some page) :
          page.IsPlain := by
        obtain ⟨old, presentOld, continues⟩ := runs.continued sound present fun _ reserved =>
          (bypass _ reserved).not_reserved rfl
        exact (plain old presentOld).of_continues continues
      rw [← inductionHypothesis]
      have bypasses := bypass _ permitted
      exact turn.userPage (runs.sound sound) plainThen (fun _ => bypasses.not_reserved)
        (fun _ => bypasses.not_discarded) bypasses.not_alters

/-- A process sees nothing of deeds that bypass it. -/
theorem Runs.userMemory
    (runs : Runs allowed before after) (sound : before.ledger.Sound none) (plain : before.Plain pid)
    (bypass : ∀ deed, allowed deed → deed.Bypasses pid) :
    after.userMemory pid = before.userMemory pid := by
  have laid := runs.layout? fun deed permitted => (bypass deed permitted).not_replaces
  have seen (va : Nat) : after.userPage ⟨pid, va⟩ = before.userPage ⟨pid, va⟩ :=
    runs.userPage sound (plain va) bypass
  rw [Pager.userMemory, Pager.userMemory, laid]
  simp only [seen]

end Pager

/-! ## Calls -/

namespace Call

variable {call : Call} {before : Pager} {deed : Deed} {pid : Pid}

/-- A call that uses no file for a process brings it no page with a file. -/
theorem Permits.plainly (permits : call.Permits before deed) (anonymous : call.isAnonymous pid = true) :
    deed.Plainly pid := by
  rcases permits with does | ⟨other, _, ends⟩
  · cases deed with
    | reserved owner page =>
        intro same
        cases call with
        | fork parent child => exact absurd (does.1.symm.trans same) (bne_iff_ne.mp anonymous)
        | allocate other => exact does.2.2
        | allocateLazily other va writable load =>
            have mine : other = pid := does.1.symm.trans same
            rw [isAnonymous, mine, bne_self_eq_false, Bool.false_or] at anonymous
            rw [← eq_of_beq anonymous]
            exact does.2.2
        | loadSegment other | map other =>
            exact absurd (does.1.symm.trans same) (bne_iff_ne.mp anonymous)
        | setupStack other | claim other | handlePageFault other | readUser other | writeUser other =>
            exact does.2
        | createProcess | setStackPointer => cases does
        | unmap other base =>
            obtain ⟨_, _, withdraws⟩ := does
            exact absurd withdraws id
        | _ => exact absurd does id
    | _ => exact trivial
  · cases deed <;> first | exact trivial | exact absurd ends id

/-- Calls for other processes show a process nothing. -/
theorem Permits.bypasses (permits : call.Permits before deed) (unconcerned : ¬ call.Concerns pid) :
    deed.Bypasses pid := by
  rcases permits with does | ⟨other, victim, ends⟩
  · cases call with
    | fork parent child => exact Deed.Forks.bypasses does fun same => unconcerned (Or.inr same.symm)
    | writeUser other va bytes => exact Deed.Writes.bypasses does fun same => unconcerned same.symm
    | _ =>
        obtain ⟨other, concerns, uses⟩ := does.uses (by trivial)
        exact uses.bypasses fun same => unconcerned (same ▸ concerns)
  · exact ends.uses.bypasses fun same => unconcerned (same ▸ concerns_victim victim)

/-- Calls that are not made for a process show it nothing, nor does a call that copies it. -/
theorem Permits.bypasses_of_apart
    (permits : call.Permits before deed) (anonymous : call.isAnonymous pid = true)
    (apart : call.isFor pid = false ∨ call.isFork = true) : deed.Bypasses pid := by
  by_cases concerned : call.Concerns pid
  · cases call with
    | fork parent child =>
        have apart : child ≠ pid := bne_iff_ne.mp anonymous
        rcases permits with does | ⟨_, ⟨⟩, ends⟩
        · exact Deed.Forks.bypasses does apart
        · exact ends.uses.bypasses apart
    | isResident =>
        rcases permits with does | ⟨_, ⟨⟩, _⟩
        exact absurd does id
    | stats | config => exact absurd concerned id
    | _ =>
        cases concerned
        rcases apart with apart | fork
        · exact absurd (beq_self_eq_true pid) (Bool.eq_false_iff.mp apart)
        · cases fork
  · exact permits.bypasses concerned

end Call

end DemandPaging
