import DemandPaging.Proofs.History

/-!
# Where accesses can reach

A read or a write that is answered stays inside pages of its process, and every page starts behind the
null page and below kernel space. So no access reaches past the page in which kernel space begins, and
none reaches kernel space if kernel space begins with a page.
-/

namespace DemandPaging

/-! ## Pages of user space -/

/-- A page that a process may have: it is not the null page and starts below kernel space. -/
structure Config.IsUserPage (config : Config) (base : Nat) : Prop where
  nonnull : base ≠ 0
  user : base < config.kernelBase

/-- Whether all of `length` bytes from an address on lie in pages that a process may have. -/
def Config.AllowsRange (config : Config) (va length : Nat) : Prop :=
  ∀ index < length, config.IsUserPage (pageBase (va + index))

theorem pageSize_le_of_pageBase_ne_zero {va : Nat} (nonnull : pageBase va ≠ 0) : pageSize ≤ va := by
  simp only [pageBase, pageSize] at *
  omega

/-- The whole page of an address ends where its number of bytes rounded up ends. -/
theorem lt_roundedLength_of_pageBase_lt {va bound : Nat} (below : pageBase va < bound) :
    va < roundedLength bound := by
  simp only [pageBase, roundedLength, pageSize] at *
  omega

theorem roundedLength_of_pageAligned {length : Nat} (aligned : pageAligned length = true) :
    roundedLength length = length := by
  simp only [pageAligned, pageOffset, roundedLength, pageSize, beq_iff_eq] at *
  omega

/-- A range in pages that a process may have lies between the null page and the end of the page in which
kernel space begins. -/
theorem Config.AllowsRange.bounds
    {config : Config} {va length : Nat} (allows : config.AllowsRange va length)
    (nonempty : length ≠ 0) :
    pageSize ≤ va ∧ va + length ≤ roundedLength config.kernelBase := by
  have first := allows 0 (Nat.pos_of_ne_zero nonempty)
  have last := allows (length - 1) (by omega)
  have ended := lt_roundedLength_of_pageBase_lt last.user
  exact ⟨pageSize_le_of_pageBase_ne_zero first.nonnull, by omega⟩

namespace Pager

variable {before middle after : Pager} {pid : Pid} {allowed : Deed → Prop}

theorem Runs.isUserPage
    {page : Page} {base : Nat} (runs : Runs allowed before middle) (sound : before.ledger.Sound none)
    (present : middle.ledger.pages ⟨pid, base⟩ = some page) : before.config.IsUserPage base := by
  obtain ⟨_, _, nonnull, user, _⟩ := (runs.sound sound).placed _ page present
  have same : middle.ledger.config = before.config := runs.config
  rw [same] at user
  exact ⟨nonnull, user⟩

theorem Seen.isUserPage
    {address : Nat} {byte : Option UInt8} (seen : Seen pid address byte before after)
    (sound : before.ledger.Sound none) : before.config.IsUserPage (pageBase address) := by
  obtain ⟨_, faults, ⟨_, _, present, _⟩, _⟩ := seen
  exact faults.isUserPage sound present

/-- Bytes are stored in pages only, those of a chunk all in one. -/
theorem Stores.isUserPage
    {va done stop : Nat} {bytes : Array UInt8} (stores : Stores pid va bytes done stop before after)
    (sound : before.ledger.Sound none) {index : Nat} (started : done ≤ index) (inside : index < stop) :
    before.config.IsUserPage (pageBase (va + index)) := by
  induction stores with
  | rest faults => omega
  | chunk faults resolved fits inBytes later inductionHypothesis =>
      rename_i done count stop frame before middle after
      have middleSound := faults.runs.sound sound
      by_cases here : index < done + count
      · have position : va + index = va + done + (index - done) := by omega
        obtain ⟨samePage, _⟩ := @pageBase_add (va + done) (index - done) (by omega)
        obtain ⟨_, present, _⟩ := resolved.grants
        rw [position, samePage]
        exact faults.runs.isUserPage sound present
      · obtain ⟨_, same, turn, _⟩ := store_of_grants middleSound resolved (bytes.extract done (done + count))
        subst same
        have config := faults.runs.config
        have onward := inductionHypothesis (turn.sound middleSound) (by omega) inside
        exact ⟨onward.nonnull, config ▸ onward.user⟩

end Pager

/-! ## Accesses -/

/-- The address and the number of bytes that a call reads or writes in user memory. -/
def Call.range? : Call → Option (Nat × Nat)
  | readUser _ va length => some (va, length)
  | writeUser _ va bytes => some (va, bytes.size)
  | _ => none

open PagerM Pager

variable {config : Config} {kind : PolicyKind} {device : Device} {files : FileTable}
  {events : List Event} {before after : Pager}

/-- An access that is answered stays in pages that a process may have, whether they were resident or
not. -/
theorem Pager.Orderly.allowsRange
    {call : Call} {answer : Answer} {va length : Nat} (orderly : before.Orderly config events)
    (accesses : call.range? = some (va, length))
    (run : attempt call.perform before = .ok (.ok answer) after) : config.AllowsRange va length := by
  obtain ⟨sound, unpinned, _, same, _, _⟩ := orderly
  subst same
  have ready := unpinned.ready sound
  cases call with
  | readUser pid start count =>
      cases accesses
      rcases (meets_readUser ready pid va length).of_answered run with
        ⟨_, _, _, _, _, seen⟩ | ⟨_, refused, _⟩
      · exact fun index inside => (seen index inside).isUserPage sound
      · cases refused
  | writeUser pid start bytes =>
      cases accesses
      rcases (meets_writeUser ready pid va bytes).of_answered run with
        ⟨_, _, _, _, stores⟩ | ⟨_, refused, _⟩
      · exact fun index inside => stores.isUserPage sound (Nat.zero_le index) inside
      · cases refused
  | _ => cases accesses

/-- A read or a write of at least one byte that is answered starts behind the null page and ends in the
page in which kernel space begins at the latest; it ends below kernel space if kernel space begins with
a page. -/
theorem access_between_null_page_and_kernel
    {call : Call} {answer : Answer} {va length : Nat}
    (history : History config kind device files events before)
    (accesses : call.range? = some (va, length)) (nonempty : length ≠ 0)
    (run : attempt call.perform before = .ok (.ok answer) after) :
    pageSize ≤ va ∧ va + length ≤ roundedLength config.kernelBase ∧
      (pageAligned config.kernelBase = true → va + length ≤ config.kernelBase) := by
  obtain ⟨start, ended⟩ := (history.orderly.allowsRange accesses run).bounds nonempty
  refine ⟨start, ended, fun aligned => ?_⟩
  rw [roundedLength_of_pageAligned aligned] at ended
  exact ended

/-- The layout of a kernel that begins in the middle of a page. -/
def straddledConfig : Config :=
  { frameCount := 1, kernelBase := 4100 }

/-- A process with one resident page of anonymous memory. -/
def residentPage : List Call :=
  [.createProcess 1, .allocate 1 .anonymous 4096 true, .claim 1 4096]

/-- The last page below a kernel that begins with a page can be written to its end. -/
theorem access_between_null_page_and_kernel_of_last_page :
    ∃ before after answer,
      attempt (Call.writeUser 1 8190 #[7, 9]).perform before = .ok (.ok answer) after ∧
        pageSize ≤ 8190 ∧ 8190 + 2 ≤ roundedLength 8192 ∧ 8190 + 2 ≤ 8192 := by
  have ended : (((Pager.create { frameCount := 1, kernelBase := 8192 } .fifo (Device.blank .memory 0)
      ⟨#[]⟩).play [] residentPage).any fun result =>
        result.2.comesTo (.writeUser 1 8190 #[7, 9]) fun outcome _ => outcome.isOk) = true := by
    decide +kernel
  obtain ⟨⟨events, before⟩, played, wrote⟩ := (Option.any_eq_true ..).mp ended
  obtain ⟨outcome, after, run, answered⟩ := exists_run_of_comesTo wrote
  cases outcome with
  | error => cases answered
  | ok answer =>
      obtain ⟨start, ended, below⟩ := access_between_null_page_and_kernel (History.start.play played)
        (by rfl : (Call.writeUser 1 8190 #[7, 9]).range? = some (8190, 2)) (by decide) run
      exact ⟨before, after, answer, run, start, ended, below (by decide)⟩

/-- A resident page in which kernel space begins can be read behind the start of kernel space, although
a fault there is refused. -/
theorem kernel_bytes_of_straddled_page :
    ¬ ∀ (config : Config) (kind : PolicyKind) (device : Device) (files : FileTable)
      (events : List Event) (before after : Pager) (call : Call) (answer : Answer) (va length : Nat),
      History config kind device files events before → call.range? = some (va, length) →
        length ≠ 0 → attempt call.perform before = .ok (.ok answer) after →
          pageSize ≤ va ∧ va + length ≤ config.kernelBase := by
  intro claim
  have ended : (((Pager.create straddledConfig .fifo (Device.blank .memory 0) ⟨#[]⟩).play []
      residentPage).any fun result =>
        result.2.comesTo (.readUser 1 4100 1) fun outcome _ => outcome.isOk) = true := by
    decide +kernel
  obtain ⟨⟨events, before⟩, played, read⟩ := (Option.any_eq_true ..).mp ended
  obtain ⟨outcome, after, run, answered⟩ := exists_run_of_comesTo read
  cases outcome with
  | error => cases answered
  | ok answer =>
      have bounds := claim _ _ _ _ _ _ _ _ _ 4100 1 (History.start.play played) rfl (by decide) run
      exact absurd bounds.2 (by decide)

end DemandPaging
