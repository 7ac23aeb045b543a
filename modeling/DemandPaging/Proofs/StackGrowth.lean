import DemandPaging.Proofs.FatalErrors
import DemandPaging.Proofs.FileChanges

/-!
# How far the stack grows

A page fault where there is no page lets the stack grow by the page of its address if that lies in the stack
area. The whole page begins then, so the stack grows down to the start of the page in which its area starts,
and no further.
-/

namespace DemandPaging

namespace Config

variable {config : Config} {base : Nat} {bases : List Nat}

/-- A page of the stack ends with it at the latest, if the stack ends with a page. -/
theorem StackReaches.le_stackTop
    (reaches : config.StackReaches base) (top : pageAligned config.stackTop = true) :
    base + pageSize ≤ config.stackTop := by
  obtain ⟨aligned, _, below⟩ := reaches
  simp only [pageAligned, pageOffset, pageBase, pageSize, beq_iff_eq] at *
  omega

/-- The pages that the stack may reach are as long as the stack area, if its length is rounded up. -/
theorem stackTop_le (top : pageAligned config.stackTop = true) :
    config.stackTop ≤ pageBase config.stackLimit + roundedLength config.maxStackSize := by
  simp only [stackLimit, pageAligned, pageOffset, pageBase, roundedLength, pageSize, beq_iff_eq] at *
  omega

/-- Different pages that the stack may reach take no more than the stack area, if its length is rounded up. -/
theorem length_le_of_stackReaches
    (top : pageAligned config.stackTop = true) (distinct : bases.Nodup)
    (reached : ∀ base ∈ bases, config.StackReaches base) :
    bases.length * pageSize ≤ roundedLength config.maxStackSize := by
  have inside : bases ⊆ (List.range (roundedLength config.maxStackSize / pageSize)).map fun index =>
      pageBase config.stackLimit + index * pageSize := by
    intro base member
    obtain ⟨aligned, above, below⟩ := reached base member
    have reach := config.stackTop_le top
    refine List.mem_map.mpr ⟨(base - pageBase config.stackLimit) / pageSize, List.mem_range.mpr ?_, ?_⟩ <;>
      simp only [pageAligned, pageOffset, pageBase, roundedLength, pageSize, beq_iff_eq] at * <;> omega
  have counted := (List.subperm_of_subset distinct inside).length_le
  rw [List.length_map, List.length_range] at counted
  exact (Nat.mul_le_mul_right pageSize counted).trans (Nat.div_mul_le_self ..)

/-- With an area of whole pages nothing is rounded. -/
theorem stackLimit_aligned
    (top : pageAligned config.stackTop = true) (whole : pageAligned config.maxStackSize = true) :
    pageBase config.stackLimit = config.stackLimit ∧
      roundedLength config.maxStackSize = config.maxStackSize := by
  simp only [stackLimit, pageAligned, pageOffset, pageBase, roundedLength, pageSize, beq_iff_eq] at *
  omega

end Config

/-- A page that may be reserved in the course of an access is one of the stack of its process. -/
theorem Deed.stack_of_reserved
    {config : Config} {pid : Pid} {owner : Owner} {page : Page}
    (permitted : ((reserved owner page).Amends pid ∧ (reserved owner page).Extends config) ∨
      (reserved owner page).Ends pid) :
    owner.pid = pid ∧ page.isStack = true ∧ config.StackReaches owner.va := by
  rcases permitted with ⟨⟨mine, _⟩, isStack, reaches⟩ | ends
  · exact ⟨mine, isStack, reaches⟩
  · exact absurd ends id

namespace Pager

open PagerM

variable {config : Config} {events : List Event} {before : Pager} {call : Call} {pid : Pid}

/-- Whatever comes of an access, every page that begins meanwhile is one by which the stack may grow. -/
theorem Orderly.extended
    (orderly : before.Orderly config events) (accesses : call.access? = some pid) :
    ∃ last, Runs (fun deed => (deed.Amends pid ∧ deed.Extends config) ∨ deed.Ends pid) before last ∧
      last.Breaks (call.perform.leaves before) := by
  have ready := orderly.unpinned.ready orderly.sound
  obtain rfl := orderly.config
  apply Meets.leaves fun after => ∃ last,
    Runs (fun deed => (deed.Amends pid ∧ deed.Extends before.config) ∨ deed.Ends pid) before last ∧
      last.Breaks after
  exact (meets_access ready accesses).mono
    (fun _ after ⟨reaches, _⟩ => ⟨after, reaches.runs, .refl after⟩)
    (fun _ after ⟨reaches, _⟩ => ⟨after, reaches.runs, .refl after⟩) fun _ _ stops => stops.runs

/-- A page that is there after an access and was not there before is one by which the stack grew. -/
theorem Orderly.begun
    {owner : Owner} {page : Page} (orderly : before.Orderly config events)
    (accesses : call.access? = some pid) (vacant : before.pageOf owner = none)
    (present : (call.perform.leaves before).pageOf owner = some page) :
    owner.pid = pid ∧ page.isStack = true ∧ config.StackReaches owner.va := by
  obtain ⟨last, runs, breaks⟩ := orderly.extended accesses
  rcases runs.origin orderly.sound ((congrFun breaks.pages owner).symm.trans present) with
    ⟨old, presentThen, _⟩ | ⟨laid, permitted, continues⟩
  · cases vacant.symm.trans presentThen
  · obtain ⟨mine, isStack, reaches⟩ := Deed.stack_of_reserved permitted
    exact ⟨mine, continues.isStack.trans isStack, reaches⟩

end Pager

open Pager

section Laws

variable {config : Config} {kind : PolicyKind} {device : Device} {files : FileTable}
  {events : List Event} {before : Pager} {call : Call} {pid : Pid}

/-- Whether an access in some history brings a page where there was none. -/
def Grown (config : Config) (kind : PolicyKind) (device : Device) (files : FileTable) (owner : Owner) :
    Prop :=
  ∃ (events : List Event) (before : Pager) (call : Call) (pid : Pid) (page : Page),
    History config kind device files events before ∧ call.access? = some pid ∧
      before.pageOf owner = none ∧ (call.perform.leaves before).pageOf owner = some page

/-- The stack grows in the pages of the stack area only, down to the start of the page in which the area
starts. Whatever comes of an access, every page that begins meanwhile, also if it does not last, is a page of
the stack of its process and lies there. All pages that accesses ever bring to a process take no more than the
greatest size of the stack, rounded up to whole pages, and if that is a number of whole pages, they lie inside
the stack area. -/
theorem stack_grows_in_pages_of_its_area
    (history : History config kind device files events before) (accesses : call.access? = some pid)
    (top : pageAligned config.stackTop = true) :
    (∃ last, Runs (fun deed => ∀ owner page, deed = .reserved owner page → owner.pid = pid ∧
        page.isStack = true ∧ pageBase config.stackLimit ≤ owner.va ∧
          owner.va + pageSize ≤ config.stackTop) before last ∧
      last.Breaks (call.perform.leaves before)) ∧
    (∀ owner page, before.pageOf owner = none → (call.perform.leaves before).pageOf owner = some page →
      owner.pid = pid ∧ page.isStack = true ∧ pageBase config.stackLimit ≤ owner.va ∧
        owner.va + pageSize ≤ config.stackTop) ∧
    (∀ (of : Pid) (grown : List Nat), grown.Nodup →
      (∀ va ∈ grown, Grown config kind device files ⟨of, va⟩) →
        grown.length * pageSize ≤ roundedLength config.maxStackSize) ∧
    (pageAligned config.maxStackSize = true → pageBase config.stackLimit = config.stackLimit ∧
      roundedLength config.maxStackSize = config.maxStackSize) := by
  refine ⟨?_, fun owner page vacant present => ?_, fun of grown distinct begun => ?_,
    Config.stackLimit_aligned top⟩
  · obtain ⟨last, runs, breaks⟩ := history.orderly.extended accesses
    refine ⟨last, runs.mono ?_, breaks⟩
    rintro _ permitted owner page rfl
    obtain ⟨mine, isStack, reaches⟩ := Deed.stack_of_reserved permitted
    exact ⟨mine, isStack, reaches.above, reaches.le_stackTop top⟩
  · obtain ⟨mine, isStack, reaches⟩ := history.orderly.begun accesses vacant present
    exact ⟨mine, isStack, reaches.above, reaches.le_stackTop top⟩
  · apply Config.length_le_of_stackReaches top distinct
    intro va member
    obtain ⟨_, _, _, _, _, history, accesses, vacant, present⟩ := begun va member
    exact (history.orderly.begun accesses vacant present).2.2

/-- A stack of at most 6000 bytes, whose area starts inside a page. -/
def narrowStack : Config := { stackTop := 65536, maxStackSize := 6000 }

/-- A push at the lowest address of the narrow stack. -/
def lowestPush : Call :=
  .handlePageFault 1 ⟨narrowStack.stackLimit, true, false, narrowStack.stackLimit⟩

/-- A process that has pushed to the upper page of its stack pushes at the lowest address. -/
theorem exists_lowestPush :
    ∃ events before low high, History narrowStack .fifo (Device.blank .memory 8) ⟨#[]⟩ events before ∧
      before.pageOf ⟨1, 57344⟩ = none ∧ (lowestPush.perform.leaves before).pageOf ⟨1, 57344⟩ = some low ∧
        (lowestPush.perform.leaves before).pageOf ⟨1, 61440⟩ = some high := by
  have ended : (((Pager.create narrowStack .fifo (Device.blank .memory 8) ⟨#[]⟩).play []
      [.createProcess 1, .handlePageFault 1 ⟨61440, true, false, 61440⟩]).any fun result =>
        (result.2.pageOf ⟨1, 57344⟩).isNone &&
          ((lowestPush.perform.leaves result.2).pageOf ⟨1, 57344⟩).isSome &&
            ((lowestPush.perform.leaves result.2).pageOf ⟨1, 61440⟩).isSome) = true := by
    decide +kernel
  obtain ⟨⟨events, before⟩, played, known⟩ := (Option.any_eq_true ..).mp ended
  simp only [Bool.and_eq_true, Option.isNone_iff_eq_none, Option.isSome_iff_exists] at known
  obtain ⟨⟨vacant, low, begun⟩, high, present⟩ := known
  exact ⟨events, before, low, high, History.start.play played, vacant, begun, present⟩

/-- The lower page starts at the last page boundary that the area allows. -/
theorem stack_grows_in_pages_of_its_area_of_lowest_push :
    ∃ before page, lowestPush.access? = some 1 ∧ pageAligned narrowStack.stackTop = true ∧
      (lowestPush.perform.leaves before).pageOf ⟨1, 57344⟩ = some page ∧ page.isStack = true ∧
        pageBase narrowStack.stackLimit ≤ 57344 ∧ 57344 + pageSize ≤ narrowStack.stackTop := by
  obtain ⟨events, before, low, high, history, vacant, begun, _⟩ := exists_lowestPush
  have accesses : lowestPush.access? = some 1 := rfl
  have top : pageAligned narrowStack.stackTop = true := by decide
  obtain ⟨_, isStack, bounds⟩ :=
    (stack_grows_in_pages_of_its_area history accesses top).2.1 ⟨1, 57344⟩ low vacant begun
  exact ⟨before, low, accesses, top, begun, isStack, bounds⟩

/-- The lower page starts below the lowest address that the stack may reach, and the two pages together are
larger than the stack may be. -/
theorem stack_page_below_limit :
    ∃ events before low high, History narrowStack .fifo (Device.blank .memory 8) ⟨#[]⟩ events before ∧
      lowestPush.access? = some 1 ∧ pageAligned narrowStack.stackTop = true ∧
        before.pageOf ⟨1, 57344⟩ = none ∧ (lowestPush.perform.leaves before).pageOf ⟨1, 57344⟩ = some low ∧
          (lowestPush.perform.leaves before).pageOf ⟨1, 61440⟩ = some high ∧
            57344 < narrowStack.stackLimit ∧ narrowStack.maxStackSize < 2 * pageSize := by
  obtain ⟨events, before, low, high, history, vacant, begun, present⟩ := exists_lowestPush
  exact ⟨events, before, low, high, history, rfl, by decide, vacant, begun, present, by decide, by decide⟩

end Laws

end DemandPaging
