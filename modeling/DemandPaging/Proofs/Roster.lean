import DemandPaging.Pager.Stats
import DemandPaging.Proofs.Moves
import Mathlib.Data.List.Nodup

/-!
# Counting pages

The roster lists every page of every process once. Frames and slots that belong to one page each are
counted by counting pages.
-/

namespace DemandPaging

/-- Whether the page is anonymous memory that was touched and has no frame. -/
def Page.isSwapped (page : Page) : Bool :=
  match page.kind with
  | .anonymous _ => !page.isResident
  | _ => false

namespace Pager

variable {pager : Pager}

/-- What all processes keep at addresses of theirs. -/
def listed {α : Type} (pager : Pager) (view : AddressSpace → Std.ExtTreeMap Nat α) : List (Owner × α) :=
  pager.spaces.toList.flatMap fun process =>
    (view process.2).toList.map fun entry => (⟨process.1, entry.1⟩, entry.2)

theorem mem_listed
    {α : Type} (view : AddressSpace → Std.ExtTreeMap Nat α) (owner : Owner) (thing : α) :
    (owner, thing) ∈ pager.listed view ↔
      ∃ space, pager.space? owner.pid = some space ∧ (view space)[owner.va]? = some thing := by
  rw [listed, List.mem_flatMap]
  constructor
  · rintro ⟨⟨pid, space⟩, process, listed⟩
    obtain ⟨⟨va, found⟩, entry, same⟩ := List.mem_map.mp listed
    cases same
    rw [Std.ExtTreeMap.mem_toList_iff_getElem?_eq_some] at process entry
    exact ⟨space, process, entry⟩
  · rintro ⟨space, process, entry⟩
    rw [space?, ← Std.ExtTreeMap.mem_toList_iff_getElem?_eq_some] at process
    rw [← Std.ExtTreeMap.mem_toList_iff_getElem?_eq_some] at entry
    exact ⟨(owner.pid, space), process, List.mem_map.mpr ⟨(owner.va, thing), entry, rfl⟩⟩

theorem listed_distinct
    {α : Type} (pager : Pager) (view : AddressSpace → Std.ExtTreeMap Nat α) :
    (pager.listed view).Pairwise fun entry other => entry.1 ≠ other.1 := by
  rw [listed, List.pairwise_flatMap]
  constructor
  · intro process _
    rw [List.pairwise_map]
    apply (view process.2).distinct_keys_toList.imp
    rintro ⟨va, _⟩ ⟨other, _⟩ apart same
    cases same
    exact apart Std.ReflCmp.compare_self
  · apply pager.spaces.distinct_keys_toList.imp
    rintro ⟨pid, _⟩ ⟨other, _⟩ apart _ listed _ otherListed same
    obtain ⟨_, _, rfl⟩ := List.mem_map.mp listed
    obtain ⟨_, _, rfl⟩ := List.mem_map.mp otherListed
    have samePid : pid = other := congrArg Owner.pid same
    exact apart (samePid ▸ Std.ReflCmp.compare_self)

/-- The pages of all processes. -/
def roster (pager : Pager) : List (Owner × Page) :=
  pager.spaces.toList.flatMap fun process =>
    process.2.pages.toList.map fun entry => (⟨process.1, entry.1⟩, entry.2)

theorem mem_roster (pager : Pager) (owner : Owner) (page : Page) :
    (owner, page) ∈ pager.roster ↔ pager.ledger.pages owner = some page :=
  (mem_listed AddressSpace.pages owner page).trans Option.bind_eq_some_iff.symm

theorem roster_distinct (pager : Pager) :
    pager.roster.Pairwise fun entry other => entry.1 ≠ other.1 :=
  pager.listed_distinct AddressSpace.pages

/-- Things that belong to one page each are as many as the pages that hold one. -/
theorem countP_roster
    {key : Page → Option Nat} {taken : Nat → Bool} {bound : Nat}
    (inside : ∀ number, taken number = true → number < bound)
    (taken_iff : ∀ number, taken number = true ↔
      ∃ owner page, pager.ledger.pages owner = some page ∧ key page = some number)
    (unique : ∀ owner other page otherPage number,
      pager.ledger.pages owner = some page → pager.ledger.pages other = some otherPage →
        key page = some number → key otherPage = some number → owner = other) :
    (List.range bound).countP taken =
      pager.roster.countP fun entry => (key entry.2).isSome := by
  have heldOnce : (pager.roster.filterMap fun entry => key entry.2).Nodup := by
    rw [List.Nodup, List.pairwise_filterMap]
    apply pager.roster_distinct.imp_of_mem
    rintro ⟨owner, page⟩ ⟨other, otherPage⟩ listed otherListed apart number held _ otherHeld rfl
    rw [mem_roster] at listed otherListed
    exact apart (unique owner other page otherPage number listed otherListed held otherHeld)
  have same : ((List.range bound).filter taken).Perm
      (pager.roster.filterMap fun entry => key entry.2) := by
    rw [List.perm_ext_iff_of_nodup (List.nodup_range.filter taken) heldOnce]
    intro number
    rw [List.mem_filter, List.mem_range, List.mem_filterMap]
    constructor
    · rintro ⟨_, isTaken⟩
      obtain ⟨owner, page, present, held⟩ := (taken_iff number).mp isTaken
      exact ⟨(owner, page), (mem_roster ..).mpr present, held⟩
    · rintro ⟨⟨owner, page⟩, listed, held⟩
      have isTaken := (taken_iff number).mpr ⟨owner, page, (mem_roster ..).mp listed, held⟩
      exact ⟨inside number isTaken, isTaken⟩
  rw [List.countP_eq_length_filter, same.length_eq, List.length_filterMap_eq_countP]

/-! ## Frames -/

/-- A frame belongs to a page if and only if the page is in it. -/
theorem owner_iff_page
    (sound : pager.ledger.Sound none) (frame : Nat) (owner : Owner) :
    pager.ledger.owners frame = some owner ↔
      ∃ page, pager.ledger.pages owner = some page ∧ page.frame = some frame := by
  constructor
  · exact sound.page_of_owner
  · rintro ⟨page, present, resident⟩
    exact sound.owner_of_page present resident

/-- Every frame is free or holds one page. -/
theorem freeCount_add_resident (sound : pager.ledger.Sound none) :
    pager.frames.freeCount + pager.roster.countP (fun entry => entry.2.isResident) =
      pager.frames.frameCount := by
  have owned := @countP_roster pager Page.frame (fun frame => (pager.ledger.owners frame).isSome)
    pager.frames.frameCount ?inside ?taken_iff ?unique
  case inside =>
    intro frame isSome
    obtain ⟨owner, owned⟩ := Option.isSome_iff_exists.mp isSome
    exact sound.lt_frameCount owned
  case taken_iff =>
    intro frame
    rw [Option.isSome_iff_exists]
    exact exists_congr fun owner => owner_iff_page sound frame owner
  case unique =>
    intro owner other page otherPage frame present otherPresent resident otherResident
    have owned := sound.owner_of_page present resident
    rw [sound.owner_of_page otherPresent otherResident] at owned
    cases owned
    rfl
  have free : pager.ledger.free.Perm ((List.range pager.frames.frameCount).filter fun frame =>
      !(pager.ledger.owners frame).isSome) := by
    rw [List.perm_ext_iff_of_nodup sound.listed.nodup (List.nodup_range.filter _)]
    intro frame
    rw [List.mem_filter, List.mem_range, sound.listed.mem_free frame]
    simp [ledger]
  have counted : pager.frames.freeCount = (List.range pager.frames.frameCount).countP fun frame =>
      !(pager.ledger.owners frame).isSome := by
    rw [List.countP_eq_length_filter]
    exact free.length_eq
  have total := (List.range pager.frames.frameCount).length_eq_countP_add_countP fun frame =>
    (pager.ledger.owners frame).isSome
  rw [List.length_range, owned] at total
  simp only [Bool.not_eq_true, Bool.decide_eq_false] at total
  rw [counted, Nat.add_comm]
  exact total.symm

/-! ## Slots -/

theorem slot?_isSome
    {owner : Owner} {page : Page} (sound : pager.ledger.Sound none)
    (present : pager.ledger.pages owner = some page) :
    page.kind.slot?.isSome = page.isSwapped := by
  rw [Page.isSwapped, Page.isResident]
  cases kind : page.kind with
  | pending load => rfl
  | file range => rfl
  | anonymous held =>
      cases held with
      | none =>
          have resident := sound.slots.resident owner page present kind
          obtain ⟨frame, found⟩ := Option.ne_none_iff_exists'.mp resident
          simp [PageKind.slot?, found]
      | some slot =>
          have absent := (sound.slots.slot_of_page owner page slot present kind).2
          simp [PageKind.slot?, absent]

theorem count_used (sound : pager.ledger.Sound none) :
    pager.swap.used.count = pager.roster.countP fun entry => entry.2.isSwapped := by
  have padded : pager.swap.used.IsPadded := sound.slots.inside
  have counted := @countP_roster pager (fun page => page.kind.slot?) pager.swap.used.get
    pager.swap.used.size padded ?taken_iff ?unique
  case taken_iff =>
    intro slot
    constructor
    · intro used
      obtain ⟨owner, page, present, held⟩ := sound.slots.page_of_slot slot used
      exact ⟨owner, page, present, PageKind.slot?_eq_some_iff.mpr held⟩
    · rintro ⟨owner, page, present, held⟩
      exact (sound.slots.slot_of_page owner page slot present
        (PageKind.slot?_eq_some_iff.mp held)).1
  case unique =>
    intro owner other page otherPage slot present otherPresent held otherHeld
    exact sound.slots.unique owner other page otherPage slot present otherPresent
      (PageKind.slot?_eq_some_iff.mp held) (PageKind.slot?_eq_some_iff.mp otherHeld)
  rw [padded.count_eq, counted]
  apply List.countP_congr
  rintro ⟨owner, page⟩ listed
  rw [slot?_isSome sound ((mem_roster ..).mp listed)]

/-- Every slot is free or holds one page. -/
theorem freeSlots_add_swapped (sound : pager.ledger.Sound none) :
    pager.swap.freeSlots + pager.roster.countP (fun entry => entry.2.isSwapped) =
      pager.swap.slotCount := by
  have padded : pager.swap.used.IsPadded := sound.slots.inside
  have below := padded.count_le
  rw [← count_used sound, SwapSpace.freeSlots, SwapSpace.slotCount]
  omega

theorem roster_of_isEmpty (empty : pager.spaces.isEmpty = true) : pager.roster = [] := by
  rw [roster, Std.ExtTreeMap.isEmpty_iff.mp empty]
  rfl

end Pager

end DemandPaging
