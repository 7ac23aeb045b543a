import DemandPaging.Proofs.Handles
import Mathlib.Data.Set.Finite.Lattice

/-!
# Balances of handles

Handles of a file are held by pages and regions, or they are loose: a program has one in hand, or somebody
outside the virtual memory has. Opening and closing changes the loose handles; a page or region that is
recorded takes one of them, and one that goes leaves its handle behind.
-/

namespace DemandPaging

/-- One handle of the file that is named, and none of every other file. -/
def inHand (handle? : Option FileId) (file : FileId) : Nat :=
  if handle? = some file then 1 else 0

/-- One handle for each region. -/
def inHandAll (regions : List Region) (file : FileId) : Nat :=
  regions.countP fun region => region.file == file

@[simp]
theorem inHand_none : inHand none = 0 :=
  funext fun _ => if_neg nofun

@[simp]
theorem inHandAll_nil : inHandAll [] = 0 :=
  rfl

theorem inHandAll_cons (region : Region) (rest : List Region) :
    inHandAll (region :: rest) = inHandAll rest + inHand (some region.file) := by
  funext file
  simp only [inHandAll, List.countP_cons, beq_iff_eq, Pi.add_apply, inHand, Option.some.injEq]

theorem inHand_update (handle? : Option FileId) (handles : FileId → Nat) (file : FileId)
    (names : handle? = some file) :
    handles + inHand handle? = Function.update handles file (handles file + 1) := by
  funext other
  subst names
  by_cases same : other = file
  · subst same
    simp [inHand]
  · simp [inHand, Ne.symm same, same]

namespace FileTable

variable {table : FileTable} {file : FileId}

theorem handles_reopen_of_opened (opened : (table.reopen file).2 = true) :
    (table.reopen file).1.handles = table.handles + inHand (some file) := by
  unfold reopen at opened ⊢
  cases found : table.get? file with
  | none => simp [found] at opened
  | some old =>
      rw [found] at opened
      have opens : old.opens = true := opened
      simp only [handles_put found, BackingFile.reopen, if_pos opens]
      rw [inHand_update _ _ _ rfl, handles_of_get? found]

theorem handles_reopen_of_refused (refused : (table.reopen file).2 = false) :
    (table.reopen file).1.handles = table.handles := by
  unfold reopen at refused ⊢
  cases found : table.get? file with
  | none => rfl
  | some old =>
      rw [found] at refused
      have closed : old.opens = false := refused
      apply handles_put_of_same found
      simp [BackingFile.reopen, closed]

end FileTable

namespace Pager

variable {before after pager : Pager} {pid : Pid} {holder : Holder} {handle? : Option FileId}
  {file : FileId}

/-! ## Everything that is held -/

/-- The pages and regions of all processes that hold a handle of a file. -/
def allHolders (pager : Pager) (file : FileId) : Set Holder :=
  {holder | pager.handleAt holder = some file}

/-- The number of handles of a file that pages and regions hold. -/
noncomputable def held (pager : Pager) (file : FileId) : Nat :=
  (pager.allHolders file).ncard

theorem finite_allHolders (pager : Pager) (file : FileId) : (pager.allHolders file).Finite := by
  have pids : Set.Finite {pid | pid ∈ pager.spaces.keys} := List.finite_toSet pager.spaces.keys
  apply (pids.biUnion fun pid _ => pager.finite_holders pid file).subset
  intro holder holds
  refine Set.mem_biUnion ?_ (show holder ∈ pager.holders holder.pid file from ⟨rfl, holds⟩)
  show holder.pid ∈ pager.spaces.keys
  rw [Std.ExtTreeMap.mem_keys, Std.ExtTreeMap.mem_iff_isSome_getElem?, Option.isSome_iff_ne_none]
  intro absent
  cases (handleAt_of_absent absent).symm.trans holds

/-- Where one process alone gains and loses, all handles held change as the process's do. -/
theorem held_of_others
    (others : ∀ holder, holder.pid ≠ pid → after.handleAt holder = before.handleAt holder)
    (file : FileId) :
    after.held file + before.handlesOf pid file = before.held file + after.handlesOf pid file := by
  have split (pager : Pager) :
      (pager.allHolders file \ pager.holders pid file).ncard + pager.handlesOf pid file =
        pager.held file :=
    Set.ncard_sdiff_add_ncard_of_subset (fun _ => And.right) (pager.finite_allHolders file)
  have same : after.allHolders file \ after.holders pid file =
      before.allHolders file \ before.holders pid file := by
    ext holder
    by_cases own : holder.pid = pid
    · simp [allHolders, holders, own]
    · simp [allHolders, holders, own, others holder own]
  have now := split after
  have earlier := split before
  rw [same] at now
  omega

/-- What begins to hold a handle adds it to those that are held. -/
theorem held_update
    (free : before.handleAt holder = none)
    (given : after.handleAt = Function.update before.handleAt holder handle?) :
    after.held = before.held + inHand handle? := by
  funext file
  rw [Pi.add_apply, inHand]
  split
  · rename_i names
    have added : after.allHolders file = insert holder (before.allHolders file) := by
      ext there
      by_cases here : there = holder <;> simp [allHolders, given, here, names]
    have fresh : holder ∉ before.allHolders file := fun holds => by
      cases free.symm.trans holds
    rw [held, held, added, Set.ncard_insert_of_notMem fresh (before.finite_allHolders file)]
  · rename_i other
    have kept : after.allHolders file = before.allHolders file := by
      ext there
      by_cases here : there = holder
      · subst here
        simp [allHolders, given, free, other]
      · simp [allHolders, given, here]
    rw [held, kept]
    rfl

/-! ## Balances -/

/-- The open handles of every file are those that pages and regions hold and the loose ones. -/
def Balances (pager : Pager) (loose : FileId → Nat) : Prop :=
  pager.files.handles = loose + pager.held

variable {loose : FileId → Nat}

namespace Balances

theorem congr
    (balances : before.Balances loose) (holds : after.handleAt = before.handleAt)
    (same : after.files.handles = before.files.handles) : after.Balances loose := by
  have held : after.held = before.held := by
    funext file
    rw [Pager.held, Pager.held, allHolders, allHolders, holds]
  rw [Balances, same, held]
  exact balances

/-- Closing a handle takes it from the loose ones. -/
theorem close (balances : pager.Balances (loose + inHand (some file))) :
    (pager.closeFile file).Balances loose := by
  show (pager.files.close file).handles = loose + pager.held
  rw [FileTable.handles_close, balances]
  funext other
  by_cases same : other = file
  · subst same
    simp [inHand]
  · simp [inHand, same, Ne.symm same]

theorem closeHandle {page : Page} (balances : pager.Balances (loose + inHand page.kind.handle?)) :
    (pager.closeHandle page).Balances loose := by
  unfold Pager.closeHandle
  cases holds : page.kind.handle? with
  | none =>
      rw [holds, inHand_none, add_zero] at balances
      exact balances
  | some file =>
      rw [holds] at balances
      exact balances.close

/-- Opening a handle adds it to the loose ones, if it succeeds. -/
theorem reopen (balances : pager.Balances loose) (file : FileId) :
    Balances { pager with files := (pager.files.reopen file).1 }
      (bif (pager.files.reopen file).2 then loose + inHand (some file) else loose) := by
  show (pager.files.reopen file).1.handles = _ + pager.held
  cases outcome : (pager.files.reopen file).2 with
  | true =>
      rw [FileTable.handles_reopen_of_opened outcome, balances]
      exact add_right_comm ..
  | false =>
      rw [FileTable.handles_reopen_of_refused outcome]
      exact balances

/-- What begins to hold a handle takes it from the loose ones. -/
theorem take
    (balances : before.Balances (loose + inHand handle?)) (free : before.handleAt holder = none)
    (given : after.handleAt = Function.update before.handleAt holder handle?)
    (same : after.files.handles = before.files.handles) : after.Balances loose := by
  rw [Balances, same, balances, held_update free given, add_right_comm, add_assoc]

/-- What no longer holds its handle leaves it to the loose ones. -/
theorem leave
    (balances : before.Balances loose) (gone : after.handleAt holder = none)
    (given : after.handleAt = Function.update before.handleAt holder none)
    (same : after.files.handles = before.files.handles) :
    after.Balances (loose + inHand (before.handleAt holder)) := by
  have back : before.handleAt = Function.update after.handleAt holder (before.handleAt holder) := by
    rw [given, Function.update_idem, Function.update_eq_self]
  rw [Balances, same, balances, held_update gone back, add_right_comm, add_assoc]

/-- A process that gives up handles that are closed leaves the balance as it is. -/
theorem givesUp (balances : before.Balances loose) (given : GivesUp pid before after) :
    after.Balances loose := by
  funext file
  obtain ⟨count, closed, kept⟩ := given.closed file
  have held := held_of_others given.others file
  have was := congrFun balances file
  rw [Pi.add_apply] at was ⊢
  omega

end Balances

/-! ## Changes that move no handle -/

/-- A space may change in what is neither a page nor a region. -/
theorem handleAt_modifySpace
    {change : AddressSpace → AddressSpace} (pid : Pid)
    (pages : ∀ space, (change space).pages = space.pages)
    (regions : ∀ space, (change space).regions = space.regions) :
    (pager.modifySpace pid change).handleAt = pager.handleAt := by
  funext holder
  cases holder with
  | page owner =>
      have same : (pager.modifySpace pid change).ledger.pages = pager.ledger.pages :=
        pager.shown_modifySpace_of_same pid fun space va => by rw [pages]
      rw [handleAt, handleAt, same]
  | region other base =>
      have same : (pager.modifySpace pid change).region? other base = pager.region? other base := by
        rw [region?, region?, layout?, layout?, space?_modifySpace]
        split
        · cases pager.space? other with
          | none => rfl
          | some space => simp [AddressSpace.layout, regions]
        · rfl
      rw [handleAt, handleAt, same]

end Pager

end DemandPaging
