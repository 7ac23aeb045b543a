import DemandPaging.Proofs.CountedRuns
import DemandPaging.Proofs.Handouts
import DemandPaging.Proofs.KeptPages
import DemandPaging.Proofs.Regions

/-!
# The paging counters balance

Every counter is the number of notes of one kind. So what left the frames is accounted for: a page of
anonymous memory that was stored in a slot was fetched from it again, or is still there, or ended there,
and a page of a file that was changed was written, or its changes were lost.
-/

namespace DemandPaging

/-! ## What is counted -/

def PageKind.isFile : PageKind → Bool
  | file _ => true
  | _ => false

namespace Activity

/-- A page gave up its frame to another page. -/
def isEviction : Activity → Bool
  | evicted .. => true
  | _ => false

/-- A page of a file gave up its frame to another page. -/
def isFileEviction : Activity → Bool
  | evicted _ kind _ => kind.isFile
  | _ => false

/-- A page got a frame when no frame was free. -/
def isTaking : Activity → Bool
  | assigned _ _ wasFree => !wasFree
  | _ => false

/-- A page was fetched from its slot. -/
def isSwapIn : Activity → Bool
  | fetched _ kind succeeded => kind.slot?.isSome && succeeded
  | _ => false

/-- A page ended while its content was in a slot. -/
def isSwappedEnd : Activity → Bool
  | discarded _ page _ => page.kind.slot?.isSome
  | _ => false

/-- A page of a file that was changed gave up its frame to another page, or ended. -/
def isDirtyEnd : Activity → Bool
  | evicted _ kind dirty => kind.isFile && dirty
  | discarded _ page dirty => page.kind.isFile && dirty
  | _ => false

/-- A page was written to its file. -/
def isWriteBack : Activity → Bool
  | wroteBack _ _ succeeded => succeeded
  | _ => false

/-- The changes of a page could not be written to its file. -/
def isLostWrite : Activity → Bool
  | wroteBack _ _ succeeded => !succeeded
  | _ => false

end Activity

/-- Counters agree with the number of slots in use and with what was noted. -/
structure Counters.Balance (counters : Counters) (used : Nat) (journal : List Activity) : Prop where
  evictions : counters.evictions = journal.countP Activity.isEviction
  takings : counters.evictions = journal.countP Activity.isTaking
  kinds : counters.evictions = counters.swapOuts + journal.countP Activity.isFileEviction
  swapIns : counters.swapIns = journal.countP Activity.isSwapIn
  slots : counters.swapOuts = counters.swapIns + used + journal.countP Activity.isSwappedEnd
  writeBacks : counters.writeBacks = journal.countP Activity.isWriteBack
  changes : journal.countP Activity.isDirtyEnd =
    counters.writeBacks + journal.countP Activity.isLostWrite

/-! ## What keeps the balance -/

section Activities

attribute [local simp] List.countP_cons Activity.isEviction Activity.isFileEviction Activity.isTaking
  Activity.isSwapIn Activity.isSwappedEnd Activity.isDirtyEnd Activity.isWriteBack Activity.isLostWrite

namespace Activity

/-- Nothing that is counted happened. -/
def isUncounted (activity : Activity) : Bool :=
  !(activity.isEviction || activity.isTaking || activity.isSwapIn || activity.isSwappedEnd ||
    activity.isDirtyEnd || activity.isWriteBack || activity.isLostWrite)

theorem isFileEviction_of_not_isEviction
    {activity : Activity} (kept : activity.isEviction = false) : activity.isFileEviction = false := by
  cases activity with
  | evicted => cases kept
  | _ => rfl

theorem isUncounted_fetched
    {kind : PageKind} {succeeded : Bool} (uncounted : kind.slot? = none ∨ succeeded = false)
    (owner : Owner) : (fetched owner kind succeeded).isUncounted = true := by
  rcases uncounted with without | rfl
  · simp [isUncounted, without]
  · simp [isUncounted]

theorem isUncounted_discarded
    {page : Page} {dirty : Bool} (without : page.kind.slot? = none)
    (saved : page.kind.isFile = false ∨ dirty = false) (owner : Owner) :
    (discarded owner page dirty).isUncounted = true := by
  rcases saved with plain | rfl
  · simp [isUncounted, without, plain]
  · simp [isUncounted, without]

end Activity

namespace Counters.Balance

attribute [local simp] PageKind.isFile PageKind.slot?

variable {counters : Counters} {used : Nat} {journal : List Activity} {owner victim : Owner}
  {frame slot : Nat} {dirty : Bool} {kind : PageKind} {range : FileRange} {page : Page}

theorem start : Balance {} 0 [] := by
  constructor <;> rfl

theorem uncounted
    {activity : Activity} (balance : Balance counters used journal)
    (quiet : activity.isUncounted = true) : Balance counters used (activity :: journal) := by
  simp only [Activity.isUncounted, Bool.not_eq_true', Bool.or_eq_false_iff] at quiet
  obtain ⟨⟨⟨⟨⟨⟨evicts, takes⟩, fetches⟩, ends⟩, changes⟩, writes⟩, loses⟩ := quiet
  have file := Activity.isFileEviction_of_not_isEviction evicts
  obtain ⟨h1, h2, h3, h4, h5, h6, h7⟩ := balance
  constructor <;>
    simpa only [List.countP_cons, evicts, takes, fetches, ends, changes, writes, loses, file,
      Bool.false_eq_true, if_false, Nat.add_zero]

/-- A page of anonymous memory was stored in a slot and gave up its frame. -/
theorem swappedOut
    (balance : Balance counters used journal) (transfers : List Transfer) (reserved : Bool) :
    Balance { counters with swapOuts := counters.swapOuts + 1, evictions := counters.evictions + 1 }
      (used + 1)
      (.assigned owner frame false :: .evicted victim (.anonymous none) dirty ::
        .swapped victim .write slot reserved transfers :: journal) := by
  obtain ⟨evictions, takings, kinds, swapIns, slots, writeBacks, changes⟩ := balance
  constructor <;> simp <;> omega

/-- A page of a file that was not changed gave up its frame. -/
theorem leftFrame (balance : Balance counters used journal) :
    Balance { counters with evictions := counters.evictions + 1 } used
      (.assigned owner frame false :: .evicted victim (.file range) false :: journal) := by
  obtain ⟨evictions, takings, kinds, swapIns, slots, writeBacks, changes⟩ := balance
  constructor <;> simp <;> omega

/-- A page of a file that was changed gave up its frame, and its changes were written or lost. -/
theorem leftFrameChanged (balance : Balance counters used journal) (written : Bool) :
    Balance
      { counters with
        writeBacks := if written then counters.writeBacks + 1 else counters.writeBacks
        evictions := counters.evictions + 1 } used
      (.assigned owner frame false :: .evicted victim (.file range) true ::
        .wroteBack victim range written :: journal) := by
  obtain ⟨evictions, takings, kinds, swapIns, slots, writeBacks, changes⟩ := balance
  cases written <;> constructor <;> simp <;> omega

/-- A page was fetched from its slot, which is free now. -/
theorem swappedIn (balance : Balance counters (used + 1) journal) :
    Balance { counters with swapIns := counters.swapIns + 1 } used
      (.fetched owner (.anonymous (some slot)) true :: journal) := by
  obtain ⟨evictions, takings, kinds, swapIns, slots, writeBacks, changes⟩ := balance
  constructor <;> simp <;> omega

/-- A page ended in its slot, which is free now. -/
theorem endedInSlot
    (balance : Balance counters (used + 1) journal) (held : page.kind = .anonymous (some slot)) :
    Balance counters used (.discarded owner page dirty :: journal) := by
  obtain ⟨evictions, takings, kinds, swapIns, slots, writeBacks, changes⟩ := balance
  constructor <;> simp [held] <;> omega

/-- A page of a file that was changed ended, and its changes were written or lost. -/
theorem endedChanged
    (balance : Balance counters used journal) (file : page.kind = .file range) (written : Bool) :
    Balance
      { counters with
        writeBacks := if written then counters.writeBacks + 1 else counters.writeBacks } used
      (.wroteBack owner range written :: .discarded owner page true :: journal) := by
  obtain ⟨evictions, takings, kinds, swapIns, slots, writeBacks, changes⟩ := balance
  cases written <;> constructor <;> simp [file] <;> omega

end Counters.Balance

end Activities

/-! ## Turns -/

namespace Pager

variable {before held after pager saved : Pager} {deed : Deed} {allowed : Deed → Prop} {owner : Owner}
  {page : Page} {frame : Nat}

/-- Whether the counters of a pager agree with its slots and with its journal. -/
def IsBalanced (pager : Pager) : Prop :=
  pager.counters.Balance pager.swap.used.count pager.journal

theorem padded_of_sound {flying : Option (Owner × Nat)} (sound : pager.ledger.Sound flying) :
    pager.swap.used.IsPadded :=
  sound.slots.inside

theorem isBalanced_selected (balanced : before.IsBalanced) : before.selected.IsBalanced := by
  rw [IsBalanced, counters_selected, swap_selected, journal_selected]
  exact balanced

theorem Acquires.isBalanced
    (acquires : before.Acquires owner frame held) (sound : before.ledger.Sound none)
    (balanced : before.IsBalanced) : held.IsBalanced := by
  cases acquires with
  | free taken => exact balanced.uncounted rfl
  | evicted full chosen present resident saves =>
      rename_i victim page saved
      have selected := isBalanced_selected balanced
      have padded : before.selected.swap.used.IsPadded := by
        rw [swap_selected]
        exact padded_of_sound sound
      generalize before.selected = moved at saves selected padded
      cases saves with
      | toSlot anonymous taken complete =>
          rename_i slot reserved stored
          obtain ⟨inside, clear, rfl⟩ := reserve?_eq_some taken
          have used : stored.used = moved.swap.used.insert slot := by
            have kept := SwapSpace.used_store { moved.swap with used := moved.swap.used.insert slot } slot
              (moved.frames.image frame)
            rw [complete] at kept
            exact kept
          have counted : stored.used.count = moved.swap.used.count + 1 := by
            rw [used]
            exact padded.count_insert inside clear
          have balance := @Counters.Balance.swappedOut _ _ _ owner victim frame slot
            ((moved.table victim.pid).isDirty victim.va) selected (stored.transfersSince
              { moved.swap with used := moved.swap.used.insert slot })
                ((moved.swap.used.insert slot).get slot)
          rw [← counted, ← anonymous] at balance
          exact balance
      | toFile file =>
          rename_i range
          cases dirty : (moved.table victim.pid).isDirty victim.va with
          | false =>
              rw [writeBack_of_clean dirty, file]
              exact selected.leftFrame
          | true =>
              rw [writeBack_of_dirty dirty, file]
              exact selected.leftFrameChanged _

/-- A fetch that comes from no slot, or fails, counts for nothing. -/
theorem isBalanced_putFetched
    {kind : PageKind} {fetched : Fetched} (balanced : pager.IsBalanced)
    (used : fetched.swap.used = pager.swap.used)
    (uncounted : kind.slot? = none ∨ fetched.kind = none) :
    (pager.putFetched owner kind frame fetched).IsBalanced := by
  rw [IsBalanced, counters_putFetched, swap_putFetched, used]
  refine Counters.Balance.uncounted ?_ ?_
  · unfold noteTransfers noteLoad
    dsimp only
    split <;> split
    · exact (balanced.uncounted rfl).uncounted rfl
    · exact balanced.uncounted rfl
    · exact balanced.uncounted rfl
    · exact balanced
  · refine Activity.isUncounted_fetched (uncounted.imp_right fun failed => ?_) owner
    rw [failed]
    rfl

theorem Arrives.isBalanced
    (arrives : held.Arrives owner frame after) (sound : held.ledger.Sound (some (owner, frame)))
    (balanced : held.IsBalanced) : after.IsBalanced := by
  cases arrives with
  | intro found present absent installed fetch complete =>
      rename_i space page table fetched kind
      have attached : (held.attached owner frame table).IsBalanced := balanced
      cases slotFound : page.kind.slot? with
      | none =>
          have used : fetched.swap.used = held.swap.used := by
            rw [← fetch, PageKind.fetch_swap slotFound]
          have put := @isBalanced_putFetched _ owner frame page.kind fetched attached used
            (Or.inl slotFound)
          simp only [IsBalanced, becomeFetched, slotFound, Option.isSome_none, Bool.false_eq_true,
            if_false]
          exact put
      | some slot =>
          have outcome := @PageKind.fetch_slot page.kind held.swap held.files
            (held.frames.image frame) slot slotFound
          rw [fetch] at outcome
          rcases outcome with ⟨used, _, _⟩ | ⟨_, failed⟩
          · have anonymous := PageKind.slot?_eq_some_iff.mp slotFound
            have isSet := (sound.slots.slot_of_page owner page slot present anonymous).1
            have freed := (padded_of_sound sound).count_erase isSet
            rw [← used] at freed
            have moved : held.counters.Balance held.swap.used.count (.swapped owner .read slot
                (held.swap.used.get slot) (fetched.swap.transfersSince held.swap) :: held.journal) :=
              balanced.uncounted rfl
            rw [← freed] at moved
            have balance := @Counters.Balance.swappedIn _ _ _ owner slot moved
            simp only [IsBalanced, becomeFetched, anonymous, PageKind.slot?, Option.isSome_some, if_true]
            have succeeded : fetched.kind.isSome = true := by rw [complete]; rfl
            rw [← succeeded] at balance
            exact balance
          · rw [complete] at failed
            cases failed

theorem Returns.isBalanced (returns : held.Returns owner frame after) (balanced : held.IsBalanced) :
    after.IsBalanced := by
  cases returns with
  | intro found present absent installed fetch incomplete =>
      rename_i space page table fetched
      have used : fetched.swap.used = held.swap.used := by
        rw [← fetch] at incomplete ⊢
        cases slotFound : page.kind.slot? with
        | none => rw [PageKind.fetch_swap slotFound]
        | some slot =>
            rcases PageKind.fetch_slot slotFound with ⟨_, _, complete⟩ | ⟨used, _⟩
            · rw [complete] at incomplete
              cases incomplete
            · exact used
      have attached : (held.attached owner frame table).IsBalanced := balanced
      exact @isBalanced_putFetched _ owner frame page.kind fetched attached used (Or.inr incomplete)

/-- What a page gives back besides its slot counts for nothing. -/
theorem isBalanced_freed (balanced : pager.IsBalanced) (owner : Owner) (page : Page) :
    (((pager.discardFrame owner page).closeHandle page).erasePage owner).IsBalanced := by
  unfold closeHandle discardFrame
  split <;> split <;> exact balanced

/-- A page without a slot that was not changed in a file ends, and nothing is counted. -/
theorem isBalanced_noted
    {dirty : Bool} (balanced : pager.IsBalanced) (without : page.kind.slot? = none)
    (saved : page.kind.isFile = false ∨ dirty = false) :
    (pager.note (.discarded owner page dirty)).IsBalanced :=
  balanced.uncounted (Activity.isUncounted_discarded without saved owner)

theorem isBalanced_discardSaved
    {range : FileRange} (balanced : pager.IsBalanced) (sound : pager.ledger.Sound none)
    (tidy : pager.Tidy) (present : pager.ledger.pages owner = some page)
    (file : page.kind = .file range) :
    ((pager.note (.discarded owner page
      ((pager.table owner.pid).isDirty owner.va))).discardSaved owner page).IsBalanced := by
  have aligned := (sound.placed owner page present).aligned
  have without : page.kind.slot? = none := by rw [file]; rfl
  have settled {dirty : Bool} (clean : dirty = false) :
      (pager.note (.discarded owner page dirty)).IsBalanced :=
    isBalanced_noted balanced without (Or.inr clean)
  generalize isDirty : (pager.table owner.pid).isDirty owner.va = dirty
  cases resident : page.frame with
  | none =>
      have vacant : pager.dirtyOf owner = none := dirtyOf_of_vacant sound fun other there => by
        cases there.symm.trans present
        exact resident
      have clean : dirty = false := by
        rw [← isDirty, isDirty_eq aligned, vacant]
        rfl
      simp only [discardSaved, file, resident]
      exact settled clean
  | some frame =>
      simp only [discardSaved, file, resident]
      cases dirty with
      | false =>
          have clean : ((pager.note (.discarded owner page false)).table owner.pid).isDirty owner.va =
            false := isDirty
          rw [writeBack_of_clean clean, ite_self]
          exact settled rfl
      | true =>
          obtain ⟨marked, there, writable⟩ := tidy.marked owner ((isDirty_iff aligned).mp isDirty)
          cases there.symm.trans present
          have changed : ((pager.note (.discarded owner page true)).table owner.pid).isDirty owner.va =
            true := isDirty
          rw [if_pos writable, writeBack_of_dirty changed]
          exact Counters.Balance.endedChanged balanced file _

theorem isBalanced_discarded
    (balanced : pager.IsBalanced) (sound : pager.ledger.Sound none) (tidy : pager.Tidy)
    (present : pager.ledger.pages owner = some page) : (pager.discarded owner page).IsBalanced := by
  refine isBalanced_freed ?_ owner page
  cases kind : page.kind with
  | file range =>
      simp only [discardSlot, kind, PageKind.slot?]
      exact isBalanced_discardSaved balanced sound tidy present kind
  | pending load =>
      simp only [discardSlot, discardSaved, kind, PageKind.slot?]
      exact isBalanced_noted balanced (by rw [kind]; rfl) (Or.inl (by rw [kind]; rfl))
  | anonymous held =>
      cases held with
      | none =>
          simp only [discardSlot, discardSaved, kind, PageKind.slot?]
          exact isBalanced_noted balanced (by rw [kind]; rfl) (Or.inl (by rw [kind]; rfl))
      | some slot =>
          have isSet := (sound.slots.slot_of_page owner page slot present kind).1
          have freed := (padded_of_sound sound).count_erase isSet
          rw [IsBalanced, ← freed] at balanced
          simp only [discardSlot, discardSaved, kind, PageKind.slot?]
          exact balanced.endedInSlot kind

theorem Turn.isBalanced
    (turn : Turn deed before after) (sound : before.ledger.Sound none) (tidy : before.Tidy)
    (told : deed ≠ .counted) (balanced : before.IsBalanced) : after.IsBalanced := by
  cases turn with
  | counted => exact absurd rfl told
  | discarded present => exact isBalanced_discarded balanced sound tidy present
  | claimed present absent acquires arrives =>
      obtain ⟨flying, _⟩ := (acquires.moves sound).sound sound present absent
      exact arrives.isBalanced flying (acquires.isBalanced sound balanced)
  | missed present absent acquires returns =>
      exact returns.isBalanced (acquires.isBalanced sound balanced)
  | _ => exact balanced

theorem Runs.isBalanced
    (runs : Runs allowed before after) (sound : before.ledger.Sound none) (tidy : before.Tidy)
    (told : ¬ allowed .counted) (balanced : before.IsBalanced) : after.IsBalanced := by
  induction runs with
  | refl => exact balanced
  | tail runs permitted turn inductionHypothesis =>
      exact turn.isBalanced (runs.sound sound) (runs.tidy sound tidy)
        (fun counted => told (counted ▸ permitted)) inductionHypothesis

/-- Page faults that are counted change nothing in the balance. -/
theorem isBalanced_faulted (balanced : pager.IsBalanced) : pager.faulted.IsBalanced := by
  obtain ⟨evictions, takings, kinds, swapIns, slots, writeBacks, changes⟩ := balanced
  exact ⟨evictions, takings, kinds, swapIns, slots, writeBacks, changes⟩

theorem CountedRun.isBalanced
    {faults : Nat} (counts : CountedRun before faults after) (sound : before.ledger.Sound none)
    (tidy : before.Tidy) (balanced : before.IsBalanced) : after.IsBalanced := by
  induction counts with
  | refl => exact balanced
  | reaches counts reaches told inductionHypothesis =>
      have earlier := (counts.anyway sound).runs
      exact reaches.runs.isBalanced (earlier.sound sound) (earlier.tidy sound tidy) told
        inductionHypothesis
  | fault _ inductionHypothesis => exact isBalanced_faulted inductionHypothesis

end Pager

/-! ## Frames that were free -/

namespace Pager

variable {before held : Pager} {owner : Owner} {frame : Nat}

/-- A frame is taken from another page only if none is free. -/
theorem Acquires.evictions (acquires : before.Acquires owner frame held) :
    held.counters.evictions =
      before.counters.evictions + if before.frames.free = [] then 1 else 0 := by
  cases acquires with
  | free taken =>
      have some : before.frames.free ≠ [] := fun none => by
        rw [FramePool.takeFree?, none] at taken
        cases taken
      rw [if_neg some]
      rfl
  | evicted full chosen present resident saves =>
      rename_i victim page saved
      have kept : saved.counters.evictions = before.counters.evictions := by
        rw [← before.counters_selected]
        cases saves with
        | toSlot => rfl
        | toFile =>
            unfold writeBack
            split <;> rfl
      rw [if_pos full, ← kept]
      rfl

end Pager

/-! ## Pages that end in their slots -/

theorem PageKind.slot?_of_mapped
    {kind : PageKind} {range : FileRange} (mapped : kind.mapped? = some range) : kind.slot? = none := by
  cases kind with
  | anonymous => cases mapped
  | _ => rfl

namespace Pager

open PagerM

variable {before after : Pager} {allowed : Deed → Prop} {deed : Deed} {owner : Owner} {page : Page}
  {dirty : Bool} {journal : List Activity} {call : Call} {config : Config} {events : List Event}
  {outcome : Except PagingError Answer}

/-- A page that is noted to have ended was discarded in a turn of the run. -/
theorem Runs.discards
    (runs : Runs allowed before after) (sound : before.ledger.Sound none)
    (noted : after.journal = journal ++ before.journal) (member : .discarded owner page dirty ∈ journal) :
    ∃ moment, Runs allowed before moment ∧ moment.pageOf owner = some page ∧
      allowed (.discarded owner page) := by
  induction runs generalizing journal with
  | refl =>
      rw [List.append_left_eq_self.mp noted.symm] at member
      cases member
  | @tail middle after deed runs permitted turn inductionHypothesis =>
      obtain ⟨earlier, notedFirst⟩ := runs.journal sound
      obtain ⟨later, accounts⟩ := turn.accounts (runs.sound sound)
      rw [accounts.noted, notedFirst, ← List.append_assoc, List.append_cancel_right_eq] at noted
      rw [← noted] at member
      rcases List.mem_append.mp member with second | first
      · by_cases kept : ∀ other, deed ≠ .discarded owner other
        · exact absurd second (turn.undiscarded (runs.sound sound) accounts.noted kept page dirty)
        · obtain ⟨other, isDiscarded⟩ := not_forall_not.mp kept
          subst isDiscarded
          cases turn with
          | discarded present =>
              obtain ⟨transfers, are, told⟩ := middle.journal_discarded owner other
              rw [accounts.noted, List.append_cons, List.append_cancel_right_eq] at told
              rw [told] at second
              rcases List.mem_append.mp second with transfer | single
              · exact absurd (are _ transfer) id
              · cases List.mem_singleton.mp single
                exact ⟨middle, runs, present, permitted⟩
      · exact inductionHypothesis notedFirst first

/-- A page that belongs to a region maps its part of the file. -/
theorem mapped_of_region
    {base : Nat} (sound : before.ledger.Sound none) (agrees : before.RegionAgrees owner.pid base)
    (present : before.pageOf owner = some page) (belongs : page.region = some base) :
    ∃ range, page.kind.mapped? = some range := by
  obtain ⟨region, recorded, above, below⟩ := agrees.within owner.va page present belongs
  have same := agrees.keyed region recorded
  subst same
  have aligned := (sound.placed owner page present).aligned
  obtain ⟨index, inside, here⟩ := (agrees.placed region recorded).exists_index aligned above below
  obtain ⟨other, there, part⟩ := agrees.covered region recorded index inside
  rw [← here] at there
  cases present.symm.trans there
  obtain ⟨range, mapped, _⟩ := part.mapped
  exact ⟨range, mapped⟩

/-- As long as a call goes well pages end in their slots by an exit only: a mapping that is removed holds
pages of a file. -/
theorem Runs.exits_of_swapped
    (runs : Runs (call.Does before) before after) (sound : before.ledger.Sound none)
    (agrees : ∀ pid base, before.RegionAgrees pid base)
    (noted : after.journal = journal ++ before.journal) (member : .discarded owner page dirty ∈ journal)
    (swapped : page.kind.slot? ≠ none) : call = .exitProcess owner.pid := by
  obtain ⟨moment, begun, present, does⟩ := runs.discards sound noted member
  have unmapped (range : FileRange) : page.kind.mapped? ≠ some range := fun mapped =>
    swapped (PageKind.slot?_of_mapped mapped)
  cases call with
  | exitProcess pid => exact congrArg Call.exitProcess (Eq.symm does)
  | map pid base length writable file offset =>
      rcases begun.origin sound present with ⟨old, there, _⟩ | ⟨laid, lays, continues⟩
      · cases does.2.symm.trans there
      · obtain ⟨_, _, _, range, pending, _⟩ := lays
        refine absurd ?_ (unmapped range)
        rw [continues.mapped, pending]
        rfl
  | unmap pid base =>
      rcases begun.origin sound present with ⟨old, there, continues⟩ | ⟨laid, ⟨_, _, lays⟩, _⟩
      · obtain ⟨region, _, _, belongs, _⟩ := does
        obtain ⟨range, mapped⟩ := mapped_of_region sound (agrees owner.pid region.base) there
          (continues.region.symm.trans belongs)
        exact absurd (continues.mapped.trans mapped) (unmapped range)
      · exact absurd lays id
  | _ => cases does

/-- Pages end in their slots only together with their processes: by an exit, or because a call failed that
puts the process at risk. -/
theorem Orderly.ends_swapped
    (orderly : before.Orderly config events) (agrees : ∀ pid base, before.RegionAgrees pid base)
    (run : attempt call.perform before = .ok outcome after)
    (noted : after.journal = journal ++ before.journal) (member : .discarded owner page dirty ∈ journal)
    (swapped : page.kind.slot? ≠ none) :
    after.space? owner.pid = none ∧
      (call = .exitProcess owner.pid ∨
        call.victim? = some owner.pid ∧ ∃ error, outcome = .error error) := by
  have sound := orderly.sound
  have exits (isExit : call = .exitProcess owner.pid) : after.space? owner.pid = none := by
    subst isExit
    rcases (ends_exitProcess sound).of_answered run with ⟨_, _, _, ended⟩ | ⟨_, _, _, ended⟩ <;>
      exact ended.gone
  have answered (does : Reaches (call.Does before) before after) : call = .exitProcess owner.pid :=
    does.runs.exits_of_swapped sound agrees noted member swapped
  rcases (meets_perform sound orderly.unpinned orderly.tidy call
      (admissible_of_run run)).of_attempt run with
    ⟨_, rfl, _, does, _⟩ | ⟨error, rfl, _, _, fulfils, _⟩
  · exact ⟨exits (answered does), Or.inl (answered does)⟩
  · rcases fulfils with does | ⟨pid, middle, victim, does, ended⟩
    · exact ⟨exits (answered does), Or.inl (answered does)⟩
    · obtain ⟨earlier, first⟩ := does.runs.journal sound
      obtain ⟨later, second⟩ := ended.ends.runs.journal (does.runs.sound sound)
      rw [second, first, ← List.append_assoc, List.append_cancel_right_eq] at noted
      rw [← noted] at member
      rcases List.mem_append.mp member with there | before
      · obtain ⟨_, _, _, ends⟩ := ended.ends.runs.discards (does.runs.sound sound) second there
        have same : owner.pid = pid := ends
        subst same
        exact ⟨ended.gone, Or.inr ⟨victim, error, rfl⟩⟩
      · cases does.runs.exits_of_swapped sound agrees first before swapped
        cases victim

end Pager

/-! ## Histories -/

section Laws

variable {config : Config} {kind : PolicyKind} {device : Device} {files : FileTable}
  {events : List Event} {before : Pager}

theorem Bitmap.count_empty (size : Nat) : (Bitmap.empty size).count = 0 := by
  rw [Bitmap.count_eq_countP, List.countP_eq_zero]
  intro index _
  rw [Bitmap.get_empty]
  exact Bool.false_ne_true

theorem History.isBalanced (history : History config kind device files events before) :
    before.IsBalanced := by
  induction history with
  | start =>
      rw [Pager.IsBalanced]
      have none : (Pager.create config kind device files).swap.used.count = 0 := Bitmap.count_empty _
      rw [none]
      exact .start
  | call history run _ inductionHypothesis =>
      obtain ⟨_, counts⟩ := history.orderly.counts run
      exact counts.isBalanced history.orderly.sound history.orderly.tidy inductionHypothesis
  | outside history same inductionHypothesis => exact inductionHypothesis

/-- The counters balance in every state, whatever failed on the way. What was stored in slots was fetched
again, is still there or ended there, which takes the exit of a process or a failure that ends it or leaves
no copy of it; what lost its frame was stored in a slot or belonged to a file; and frames are lost only to
pages that find no frame free, one for each of them. Write-backs are those of pages that were changed, less
the ones that failed. -/
theorem paging_counters_balance (history : History config kind device files events before) :
    before.stats.swapOuts =
        before.stats.swapIns + (before.stats.swapSlotsTotal - before.stats.swapSlotsFree) +
          before.journal.countP Activity.isSwappedEnd ∧
    before.stats.evictions =
        before.stats.swapOuts + before.journal.countP Activity.isFileEviction ∧
    before.stats.evictions = before.journal.countP Activity.isTaking ∧
    before.stats.writeBacks ≤ before.journal.countP Activity.isDirtyEnd ∧
    ((∀ owner range, .wroteBack owner range false ∉ before.journal) →
      before.stats.writeBacks = before.journal.countP Activity.isDirtyEnd) ∧
    ∀ call : Call,
      (∀ owner frame wasFree rest,
        .assigned owner frame wasFree :: rest <:+ (call.perform.leaves before).journal →
          before.journal <:+ rest →
            ∃ moment held, Pager.Runs (call.Permits before) before moment ∧
              moment.Acquires owner frame held ∧
                held.journal = .assigned owner frame wasFree :: rest ∧
                  (wasFree = false ↔ moment.frames.free = []) ∧
                    held.counters.evictions =
                      moment.counters.evictions + if moment.frames.free = [] then 1 else 0) ∧
      ∀ outcome after journal owner page dirty,
        PagerM.attempt call.perform before = .ok outcome after →
          after.journal = journal ++ before.journal → .discarded owner page dirty ∈ journal →
            page.kind.slot? ≠ none →
              after.space? owner.pid = none ∧
                (call = .exitProcess owner.pid ∨
                  call.victim? = some owner.pid ∧ ∃ error, outcome = .error error) := by
  have orderly := history.orderly
  obtain ⟨evictions, takings, kinds, swapIns, slots, writeBacks, changes⟩ := history.isBalanced
  have inUse : before.stats.swapSlotsTotal - before.stats.swapSlotsFree = before.swap.used.count :=
    Nat.sub_sub_self (Pager.padded_of_sound orderly.sound).count_le
  refine ⟨by rw [inUse]; exact slots, kinds, takings, ?_, fun succeeded => ?_, fun call =>
    ⟨fun owner frame wasFree rest stands new => ?_, fun _ _ _ _ _ _ run noted member swapped =>
      orderly.ends_swapped history.regionAgrees run noted member swapped⟩⟩
  · rw [changes]
    exact Nat.le_add_right ..
  · have none : before.journal.countP Activity.isLostWrite = 0 := by
      rw [List.countP_eq_zero]
      intro activity member lost
      cases activity with
      | wroteBack owner range written =>
          cases written with
          | false => exact succeeded owner range member
          | true => cases lost
      | _ => cases lost
    rw [changes, none]
    rfl
  · obtain ⟨last, handsOut⟩ := orderly.handsOut call stands new
    cases handsOut with
    | «at» begun acquires noted permitted turn goesOn =>
        obtain ⟨found, earlier, acquired, _, free⟩ := acquires.hands
        refine ⟨_, _, begun, acquires, noted, ?_, acquires.evictions⟩
        rw [noted] at acquired
        injection acquired with same
        cases same
        rw [← Bool.not_eq_true, free, not_not]

/-- A process with two pages of anonymous memory and a mapped file that share a frame. It ends while one of
them is in its slot. -/
def sharedFrame : List Call :=
  twoPages ++ [.writeUser 1 8192 #[8], .readUser 1 4096 1, .map 1 12288 2 true 0 0,
    .writeUser 1 12288 #[9], .readUser 1 8192 1, .exitProcess 1]

/-- Three pages were stored in slots, two of them were fetched again, and no slot is in use at the end. -/
theorem paging_counters_balance_of_exit :
    ∃ events before,
      History { frameCount := 1 } .fifo (Device.blank .memory 16) ⟨#[.create .memory #[1, 2]]⟩ events
        before ∧
      before.stats.swapOuts = 3 ∧ before.stats.swapIns = 2 ∧
        3 = 2 + (before.stats.swapSlotsTotal - before.stats.swapSlotsFree) +
          before.journal.countP Activity.isSwappedEnd ∧
        before.stats.evictions = 3 + before.journal.countP Activity.isFileEviction ∧
        before.stats.writeBacks = before.journal.countP Activity.isDirtyEnd := by
  have ended : (((Pager.create { frameCount := 1 } .fifo (Device.blank .memory 16)
      ⟨#[.create .memory #[1, 2]]⟩).play [] sharedFrame).any fun result =>
        result.2.stats.swapOuts == 3 && result.2.stats.swapIns == 2 &&
          !result.2.journal.any Activity.isLostWrite) = true := by
    decide +kernel
  obtain ⟨⟨events, before⟩, played, counted⟩ := (Option.any_eq_true ..).mp ended
  simp only [Bool.and_eq_true, beq_iff_eq, Bool.not_eq_true', List.any_eq_false] at counted
  obtain ⟨⟨outs, ins⟩, written⟩ := counted
  have history := History.start.play played
  obtain ⟨slots, kinds, _, _, writes, _⟩ := paging_counters_balance history
  rw [outs, ins] at slots
  rw [outs] at kinds
  exact ⟨events, before, history, outs, ins, slots, kinds,
    writes fun owner range lost => written _ lost rfl⟩

end Laws

end DemandPaging
