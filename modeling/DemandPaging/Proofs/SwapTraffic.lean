import DemandPaging.Proofs.FileChanges
import DemandPaging.Proofs.SlotTransfers

/-!
# Swap traffic

The journal tells who has each slot: a page that was stored completely has its slot until it is fetched
completely or discarded. Every page is stored in a slot that nobody has and fetched from its own, the slot
is in use meanwhile, and the transfers are to sectors of that slot.
-/

namespace DemandPaging

namespace Activity

/-- The transfers by which a page moved. -/
def transfers : Activity → List Transfer
  | swapped _ _ _ _ transfers => transfers
  | _ => []

/-- Who has which slot after something happened. -/
def rehouse (activity : Activity) (tenants : Nat → Option Owner) : Nat → Option Owner :=
  match activity with
  | swapped owner .write slot _ transfers =>
      Function.update tenants slot (if transfers.all Transfer.succeeded then some owner else none)
  | swapped _ .read slot _ transfers =>
      if transfers.all Transfer.succeeded then Function.update tenants slot none else tenants
  | discarded _ page _ =>
      match page.kind.slot? with
      | some slot => Function.update tenants slot none
      | none => tenants
  | _ => tenants

/-- Who has which slot after what was noted, the latest first. -/
def tenants (journal : List Activity) : Nat → Option Owner :=
  journal.foldr rehouse fun _ => none

/-- Whether a move of a page is one between its frame and its slot: a slot of the device that is in use, that
the page has, or that nobody has if the page is written there, and whose sectors alone are accessed. -/
structure MovesWithin (slotCount : Nat) (tenants : Nat → Option Owner) (owner : Owner)
    (direction : Direction) (slot : Nat) (reserved : Bool) (transfers : List Transfer) : Prop where
  reserved : reserved = true
  inside : slot < slotCount
  tenant : tenants slot = match direction with
    | .read => some owner
    | .write => none
  within : ∀ transfer ∈ transfers,
    transfer.direction = direction ∧ SwapSpace.Contains slot transfer.sector

/-- Whether every move of a page is one between its frame and its slot, by what was noted before. -/
def AreLawful (slotCount : Nat) (tenants : Nat → Option Owner) : List Activity → Prop
  | [] => True
  | .swapped owner direction slot reserved transfers :: earlier =>
      MovesWithin slotCount (earlier.foldr rehouse tenants) owner direction slot reserved transfers ∧
        AreLawful slotCount tenants earlier
  | _ :: earlier => AreLawful slotCount tenants earlier

/-- Activities that have nothing to do with slots. -/
def IsQuiet : Activity → Prop
  | swapped _ _ _ _ _ => False
  | discarded _ page _ => page.kind.slot? = none
  | _ => True

variable {activity : Activity} {later earlier noted : List Activity} {slotCount : Nat}
  {tenants : Nat → Option Owner}

theorem AreLawful.append
    (now : AreLawful slotCount (earlier.foldr rehouse tenants) later)
    (before : AreLawful slotCount tenants earlier) : AreLawful slotCount tenants (later ++ earlier) := by
  induction later with
  | nil => exact before
  | cons activity rest inductionHypothesis =>
      cases activity with
      | swapped owner direction slot reserved transfers =>
          obtain ⟨moves, rest⟩ := now
          refine ⟨?_, inductionHypothesis rest⟩
          rw [List.append_eq, List.foldr_append]
          exact moves
      | _ => exact inductionHypothesis now

/-- What is lawful as a whole is so at every move. -/
theorem AreLawful.movesWithin
    {owner : Owner} {direction : Direction} {slot : Nat} {reserved : Bool} {transfers : List Transfer}
    (lawful : AreLawful slotCount tenants
      (later ++ .swapped owner direction slot reserved transfers :: earlier)) :
    MovesWithin slotCount (earlier.foldr rehouse tenants) owner direction slot reserved transfers := by
  induction later with
  | nil => exact lawful.1
  | cons activity rest inductionHypothesis =>
      cases activity with
      | swapped => exact inductionHypothesis lawful.2
      | _ => exact inductionHypothesis lawful

theorem IsQuiet.transfers (quiet : activity.IsQuiet) : activity.transfers = [] := by
  cases activity with
  | swapped => exact absurd quiet id
  | _ => rfl

theorem IsQuiet.rehouse (quiet : activity.IsQuiet) : activity.rehouse tenants = tenants := by
  cases activity with
  | swapped => exact absurd quiet id
  | discarded owner page dirty =>
      have without : page.kind.slot? = none := quiet
      simp only [Activity.rehouse, without]
  | _ => rfl

theorem flatMap_of_quiet (quiet : ∀ activity ∈ noted, activity.IsQuiet) :
    noted.flatMap Activity.transfers = [] :=
  List.flatMap_eq_nil_iff.mpr fun activity member => (quiet activity member).transfers

theorem rehouse_of_quiet (quiet : ∀ activity ∈ noted, activity.IsQuiet) :
    noted.foldr Activity.rehouse tenants = tenants := by
  induction noted with
  | nil => rfl
  | cons activity rest inductionHypothesis =>
      rw [List.foldr_cons, (quiet activity List.mem_cons_self).rehouse,
        inductionHypothesis fun other member => quiet other (List.mem_cons_of_mem activity member)]

theorem lawful_of_quiet (quiet : ∀ activity ∈ noted, activity.IsQuiet) :
    AreLawful slotCount tenants noted := by
  induction noted with
  | nil => trivial
  | cons activity rest inductionHypothesis =>
      have now := quiet activity List.mem_cons_self
      have before := inductionHypothesis fun other member =>
        quiet other (List.mem_cons_of_mem activity member)
      cases activity with
      | swapped => exact absurd now id
      | _ => exact before

end Activity

/-! ## Slots and those who have them -/

/-- The slot that a page has. -/
def Ledger.slotOf (ledger : Ledger) (owner : Owner) : Option Nat :=
  (ledger.pages owner).bind fun page => page.kind.slot?

namespace Ledger

variable {before after : Ledger} {owner : Owner} {page : Page} {frame : Nat}

theorem slotOf_congr (pages : after.pages = before.pages) : after.slotOf = before.slotOf := by
  funext owner
  rw [slotOf, slotOf, pages]

theorem slotOf_update
    {new : Option Page} (pages : after.pages = Function.update before.pages owner new) :
    after.slotOf = Function.update before.slotOf owner (new.bind fun page => page.kind.slot?) := by
  funext other
  rw [slotOf, pages, Function.update_apply, Function.update_apply]
  split <;> rfl

theorem Arrives.slotOf
    {image : Image} (arrives : before.Arrives owner page frame image after) :
    after.slotOf = Function.update before.slotOf owner none := by
  obtain ⟨new, pages, without⟩ : ∃ new : Page,
      after.pages = Function.update before.pages owner (some new) ∧ new.kind.slot? = none := by
    cases arrives with
    | plain => exact ⟨_, rfl, page.kind.slot?_settled⟩
    | fromSlot => exact ⟨_, rfl, rfl⟩
  rw [slotOf_update pages, Option.bind_some, without]

/-- Steps that neither move nor discard pages leave the slots to those who have them. -/
theorem Step.slotOf
    {deed : Deed} (step : Step deed before after)
    (unclaimed : ∀ other, deed ≠ .claimed other ∧ deed ≠ .missed other)
    (kept : ∀ owner page, deed ≠ .discarded owner page) : after.slotOf = before.slotOf := by
  cases step with
  | reserved vacant placed pending absent =>
      rw [slotOf_update rfl, Option.bind_some, pending]
      exact Function.update_eq_self_iff.mpr (by rw [Ledger.slotOf, vacant]; rfl)
  | discarded => exact absurd rfl (kept _ _)
  | claimed => exact absurd rfl (unclaimed _).1
  | missed => exact absurd rfl (unclaimed _).2
  | _ => rfl

end Ledger

/-- Whether slots are had by the pages that have them. -/
def Lodges (tenants : Nat → Option Owner) (slotOf : Owner → Option Nat) : Prop :=
  ∀ slot owner, tenants slot = some owner ↔ slotOf owner = some slot

namespace Lodges

variable {tenants : Nat → Option Owner} {slotOf : Owner → Option Nat} {slot : Nat} {owner : Owner}

/-- A page without a slot gets one that nobody has. -/
theorem take (lodges : Lodges tenants slotOf) (without : slotOf owner = none)
    (free : tenants slot = none) :
    Lodges (Function.update tenants slot (some owner)) (Function.update slotOf owner (some slot)) := by
  intro other there
  simp only [Function.update_apply]
  have known := lodges other there
  have unowned := lodges other owner
  have unhoused := lodges slot there
  grind

/-- A page gives up its slot. -/
theorem leave (lodges : Lodges tenants slotOf) (held : slotOf owner = some slot) :
    Lodges (Function.update tenants slot none) (Function.update slotOf owner none) := by
  intro other there
  simp only [Function.update_apply]
  have known := lodges other there
  have mine := lodges slot owner
  have unowned := lodges other owner
  have unhoused := lodges slot there
  grind

end Lodges

namespace Pager

variable {before middle after held saved pager : Pager} {deed : Deed} {allowed : Deed → Prop}
  {owner : Owner} {page : Page} {frame slot : Nat} {journal later earlier : List Activity}

/-- What the device is asked for is noted, and it is the same device with the same slots. -/
structure Notes (before after : Pager) (journal : List Activity) : Prop where
  noted : after.journal = journal ++ before.journal
  issued : after.swap.device.transfers =
    journal.flatMap Activity.transfers ++ before.swap.device.transfers
  slotCount : after.swap.slotCount = before.swap.slotCount
  sectorCount : after.swap.device.sectorCount = before.swap.device.sectorCount

/-- What is noted is lawful and tells who has the slots. -/
structure Traffic (before after : Pager) (journal : List Activity) : Prop
    extends Notes before after journal where
  lawful : ∀ tenants, Lodges tenants before.ledger.slotOf →
    Activity.AreLawful before.swap.slotCount tenants journal
  lodges : ∀ tenants, Lodges tenants before.ledger.slotOf →
    Lodges (journal.foldr Activity.rehouse tenants) after.ledger.slotOf

theorem Notes.trans (first : Notes before middle earlier) (second : Notes middle after later) :
    Notes before after (later ++ earlier) where
  noted := by rw [second.noted, first.noted, List.append_assoc]
  issued := by rw [second.issued, first.issued, List.flatMap_append, List.append_assoc]
  slotCount := second.slotCount.trans first.slotCount
  sectorCount := second.sectorCount.trans first.sectorCount

theorem Traffic.trans (first : Traffic before middle earlier) (second : Traffic middle after later) :
    Traffic before after (later ++ earlier) where
  toNotes := first.toNotes.trans second.toNotes
  lawful tenants lodged := by
    apply Activity.AreLawful.append _ (first.lawful tenants lodged)
    rw [← first.slotCount]
    exact second.lawful _ (first.lodges tenants lodged)
  lodges tenants lodged := by
    rw [List.foldr_append]
    exact second.lodges _ (first.lodges tenants lodged)

/-- Changes that have nothing to do with slots. -/
theorem traffic_of_quiet
    (noted : after.journal = journal ++ before.journal)
    (quiet : ∀ activity ∈ journal, activity.IsQuiet)
    (swap : after.swap = before.swap) (slots : after.ledger.slotOf = before.ledger.slotOf) :
    Traffic before after journal where
  noted := noted
  issued := by rw [Activity.flatMap_of_quiet quiet, swap, List.nil_append]
  slotCount := by rw [swap]
  sectorCount := by rw [swap]
  lawful tenants _ := Activity.lawful_of_quiet quiet
  lodges tenants lodged := by
    rw [Activity.rehouse_of_quiet quiet, slots]
    exact lodged

/-! ## How a page gets a frame -/

theorem quiet_writeBack (pager : Pager) (owner : Owner) (range : FileRange) (frame : Nat) :
    ∃ journal, (pager.writeBack owner range frame).journal = journal ++ pager.journal ∧
      (∀ activity ∈ journal, activity.IsQuiet) ∧
        (pager.writeBack owner range frame).swap = pager.swap := by
  unfold writeBack
  split
  · exact ⟨[_], rfl, by simp [Activity.IsQuiet], rfl⟩
  · exact ⟨[], rfl, by simp, rfl⟩

/-- Whether it succeeds or fails, a store in a slot that was reserved for it is a move to that slot. -/
theorem movesWithin_store
    {reserved stored : SwapSpace} {complete : Bool} {image : Image} {tenants : Nat → Option Owner}
    (owner : Owner) (taken : before.swap.reserve? = some (slot, reserved))
    (outcome : reserved.store slot image = (stored, complete))
    (lodged : Lodges tenants before.ledger.slotOf)
    (used : ∀ owner slot, before.ledger.slotOf owner = some slot → before.swap.used.get slot = true) :
    Activity.MovesWithin before.swap.slotCount tenants owner .write slot (reserved.used.get slot)
      (stored.transfersSince reserved) := by
  obtain ⟨inside, clear, same⟩ := reserve?_eq_some taken
  have issues := (reserved.store_issues slot image).2.within
  rw [outcome] at issues
  refine ⟨?_, inside, ?_, issues⟩
  · rw [same]
    show (before.swap.used.insert slot).get slot = true
    rw [Bitmap.get_insert_eq_update _ inside, Function.update_self]
  · show tenants slot = none
    rw [Option.eq_none_iff_forall_ne_some]
    intro other held
    cases (used other slot ((lodged slot other).mp held)).symm.trans clear

/-- What a store in a slot leaves of the swap space, besides the content of the slot. -/
theorem notes_store
    {reserved stored : SwapSpace} {complete : Bool} {image : Image}
    (taken : before.swap.reserve? = some (slot, reserved))
    (outcome : reserved.store slot image = (stored, complete)) :
    stored.device.transfers = stored.transfersSince reserved ++ before.swap.device.transfers ∧
      stored.slotCount = before.swap.slotCount ∧
        stored.device.sectorCount = before.swap.device.sectorCount ∧
          (stored.transfersSince reserved).all Transfer.succeeded = complete := by
  obtain ⟨_, _, same⟩ := reserve?_eq_some taken
  obtain ⟨issued, issues⟩ := reserved.store_issues slot image
  have sectorCount := reserved.sectorCount_store slot image
  have slots := SwapSpace.used_store reserved slot image
  rw [outcome] at issued issues sectorCount slots
  have device : reserved.device = before.swap.device := by rw [same]
  have slotCount : reserved.slotCount = before.swap.slotCount := by
    rw [same]
    rfl
  rw [device] at issued sectorCount
  exact ⟨issued, (congrArg Bitmap.size slots).trans slotCount, sectorCount, issues.complete⟩

/-- A page that was stored has the slot. -/
theorem slotOf_unloaded
    (aligned : pageBase owner.va = owner.va) (present : pager.ledger.pages owner = some page)
    (slot : Nat) :
    ((pager.modifyPage owner.pid owner.va fun page =>
      { page with kind := .anonymous (some slot) }).detached owner).ledger.slotOf =
        Function.update pager.ledger.slotOf owner (some slot) := by
  have pages : ((pager.modifyPage owner.pid owner.va fun page =>
      { page with kind := .anonymous (some slot) }).detached owner).ledger.pages =
        Function.update pager.ledger.pages owner
          (some { page with frame := none, kind := .anonymous (some slot) }) := by
    rw [ledger_detached aligned, ledger_modifyPage, aligned, present]
    simp only [Ledger.setPage, Ledger.setTranslation, Option.map_some, Function.update_self,
      Function.update_idem]
  rw [Ledger.slotOf_update pages]
  rfl

theorem Saves.traffic
    (saves : before.Saves owner page frame saved) (aligned : pageBase owner.va = owner.va)
    (present : before.ledger.pages owner = some page)
    (used : ∀ owner slot, before.ledger.slotOf owner = some slot → before.swap.used.get slot = true) :
    ∃ journal, Traffic before (saved.detached owner) journal := by
  cases saves with
  | toFile file =>
      rename_i range
      obtain ⟨journal, noted, quiet, swap⟩ := before.quiet_writeBack owner range frame
      refine ⟨journal, traffic_of_quiet noted quiet swap ?_⟩
      have pages : ((before.writeBack owner range frame).detached owner).ledger.pages =
          Function.update before.ledger.pages owner (some { page with frame := none }) := by
        rw [ledger_detached aligned, ledger_writeBack, present]
        rfl
      have without : before.ledger.slotOf owner = none := by
        rw [Ledger.slotOf, present, Option.bind_some, file]
        rfl
      rw [Ledger.slotOf_update pages, Option.bind_some, file]
      exact Function.update_eq_self_iff.mpr without.symm
  | toSlot anonymous taken complete =>
      rename_i slot reserved stored
      obtain ⟨issued, slotCount, sectorCount, succeeded⟩ := notes_store taken complete
      have without : before.ledger.slotOf owner = none := by
        rw [Ledger.slotOf, present, Option.bind_some, anonymous]
        rfl
      have slots := @slotOf_unloaded (before.swappedOut owner slot reserved stored) owner page aligned
        present slot
      exact ⟨[.swapped owner .write slot (reserved.used.get slot) (stored.transfersSince reserved)], {
        noted := rfl
        issued := by
          rw [List.flatMap_singleton]
          exact issued
        slotCount := slotCount
        sectorCount := sectorCount
        lawful := fun tenants lodged => ⟨movesWithin_store owner taken complete lodged used, trivial⟩
        lodges := fun tenants lodged => by
          rw [List.foldr_cons, List.foldr_nil, Activity.rehouse, succeeded, if_pos rfl]
          exact slots ▸ lodged.take without (movesWithin_store owner taken complete lodged used).tenant }⟩

theorem used_of_slotOf
    {flight : Option (Owner × Nat)} (sound : pager.ledger.Sound flight) (owner : Owner) (slot : Nat)
    (held : pager.ledger.slotOf owner = some slot) : pager.swap.used.get slot = true := by
  obtain ⟨page, present, slotFound⟩ := Option.bind_eq_some_iff.mp held
  exact (sound.slots.slot_of_page owner page slot present (PageKind.slot?_eq_some_iff.mp slotFound)).1

theorem Acquires.traffic
    (acquires : before.Acquires owner frame held) (sound : before.ledger.Sound none) :
    ∃ journal, Traffic before held journal := by
  cases acquires with
  | free taken =>
      exact ⟨[.assigned owner frame true], traffic_of_quiet rfl (by simp [Activity.IsQuiet]) rfl rfl⟩
  | evicted full chosen present resident saves =>
      rename_i victim page saved
      have ledger := before.ledger_selected
      have slots : before.selected.ledger.slotOf = before.ledger.slotOf := by rw [ledger]; rfl
      have selected : Traffic before before.selected [] :=
        traffic_of_quiet before.journal_selected (by simp) before.swap_selected slots
      have presentThen : before.selected.ledger.pages victim = some page := by
        rw [ledger]
        exact present
      obtain ⟨journal, moved⟩ := saves.traffic (sound.placed victim page present).aligned presentThen
        fun owner slot held => by
          rw [before.swap_selected]
          exact used_of_slotOf sound owner slot (slots ▸ held)
      exact ⟨_, (selected.trans moved).trans (@traffic_of_quiet _ _
        [.assigned owner frame false, .evicted victim page.kind _] rfl (by simp [Activity.IsQuiet]) rfl rfl)⟩

/-! ## How the content of a page arrives -/

/-- What a fetch leaves of the swap space, besides the use of the slot. -/
theorem notes_fetch
    {swap : SwapSpace} {files : FileTable} {image : Image} {fetched : Fetched}
    (fetch : (PageKind.anonymous (some slot)).fetch swap files image = fetched) :
    fetched.swap.device.transfers = fetched.swap.transfersSince swap ++ swap.device.transfers ∧
      fetched.swap.slotCount = swap.slotCount ∧
        fetched.swap.device.sectorCount = swap.device.sectorCount ∧
          Issues .read (SwapSpace.firstSector slot) sectorsPerPage fetched.kind.isSome
            (fetched.swap.transfersSince swap) := by
  obtain ⟨issued, issues⟩ := swap.fetch_issues slot image
  have sectorCount := swap.sectorCount_fetch slot image
  have used := swap.used_fetch slot image
  subst fetch
  unfold PageKind.fetch
  dsimp only
  split <;> rename_i outcome <;> rw [outcome] at issued issues sectorCount used <;>
    have size := congrArg Bitmap.size used
  · exact ⟨issued, size, sectorCount, issues⟩
  · exact ⟨issued, size, sectorCount, issues⟩

theorem quiet_putFetched
    {kind : PageKind} (pager : Pager) (owner : Owner) (frame : Nat) (fetched : Fetched)
    (without : kind.slot? = none) :
    ∃ journal, (pager.putFetched owner kind frame fetched).journal = journal ++ pager.journal ∧
      ∀ activity ∈ journal, activity.IsQuiet := by
  simp only [putFetched, noteTransfers, without]
  unfold noteLoad
  split
  · exact ⟨[_, _], rfl, by simp [Activity.IsQuiet]⟩
  · exact ⟨[_], rfl, by simp [Activity.IsQuiet]⟩

/-- A fetch, complete or not, is a move from the slot of the page, if it has one. -/
theorem traffic_of_fetch
    {fetched : Fetched} {image : Image} (sound : held.ledger.Sound (some (owner, frame)))
    (present : held.ledger.pages owner = some page)
    (fetch : page.kind.fetch held.swap held.files image = fetched) {filled : Pager}
    (start : filled.journal = held.journal) (same : filled.swap = held.swap)
    (noted : after.journal = (filled.putFetched owner page.kind frame fetched).journal)
    (swap : after.swap = fetched.swap)
    (slots : after.ledger.slotOf =
      if fetched.kind.isSome then Function.update held.ledger.slotOf owner none
      else held.ledger.slotOf) : ∃ journal, Traffic held after journal := by
  have mine : held.ledger.slotOf owner = page.kind.slot? := by
    rw [Ledger.slotOf, present, Option.bind_some]
  cases slotFound : page.kind.slot? with
  | none =>
      rw [slotFound] at mine
      have unmoved : after.ledger.slotOf = held.ledger.slotOf := by
        rw [slots]
        split
        · exact Function.update_eq_self_iff.mpr mine.symm
        · rfl
      obtain ⟨journal, put, quiet⟩ := filled.quiet_putFetched owner frame fetched slotFound
      refine ⟨journal, traffic_of_quiet ?_ quiet ?_ unmoved⟩
      · rw [noted, put, start]
      · rw [swap, ← fetch, PageKind.fetch_swap slotFound]
  | some slot =>
      rw [slotFound] at mine
      have kind := PageKind.slot?_eq_some_iff.mp slotFound
      have used := used_of_slotOf sound owner slot mine
      rw [kind] at fetch noted
      obtain ⟨issued, slotCount, sectorCount, issues⟩ := notes_fetch fetch
      refine ⟨[.fetched owner (.anonymous (some slot)) fetched.kind.isSome, .swapped owner .read slot
        (held.swap.used.get slot) (fetched.swap.transfersSince held.swap)], {
          noted := ?_
          issued := ?_
          slotCount := swap ▸ slotCount
          sectorCount := swap ▸ sectorCount
          lawful := fun tenants lodged =>
            ⟨⟨used, sound.slots.inside slot used, (lodged slot owner).mpr mine, issues.within⟩, trivial⟩
          lodges := fun tenants lodged => ?_ }⟩
      · rw [noted, journal_putFetched_of_slot, start, same]
      · rw [swap, issued]
        simp [Activity.transfers]
      · rw [slots]
        simp only [List.foldr_cons, List.foldr_nil, Activity.rehouse, issues.complete]
        split
        · exact lodged.leave mine
        · exact lodged

theorem Arrives.traffic
    (arrives : held.Arrives owner frame after) (sound : held.ledger.Sound (some (owner, frame)))
    (present : held.ledger.pages owner = some page) : ∃ journal, Traffic held after journal := by
  obtain ⟨image, _, arrived, _⟩ := arrives.moves sound present
  cases arrives with
  | @intro space pageThen table fetched kind found presentThen absent installed fetch complete =>
      cases present.symm.trans presentThen
      refine @traffic_of_fetch _ _ _ _ _ _ _ sound present fetch (held.attached owner frame table) rfl rfl
        rfl (swap_putFetched ..) ?_
      rw [complete, Option.isSome_some, if_pos rfl]
      exact arrived.slotOf

theorem Returns.traffic
    (returns : held.Returns owner frame after) (sound : held.ledger.Sound (some (owner, frame)))
    (present : held.ledger.pages owner = some page) : ∃ journal, Traffic held after journal := by
  obtain ⟨returned, _⟩ := returns.moves sound present
  cases returns with
  | @intro space pageThen table fetched found presentThen absent installed fetch incomplete =>
      cases present.symm.trans presentThen
      refine @traffic_of_fetch _ _ _ _ _ _ _ sound present fetch (held.attached owner frame table) rfl rfl
        rfl (swap_putFetched ..) ?_
      rw [incomplete, Option.isSome_none, if_neg Bool.false_ne_true]
      exact Ledger.slotOf_congr returned.pages

/-! ## Turns and runs -/

theorem quiet_discardSaved (pager : Pager) (owner : Owner) (page : Page) :
    ∃ journal, (pager.discardSaved owner page).journal = journal ++ pager.journal ∧
      (∀ activity ∈ journal, activity.IsQuiet) ∧ (pager.discardSaved owner page).swap = pager.swap := by
  unfold discardSaved
  split
  · split
    · exact pager.quiet_writeBack ..
    · exact ⟨[], rfl, by simp, rfl⟩
  · exact ⟨[], rfl, by simp, rfl⟩

/-- A page that is discarded gives up its slot, if it has one. -/
theorem traffic_discarded
    (sound : before.ledger.Sound none) (present : before.ledger.pages owner = some page) :
    ∃ journal, Traffic before (before.discarded owner page) journal := by
  have slots := Ledger.slotOf_update (ledger_discarded sound present).pages
  have mine : before.ledger.slotOf owner = page.kind.slot? := by
    rw [Ledger.slotOf, present, Option.bind_some]
  let begun : Activity := .discarded owner page ((before.table owner.pid).isDirty owner.va)
  obtain ⟨journal, saved, quiet, swap⟩ := (before.note begun).quiet_discardSaved owner page
  have device := @keeps_released _ owner page (fun pager => pager.swap.device) (fun _ _ => rfl)
    (fun _ _ => rfl) (fun _ _ => rfl) (fun _ => rfl) ((before.note begun).discardSaved owner page)
  have slotCount := @keeps_released _ owner page (fun pager => pager.swap.slotCount) (fun _ _ => rfl)
    (fun _ _ => rfl) (fun _ _ => rfl) (fun _ => rfl) ((before.note begun).discardSaved owner page)
  rw [swap] at device slotCount
  have rehoused (tenants : Nat → Option Owner) :
      (journal ++ [begun]).foldr Activity.rehouse tenants = begun.rehouse tenants := by
    rw [List.foldr_append, Activity.rehouse_of_quiet quiet]
    rfl
  have nothing (tenants : Nat → Option Owner) :
      Activity.AreLawful before.swap.slotCount tenants [begun] := trivial
  refine ⟨journal ++ [begun], {
    noted := by
      rw [List.append_assoc]
      exact (journal_released ..).trans saved
    issued := by
      rw [List.flatMap_append, Activity.flatMap_of_quiet quiet]
      exact congrArg Device.transfers device
    slotCount := slotCount
    sectorCount := congrArg Device.sectorCount device
    lawful := fun tenants _ => (Activity.lawful_of_quiet quiet).append (nothing tenants)
    lodges := fun tenants lodged => ?_ }⟩
  rw [rehoused, slots, Option.bind_none, Activity.rehouse]
  cases slotFound : page.kind.slot? with
  | none =>
      rw [slotFound] at mine
      rw [Function.update_eq_self_iff.mpr mine.symm]
      exact lodged
  | some slot =>
      rw [slotFound] at mine
      exact lodged.leave mine

/-- What a turn does to slots and to the device is noted and lawful. -/
theorem Turn.traffic (turn : Turn deed before after) (sound : before.ledger.Sound none) :
    ∃ journal, Traffic before after journal := by
  have step := turn.step sound
  have still (noted : after.journal = before.journal) (swap : after.swap = before.swap)
      (unclaimed : ∀ other, deed ≠ .claimed other ∧ deed ≠ .missed other)
      (kept : ∀ owner page, deed ≠ .discarded owner page) : ∃ journal, Traffic before after journal :=
    ⟨[], traffic_of_quiet noted (by simp) swap (step.slotOf unclaimed kept)⟩
  cases turn with
  | discarded present => exact traffic_discarded sound present
  | claimed present absent acquires arrives =>
      obtain ⟨flying, presentThen⟩ := (acquires.moves sound).sound sound present absent
      obtain ⟨earlier, first⟩ := acquires.traffic sound
      obtain ⟨later, second⟩ := arrives.traffic flying presentThen
      exact ⟨_, first.trans second⟩
  | missed present absent acquires returns =>
      obtain ⟨flying, presentThen⟩ := (acquires.moves sound).sound sound present absent
      obtain ⟨earlier, first⟩ := acquires.traffic sound
      obtain ⟨later, second⟩ := returns.traffic flying presentThen
      exact ⟨_, first.trans second⟩
  | _ => exact still rfl rfl (by simp) (by simp)

theorem Runs.traffic (runs : Runs allowed before after) (sound : before.ledger.Sound none) :
    ∃ journal, Traffic before after journal := by
  induction runs with
  | refl => exact ⟨[], traffic_of_quiet rfl (by simp) rfl rfl⟩
  | tail runs permitted turn inductionHypothesis =>
      obtain ⟨earlier, first⟩ := inductionHypothesis
      obtain ⟨later, second⟩ := turn.traffic (runs.sound sound)
      exact ⟨_, first.trans second⟩

/-- A store that comes to nothing is a move to a slot that nobody has, and nobody has it afterwards. -/
theorem Breaks.notes
    (breaks : before.Breaks after)
    (used : ∀ owner slot, before.ledger.slotOf owner = some slot → before.swap.used.get slot = true) :
    ∃ journal, Notes before after journal ∧ ∀ tenants, Lodges tenants before.ledger.slotOf →
      Activity.AreLawful before.swap.slotCount tenants journal := by
  rcases breaks.slots with
    ⟨noted, swap⟩ | ⟨owner, slot, reserved, stored, image, taken, refused, noted, swap⟩
  · have still : Notes before after [] := ⟨noted, by rw [swap]; rfl, by rw [swap], by rw [swap]⟩
    exact ⟨[], still, fun _ _ => trivial⟩
  · obtain ⟨issued, slotCount, sectorCount, _⟩ := notes_store taken refused
    refine ⟨[.swapped owner .write slot (reserved.used.get slot) (stored.transfersSince reserved)],
      ⟨noted, ?_, ?_, ?_⟩, fun tenants lodged => ⟨movesWithin_store owner taken refused lodged used, trivial⟩⟩
    · rw [swap, List.flatMap_singleton]
      exact issued
    · rw [swap]
      exact slotCount
    · rw [swap]
      exact sectorCount

/-- What a call does to slots and to the device is noted and lawful, whatever comes of it. -/
theorem Orderly.traffic
    {config : Config} {events : List Event} (orderly : before.Orderly config events) (call : Call) :
    ∃ journal, Notes before (call.perform.leaves before) journal ∧
      ∀ tenants, Lodges tenants before.ledger.slotOf →
        Activity.AreLawful before.swap.slotCount tenants journal := by
  obtain ⟨last, runs, breaks⟩ := orderly.runs_leaves call
  obtain ⟨earlier, first⟩ := runs.traffic orderly.sound
  obtain ⟨later, noted, lawful⟩ := breaks.notes (used_of_slotOf (runs.sound orderly.sound))
  refine ⟨later ++ earlier, first.toNotes.trans noted, fun tenants lodged => ?_⟩
  apply Activity.AreLawful.append _ (first.lawful tenants lodged)
  rw [← first.slotCount]
  exact lawful _ (first.lodges tenants lodged)

/-- The slots are those of a device, and the journal tells which page has which of them. -/
structure Housed (pager : Pager) (device : Device) : Prop where
  sectorCount : pager.swap.device.sectorCount = device.sectorCount
  slotCount : pager.swap.slotCount = device.sectorCount / sectorsPerPage
  lodges : Lodges (Activity.tenants pager.journal) pager.ledger.slotOf

end Pager

open Pager

section Laws

variable {config : Config} {kind : PolicyKind} {device : Device} {files : FileTable}
  {events : List Event} {before : Pager}

theorem History.housed (history : History config kind device files events before) :
    before.Housed device := by
  induction history with
  | start =>
      refine ⟨rfl, rfl, fun slot owner => ?_⟩
      have vacant : (Pager.create config kind device files).ledger.slotOf owner = none := by
        simp [Ledger.slotOf, ledger, pageOf, shown, space?, create]
      rw [vacant]
      constructor <;> intro never <;> cases never
  | call history run noted inductionHypothesis =>
      obtain ⟨sectorCount, slotCount, lodges⟩ := inductionHypothesis
      obtain ⟨reaches, _⟩ := history.orderly.performs run
      obtain ⟨journal, traffic⟩ := reaches.runs.traffic history.orderly.sound
      refine ⟨traffic.sectorCount.trans sectorCount, traffic.slotCount.trans slotCount, ?_⟩
      rw [Activity.tenants, traffic.noted, List.foldr_append]
      exact traffic.lodges _ lodges
  | @outside events pager files device history same inductionHypothesis =>
      obtain ⟨sectorCount, slotCount, lodges⟩ := inductionHypothesis
      refine ⟨(congrArg Array.size same).trans sectorCount, slotCount, ?_⟩
      rw [ledger_outside files same]
      exact lodges

/-- The slots in use are those that some page has. -/
theorem History.used_iff (history : History config kind device files events before) (slot : Nat) :
    before.swap.used.get slot = true ↔ ∃ owner, Activity.tenants before.journal slot = some owner := by
  have sound := history.orderly.sound
  have lodges := history.housed.lodges
  constructor
  · intro used
    obtain ⟨owner, page, present, kind⟩ := sound.slots.page_of_slot slot used
    refine ⟨owner, (lodges slot owner).mpr ?_⟩
    rw [Ledger.slotOf, present, Option.bind_some, kind]
    rfl
  · rintro ⟨owner, tenant⟩
    exact used_of_slotOf sound owner slot ((lodges slot owner).mp tenant)

/-- Swap traffic stays inside slots that the moved page has. Whatever comes of a call and of its transfers,
each is noted with the move of a page and goes to a sector of a slot in use: the slot of the page if it is
fetched, and if it is stored a slot that no page has. A page has a slot after it was stored there completely
and until it is fetched completely or discarded. Slots lie on the device before the sectors that make up no
slot, and no two share a sector, so what was stored in one is fetched again whatever happens to others. -/
theorem swap_traffic_in_owned_slots
    (history : History config kind device files events before) (call : Call) :
    (∃ noted, (call.perform.leaves before).journal = noted ++ before.journal ∧
      (call.perform.leaves before).swap.device.transfers =
        noted.flatMap Activity.transfers ++ before.swap.device.transfers ∧
          ∀ later owner direction slot reserved transfers earlier,
            noted = later ++ .swapped owner direction slot reserved transfers :: earlier →
              Activity.MovesWithin (device.sectorCount / sectorsPerPage)
                (Activity.tenants (earlier ++ before.journal)) owner direction slot reserved transfers) ∧
    (before.swap.device.sectorCount = device.sectorCount ∧
      ∀ slot, (∀ owner, Activity.tenants before.journal slot = some owner ↔
        ∃ page, before.pageOf owner = some page ∧ page.kind = .anonymous (some slot)) ∧
          (before.swap.used.get slot = true ↔
            ∃ owner, Activity.tenants before.journal slot = some owner)) ∧
    (∀ slot sector, slot < device.sectorCount / sectorsPerPage → SwapSpace.Contains slot sector →
      sector < device.sectorCount / sectorsPerPage * sectorsPerPage ∧ sector < device.sectorCount ∧
        ∀ other, SwapSpace.Contains other sector → other = slot) ∧
    ∀ (swap last : SwapSpace) (slot : Nat) (image old : Image), (swap.store slot image).2 = true →
      SwapSpace.Spares slot (swap.store slot image).1 last → (last.fetch slot old).2.2 = true →
        (last.fetch slot old).2.1 = image := by
  obtain ⟨sectorCount, slotCount, lodges⟩ := history.housed
  obtain ⟨noted, notes, lawful⟩ := history.orderly.traffic call
  have lawful := lawful _ lodges
  refine ⟨⟨noted, notes.noted, notes.issued, ?_⟩, ⟨sectorCount, fun slot => ⟨fun owner => ?_,
    history.used_iff slot⟩⟩, fun slot sector inside contains => ?_, fun _ _ _ _ _ => SwapSpace.fetch_of_store⟩
  · rintro later owner direction slot reserved transfers earlier rfl
    rw [Activity.tenants, List.foldr_append, ← slotCount]
    exact lawful.movesWithin
  · rw [lodges slot owner, Ledger.slotOf, Option.bind_eq_some_iff]
    simp only [PageKind.slot?_eq_some_iff]
    rfl
  · have onDevice := contains.lt inside
    exact ⟨onDevice, onDevice.trans_le (Nat.div_mul_le_self ..), fun other there => there.unique contains⟩

/-- On a device of 17 sectors, that is two slots and a sector of none, the second page goes to the second slot
while the first one comes from its own, by eight transfers each. -/
theorem swap_traffic_in_owned_slots_of_two_pages :
    ∃ before noted, (noted.flatMap Activity.transfers).length = 16 ∧
      Activity.tenants before.journal 0 = some ⟨1, 4096⟩ ∧
        ((Call.readUser 1 4096 1).perform.leaves before).journal = noted ++ before.journal ∧
          ∀ later owner direction slot reserved transfers earlier,
            noted = later ++ .swapped owner direction slot reserved transfers :: earlier →
              Activity.MovesWithin 2 (Activity.tenants (earlier ++ before.journal)) owner direction slot
                reserved transfers := by
  have ended : (((Pager.create { frameCount := 1 } .fifo (Device.blank .memory 17) ⟨#[]⟩).play []
      (twoPages ++ [.writeUser 1 8192 #[8]])).any fun result =>
        ((Call.readUser 1 4096 1).perform.leaves result.2).swap.device.transfers.length ==
            16 + result.2.swap.device.transfers.length &&
          Activity.tenants result.2.journal 0 == some ⟨1, 4096⟩) = true := by
    decide +kernel
  obtain ⟨⟨events, before⟩, played, known⟩ := (Option.any_eq_true ..).mp ended
  simp only [Bool.and_eq_true, beq_iff_eq] at known
  obtain ⟨length, tenant⟩ := known
  obtain ⟨⟨noted, journal, issued, moves⟩, _⟩ :=
    swap_traffic_in_owned_slots (History.start.play played) (.readUser 1 4096 1)
  rw [issued, List.length_append] at length
  exact ⟨before, noted, Nat.add_right_cancel length, tenant, journal, moves⟩

end Laws

end DemandPaging
