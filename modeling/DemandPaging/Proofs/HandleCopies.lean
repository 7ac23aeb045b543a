import DemandPaging.Proofs.HandleAccounts

/-!
# Handles of copies

A copy of a process needs a handle for every region and for every page that holds one in the parent. Wherever
the copy breaks off, the handles that were opened and not yet recorded are closed, and the others go with
the child.
-/

namespace DemandPaging

theorem Page.handle?_copy (page : Page) : page.copy.kind.handle? = page.kind.handle? := by
  rcases kind : page.kind with load | held | range <;>
    simp [copy, copyLoad, kind, PageKind.handle?, LazyLoad.range?]

namespace Pager

open PagerM

variable {before : Pager} {originals : Owner → Option Page} {parent child : Pid} {va : Nat}
  {page : Page} {loose : FileId → Nat}

/-! ## One page -/

theorem settling_reopenForCopy (balances : before.Balances loose) (page : Page) :
    (reopenForCopy page).Meets before
      (settling (fun _ => loose + inHand page.kind.handle?) loose) := by
  unfold reopenForCopy
  cases page.kind.handle? with
  | none => exact balances
  | some file =>
      apply settling_bind (settling_reopenFile balances file loose)
      intro opened middle settled
      cases opened with
      | true => exact settled
      | false => exact settled

theorem balancing_claimSource (balances : before.Balances loose) (ready : before.Ready) :
    (claimSource parent va).Meets before (balancing loose) := by
  apply settling_bind (balancing_claim balances ready parent va)
  intro _ claimed balances
  refine settling_after_look (still_requireSpace parent) balances fun space => ?_
  split
  · exact balances
  · exact balances

theorem balancing_unpinFrame (balances : before.Balances loose) (frame : Nat) :
    (unpinFrame frame).Meets before (balancing loose) :=
  settling_after_look (still_checkFrame frame) balances fun _ => balances.congr rfl rfl

/-- The page of the child holds the handle that was opened for it, also if it cannot be filled. -/
theorem balancing_fillCopy
    {copy : Page} {load : LazyLoad} (balances : before.Balances (loose + inHand copy.kind.handle?))
    (ready : before.Ready) (aligned : pageAligned copy.va = true)
    (fits : copy.kind.readLength ≤ pageSize) (pending : copy.kind = .pending load)
    (absent : copy.frame = none) :
    (fillCopy parent child va copy).Meets before (balancing loose) := by
  apply settling_bind_of (meets_reservePage ready.sound aligned fits pending absent)
    (balancing_reservePage balances)
  intro _ reserved reaches _ balances
  apply settling_bind (balancing_claim balances (reaches.ready ready) child va)
  intro _ claimed balances
  refine settling_after_look (still_copyFrames parent child va) balances fun frames => ?_
  refine settling_after_look (still_checkBytes frames.2) balances fun _ => ?_
  refine settling_after_look (still_frameImage frames.1) balances fun image => ?_
  exact balances.congr rfl rfl

theorem balancing_copyPinned
    {copy : Page} {load : LazyLoad} {source : Nat}
    (balances : before.Balances (loose + inHand copy.kind.handle?)) (sound : before.ledger.Sound none)
    (unpinned : before.Unpinned) (frames : 2 ≤ before.config.frameCount)
    (original : before.ledger.pages ⟨parent, va⟩ = some page) (resident : page.frame = some source)
    (aligned : pageAligned copy.va = true) (fits : copy.kind.readLength ≤ pageSize)
    (pending : copy.kind = .pending load) (absent : copy.frame = none) :
    (copyPinned parent child va source copy).Meets before (balancing loose) := by
  have owned := sound.owner_of_page original resident
  have ready := ready_pin sound unpinned frames owned
  rw [copyPinned, meets_bind, meets_pinFrame (sound.lt_frameCount owned)]
  have pinned : Balances (before.modifyFrames fun frames => frames.pin source)
      (loose + inHand copy.kind.handle?) := balances.congr rfl rfl
  generalize before.modifyFrames _ = held at *
  apply settling_attempt (balancing_fillCopy pinned ready aligned fits pending absent)
  · exact fun _ _ filled => balancing_unpinFrame filled source
  · exact fun _ _ broken => settling_bind (balancing_unpinFrame broken source) fun _ _ => id

theorem balancing_copyDirty (balances : before.Balances loose) (child : Pid) (va : Nat) (dirty : Bool) :
    (copyDirty child va dirty).Meets before (balancing loose) := by
  unfold copyDirty
  cases dirty with
  | false => exact balances
  | true =>
      exact settling_after_look (still_requireSpace child) balances fun _ =>
        balances.congr (handleAt_modifySpace child (fun _ => rfl) fun _ => rfl) rfl

/-- A page of the parent is copied with a handle of its own, or the handle is closed. -/
theorem balancing_copyPage
    (balances : before.Balances loose) (sound : before.ledger.Sound none)
    (unpinned : before.Unpinned) (frames : 2 ≤ before.config.frameCount)
    (original : before.ledger.pages ⟨parent, va⟩ = some page) :
    (copyPage parent child va).Meets before (balancing loose) := by
  have placed := sound.placed _ page original
  have place : page.copy.va = va := placed.va
  have aligned : pageBase va = va := placed.aligned
  have copyAligned : pageAligned page.copy.va = true := by
    rw [place, ← aligned]
    exact pageAligned_pageBase va
  obtain ⟨space, found⟩ := space?_of_page original
  have shown : space.page? va = some page := by
    rw [page?_of_space found, aligned]
    exact original
  rw [copyPage, meets_bind, meets_requireSpace]
  simp only [found, shown]
  apply settling_bind_of (@meets_reopenForCopy before (fun _ => none) parent child sound [va] page)
    (settling_reopenForCopy balances page)
  intro _ opened opening _ inHand
  have openedSound := opening.runs.sound sound
  have openedUnpinned := opening.unpinned unpinned
  have openedReady := openedUnpinned.ready openedSound
  rw [← page.handle?_copy] at inHand
  apply settling_attempt_of
    (@meets_claimSource opened (fun _ => none) parent child va openedReady aligned)
    (balancing_claimSource inHand openedReady)
  · rintro ⟨source, dirty⟩ claimed claim ⟨⟨resident, present, framed⟩, _⟩ inHand
    have framesThen : 2 ≤ claimed.config.frameCount := by
      rw [claim.runs.config, opening.runs.config]
      exact frames
    apply settling_bind (balancing_copyPinned inHand (claim.runs.sound openedSound)
      (claim.unpinned openedUnpinned) framesThen present framed copyAligned
        (page.readLength_copy placed.fits) rfl rfl)
    exact fun _ _ copied => balancing_copyDirty copied child va dirty
  · exact fun _ _ _ broken => broken.closeHandle

/-! ## All pages -/

theorem balancing_copyPages
    {vas : List Nat} (balances : before.Balances loose) (sound : before.ledger.Sound none)
    (unpinned : before.Unpinned) (tidy : before.Tidy) (apart : parent ≠ child)
    (frames : vas ≠ [] → 2 ≤ before.config.frameCount)
    (original : ∀ va ∈ vas, before.ledger.pages ⟨parent, va⟩ ≠ none) :
    (copyPages parent child vas).Meets before (balancing loose) := by
  induction vas generalizing before with
  | nil => exact balances
  | cons va rest inductionHypothesis =>
      obtain ⟨page, present⟩ := Option.ne_none_iff_exists'.mp (original va List.mem_cons_self)
      have enough := frames (List.cons_ne_nil va rest)
      have copies := @meets_copyPage before before.ledger.pages parent child va page page sound unpinned
        tidy enough apart present present (.refl page)
      apply settling_bind_of copies (balancing_copyPage balances sound unpinned enough present)
      intro _ copied reaches _ balances
      apply inductionHypothesis balances (reaches.runs.sound sound) (reaches.unpinned unpinned)
        (reaches.runs.tidy sound tidy)
      · intro _
        rw [reaches.runs.config]
        exact enough
      · intro other member
        obtain ⟨page, present⟩ :=
          Option.ne_none_iff_exists'.mp (original other (List.mem_cons_of_mem va member))
        obtain ⟨new, presentThen, _⟩ := reaches.runs.continues sound present fun _ _ => id
        rw [presentThen]
        exact Option.some_ne_none new

/-- One handle is opened for each region, or none. -/
theorem settling_reopenRegions (balances : before.Balances loose) (regions : List Region) :
    (reopenRegions regions).Meets before (settling (fun _ => loose + inHandAll regions) loose) := by
  induction regions generalizing before loose with
  | nil => exact balances
  | cons region rest inductionHypothesis =>
      apply settling_bind (settling_reopenFile balances region.file loose)
      intro opened middle settled
      cases opened with
      | false => exact settled
      | true =>
          apply settling_attempt (inductionHypothesis settled)
          · intro _ after all
            show after.Balances (loose + inHandAll (region :: rest))
            rw [inHandAll_cons, ← add_assoc, add_right_comm]
            exact all
          · exact fun _ _ broken => broken.close

/-- The regions of a child hold the handles that were opened for them. -/
theorem Balances.laidOut
    {copy space : AddressSpace} (balances : before.Balances (loose + inHandAll space.regionList))
    (found : before.space? child = some copy) (unlaid : copy.regions = ∅)
    (vacant : ∀ va, before.ledger.pages ⟨child, va⟩ = none) :
    (before.laidOut child space).Balances loose := by
  have others (holder : Holder) (other : holder.pid ≠ child) :
      (before.laidOut child space).handleAt holder = before.handleAt holder := by
    apply handleAt_congr
    rw [Pager.laidOut, space?_modifySpace, if_neg (Ne.symm other)]
  have foundThen : (before.laidOut child space).space? child =
      some { copy with stackPointer := space.stackPointer, regions := space.regions } := by
    rw [Pager.laidOut, space?_modifySpace, if_pos rfl, found]
    rfl
  have vacantThen (va : Nat) : (before.laidOut child space).ledger.pages ⟨child, va⟩ = none := by
    rw [ledger_laidOut]
    exact vacant va
  funext file
  have total := held_of_others others file
  have was := congrFun balances file
  have now : (before.laidOut child space).handlesOf child file = inHandAll space.regionList file :=
    handlesOf_of_vacant foundThen vacantThen file
  have none : before.handlesOf child file = 0 := by
    rw [handlesOf_of_vacant found vacant, AddressSpace.regionList, unlaid]
    rfl
  show before.files.handles file = _
  simp only [Pi.add_apply] at was ⊢
  omega

theorem balancing_copySpace
    {empty : AddressSpace} (balances : before.Balances loose) (sound : before.ledger.Sound none)
    (unpinned : before.Unpinned) (tidy : before.Tidy) (apart : parent ≠ child)
    (frames : (∃ va, before.ledger.pages ⟨parent, va⟩ ≠ none) → 2 ≤ before.config.frameCount)
    (blank : before.space? child = some empty) (unlaid : empty.regions = ∅)
    (vacant : ∀ va, before.ledger.pages ⟨child, va⟩ = none) :
    (copySpace parent child).Meets before (balancing loose) := by
  rw [copySpace, meets_bind, meets_requireSpace]
  dsimp only
  cases found : before.space? parent with
  | none => exact balances
  | some space =>
      dsimp only
      have keys (va : Nat) (member : va ∈ space.pages.keys) :
          before.ledger.pages ⟨parent, va⟩ ≠ none := by
        rw [Std.ExtTreeMap.mem_keys, Std.ExtTreeMap.mem_iff_isSome_getElem?,
          pages_of_space found] at member
        exact Option.isSome_iff_ne_none.mp member
      have keyed : space.layout.IsKeyed := by
        apply tidy.keyed parent
        rw [layout?, found]
        rfl
      apply settling_bind_of (@meets_reopenRegions before (fun deed => deed.Forks before.ledger.pages
        parent child) sound (fun _ => trivial) (fun _ => trivial) space.regionList)
          (settling_reopenRegions balances space.regionList)
      rintro _ opened opening ⟨files, rfl⟩ inHand
      have blankThen : ({ before with files := files } : Pager).space? child = some empty := blank
      have vacantThen : ∀ va, ({ before with files := files } : Pager).ledger.pages ⟨child, va⟩ = none :=
        vacant
      generalize openedIs : ({ before with files := files } : Pager) = opened at *
      have openedSound := opening.runs.sound sound
      have laid := inHand.laidOut blankThen unlaid vacantThen
      have laying : Turn (.relaid child .everywhere) opened (opened.laidOut child space) :=
        .relaid _ _ (fun _ => rfl) (fun _ => rfl) (fun _ _ => keyed) fun _ _ outside =>
          absurd trivial outside
      have still : (opened.laidOut child space).ledger = before.ledger := by
        rw [ledger_laidOut, ← openedIs]
        rfl
      rw [meets_bind, meets_modify]
      apply balancing_copyPages laid (laying.sound openedSound)
      · intro frame
        rw [show (opened.laidOut child space).ledger.pinned frame = before.ledger.pinned frame by
          rw [still]]
        exact unpinned frame
      · exact laying.tidy openedSound (opening.runs.tidy sound tidy)
      · exact apart
      · intro some
        obtain ⟨va, member⟩ := List.exists_mem_of_ne_nil _ some
        have enough := frames ⟨va, keys va member⟩
        rwa [← opening.runs.config, ← laying.config] at enough
      · intro va member
        rw [still]
        exact keys va member

/-! ## Forks -/

/-- A fork that fails closes every handle that was opened for the child. -/
theorem balancing_fork
    (balances : before.Balances loose) (sound : before.ledger.Sound none)
    (unpinned : before.Unpinned) (tidy : before.Tidy) (parent child : Pid) :
    (fork parent child).Meets before (balancing loose) := by
  rw [fork, meets_bind, meets_requireSpace]
  dsimp only
  cases found : before.space? parent with
  | none => exact balances
  | some space =>
      dsimp only
      rw [meets_bind, meets_get]
      dsimp only
      split
      · exact balances
      · rename_i enough
        apply settling_bind_of (meets_createProcess sound child) (balancing_createProcess balances child)
        rintro _ created creation ⟨absent, same, blank, others⟩ balances
        have createdSound := creation.runs.sound sound
        have apart : parent ≠ child := by
          rintro rfl
          rw [found] at absent
          cases absent
        have vacant (va : Nat) : created.ledger.pages ⟨child, va⟩ = none := by
          rw [same]
          exact pages_of_absent absent va
        have frames (nonempty : ∃ va, created.ledger.pages ⟨parent, va⟩ ≠ none) :
            2 ≤ created.config.frameCount := by
          rw [same] at nonempty
          rw [creation.runs.config]
          exact two_le_frameCount sound found enough nonempty
        have createdUnpinned := creation.unpinned unpinned
        have createdTidy := creation.runs.tidy sound tidy
        apply settling_attempt_of
          (meets_copySpace createdSound createdUnpinned createdTidy apart frames blank vacant)
          (balancing_copySpace balances createdSound createdUnpinned createdTidy apart frames blank rfl
            vacant)
        · exact fun _ _ _ _ copied => copied
        · intro error broken reaches balances
          exact settling_bind (balancing_exitProcess balances (reaches.runs.sound createdSound) child)
            fun _ _ ended => ended

end Pager

end DemandPaging
