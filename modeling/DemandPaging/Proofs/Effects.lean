import DemandPaging.Proofs.Turn

/-!
# What a turn leaves alone

Pages go on unless they are discarded, pins are only set by pinning, and the content of anonymous memory
changes only where something is stored or copied. The journal tells where content begins and ends.
-/

namespace DemandPaging

/-! ## Pages that go on -/

/-- The range of a mapped file that a page holds or will hold. -/
def PageKind.mapped? : PageKind → Option FileRange
  | pending (.mapped range) | file range => some range
  | _ => none

/-- A page that may have another frame, and that may have been touched when the other was not. -/
structure Page.Alike (new old : Page) : Prop where
  va : new.va = old.va
  writable : new.writable = old.writable
  isStack : new.isStack = old.isStack
  region : new.region = old.region
  type : new.type = old.type
  mapped : new.kind.mapped? = old.kind.mapped?

/-- A page that may have been touched and moved since. -/
structure Page.Continues (new old : Page) : Prop extends Page.Alike new old where
  pending : ∀ load, new.kind = .pending load → old.kind = .pending load

namespace Page

theorem Alike.refl (page : Page) : page.Alike page :=
  ⟨rfl, rfl, rfl, rfl, rfl, rfl⟩

theorem Alike.symm {new old : Page} (alike : new.Alike old) : old.Alike new :=
  ⟨alike.va.symm, alike.writable.symm, alike.isStack.symm, alike.region.symm, alike.type.symm,
    alike.mapped.symm⟩

theorem Alike.trans {first second third : Page} (later : third.Alike second)
    (earlier : second.Alike first) : third.Alike first where
  va := later.va.trans earlier.va
  writable := later.writable.trans earlier.writable
  isStack := later.isStack.trans earlier.isStack
  region := later.region.trans earlier.region
  type := later.type.trans earlier.type
  mapped := later.mapped.trans earlier.mapped

theorem Continues.refl (page : Page) : page.Continues page :=
  ⟨.refl page, fun _ pending => pending⟩

theorem Continues.trans {first second third : Page} (later : third.Continues second)
    (earlier : second.Continues first) : third.Continues first :=
  ⟨later.toAlike.trans earlier.toAlike, fun load pending =>
    earlier.pending load (later.pending load pending)⟩

end Page

theorem PageKind.type_settled (kind : PageKind) : kind.settled.type = kind.type := by
  rcases kind with (_ | _ | _) | _ | _ <;> rfl

theorem PageKind.mapped?_settled (kind : PageKind) : kind.settled.mapped? = kind.mapped? := by
  rcases kind with (_ | _ | _) | _ | _ <;> rfl

namespace Ledger

variable {before held unloaded after ledger : Ledger} {owner other : Owner} {page new : Page}
  {frame : Nat} {deed : Deed}

theorem Unloads.continues
    (unloads : ledger.Unloads owner page frame unloaded) :
    ∃ new, unloaded.pages owner = some new ∧ new.frame = none ∧ new.Continues page := by
  cases unloads with
  | toSlot anonymous clear inside =>
      refine ⟨_, Function.update_self .., rfl, ⟨rfl, rfl, rfl, rfl, ?_, ?_⟩, by simp⟩
      · simp only [Page.type, anonymous, PageKind.type]
      · simp only [anonymous, PageKind.mapped?]
  | toFile file => exact ⟨_, Function.update_self .., rfl, ⟨rfl, rfl, rfl, rfl, rfl, rfl⟩, by simp⟩

/-- Handing out a frame leaves every page alone but the one that gives it up, whose frame was not
pinned. -/
theorem Acquires.pages
    (acquires : ledger.Acquires owner frame held) (other : Owner) :
    held.pages other = ledger.pages other ∨
      ∃ page new, ledger.pages other = some page ∧ page.frame = some frame ∧
        ledger.pinned frame = false ∧ held.pages other = some new ∧ new.frame = none ∧
          new.Continues page := by
  cases acquires with
  | free first => exact Or.inl rfl
  | evicted full present resident unpinned tracks unloads =>
      rename_i victim page unloaded policy
      by_cases same : other = victim
      · subst same
        obtain ⟨new, presentThen, absent, continues⟩ := unloads.continues
        exact Or.inr ⟨page, new, present, resident, unpinned, presentThen, absent, continues⟩
      · exact Or.inl (unloads.pages_of_ne same)

theorem Acquires.pinned (acquires : ledger.Acquires owner frame held) :
    held.pinned = Function.update ledger.pinned frame true := by
  cases acquires with
  | free first => rfl
  | evicted full present resident unpinned tracks unloads => cases unloads <;> rfl

theorem Arrives.pages {image : Image} (arrives : ledger.Arrives owner page frame image after) :
    ∃ new, after.pages = Function.update ledger.pages owner (some new) ∧ new.Continues page ∧
      new.frame = some frame ∧ ∀ load, new.kind ≠ .pending load := by
  cases arrives with
  | plain without =>
      refine ⟨_, rfl, ⟨⟨rfl, rfl, rfl, rfl, page.kind.type_settled, page.kind.mapped?_settled⟩, ?_⟩,
        rfl, page.kind.settled_ne_pending⟩
      exact fun load pending => absurd pending (page.kind.settled_ne_pending load)
  | fromSlot isHeld same =>
      refine ⟨_, rfl, ⟨⟨rfl, rfl, rfl, rfl, ?_, ?_⟩, by simp⟩, rfl, by simp⟩
      · simp only [Page.type, isHeld, PageKind.type]
      · simp only [isHeld, PageKind.mapped?]

theorem Arrives.image {image : Image} (arrives : ledger.Arrives owner page frame image after) :
    after.images frame = image := by
  cases arrives <;> exact Function.update_self ..

theorem Arrives.pinned {image : Image} (arrives : ledger.Arrives owner page frame image after) :
    after.pinned = Function.update ledger.pinned frame false := by
  cases arrives <;> rfl

theorem Returns.pages (returns : ledger.Returns frame after) : after.pages = ledger.pages := by
  cases returns
  rfl

/-- What a step may do to a page: nothing, begin it, end it, or move it without taking a pinned frame
from it. -/
theorem Step.pages (step : Step deed before after) (owner : Owner) :
    after.pages owner = before.pages owner ∨
      (∃ page, deed = .reserved owner page ∧ before.pages owner = none ∧
        after.pages owner = some page) ∨
      (∃ page, deed = .discarded owner page ∧ before.pages owner = some page ∧
        after.pages owner = none) ∨
      ∃ page new, before.pages owner = some page ∧ after.pages owner = some new ∧
        new.Continues page ∧ ∀ frame, page.frame = some frame → before.pinned frame = false := by
  cases step with
  | reserved vacant placed pending absent =>
      rename_i there page load
      by_cases same : owner = there
      · subst same
        exact Or.inr (Or.inl ⟨page, rfl, vacant, Function.update_self ..⟩)
      · exact Or.inl (Function.update_of_ne same ..)
  | discarded present discards =>
      rename_i there page
      rw [discards.pages]
      by_cases same : owner = there
      · subst same
        exact Or.inr (Or.inr (Or.inl ⟨page, rfl, present, Function.update_self ..⟩))
      · exact Or.inl (Function.update_of_ne same ..)
  | claimed present absent acquires arrives =>
      rename_i held there page frame image
      obtain ⟨arrived, pages, continues, _⟩ := arrives.pages
      rw [pages]
      by_cases same : owner = there
      · subst same
        exact Or.inr (Or.inr (Or.inr ⟨page, arrived, present, Function.update_self .., continues,
          by simp [absent]⟩))
      · rw [Function.update_of_ne same]
        rcases acquires.pages owner with unmoved | moved
        · exact Or.inl unmoved
        · obtain ⟨old, new, presentOld, resident, unpinned, presentThen, _, continuesOld⟩ := moved
          exact Or.inr (Or.inr (Or.inr ⟨old, new, presentOld, presentThen, continuesOld, by grind⟩))
  | missed present absent acquires returns =>
      rename_i held there page frame
      rw [returns.pages]
      rcases acquires.pages owner with unmoved | moved
      · exact Or.inl unmoved
      · obtain ⟨old, new, presentOld, resident, unpinned, presentThen, _, continuesOld⟩ := moved
        exact Or.inr (Or.inr (Or.inr ⟨old, new, presentOld, presentThen, continuesOld, by grind⟩))
  | _ => exact Or.inl rfl

/-- Only discarding ends a page. -/
theorem Step.continues
    (step : Step deed before after) (present : before.pages owner = some page)
    (kept : deed ≠ .discarded owner page) :
    ∃ new, after.pages owner = some new ∧ new.Continues page := by
  rcases step.pages owner with same | ⟨_, _, vacant, _⟩ | ⟨old, discarded, presentOld, _⟩ | moved
  · exact ⟨page, same.trans present, .refl page⟩
  · rw [present] at vacant
    cases vacant
  · rw [present] at presentOld
    cases presentOld
    exact absurd discarded kept
  · obtain ⟨old, new, presentOld, presentThen, continues, _⟩ := moved
    rw [present] at presentOld
    cases presentOld
    exact ⟨new, presentThen, continues⟩

/-- Only a reservation begins a page. -/
theorem Step.vacant
    (step : Step deed before after) (vacant : before.pages owner = none)
    (unreserved : ∀ page, deed ≠ .reserved owner page) :
    after.pages owner = none := by
  rcases step.pages owner with same | ⟨page, reserved, _⟩ | ⟨_, _, _, gone⟩ | moved
  · exact same.trans vacant
  · exact absurd reserved (unreserved page)
  · exact gone
  · obtain ⟨old, _, present, _⟩ := moved
    rw [vacant] at present
    cases present

/-- A page that is reserved begins where there was none, as it is. -/
theorem Step.begins (step : Step (.reserved owner page) before after) :
    before.pages owner = none ∧ (∃ load, page.kind = .pending load) ∧
      after.pages = Function.update before.pages owner (some page) := by
  cases step with
  | unseen unseen => exact absurd unseen id
  | reserved vacant placed pending absent => exact ⟨vacant, ⟨_, pending⟩, rfl⟩

/-- A page that nobody reserved goes on from before. -/
theorem Step.continued
    (step : Step deed before after) (present : after.pages owner = some new)
    (unreserved : deed ≠ .reserved owner new) :
    ∃ page, before.pages owner = some page ∧ new.Continues page := by
  rcases step.pages owner with same | ⟨page, reserved, _, reservedPage⟩ | ⟨_, _, _, gone⟩ | moved
  · exact ⟨new, same.symm.trans present, .refl new⟩
  · rw [present] at reservedPage
    cases reservedPage
    exact absurd reserved unreserved
  · rw [present] at gone
    cases gone
  · obtain ⟨old, moved, presentOld, presentThen, continues, _⟩ := moved
    rw [present] at presentThen
    cases presentThen
    exact ⟨old, presentOld, continues⟩

/-- No page moves but by claiming. -/
theorem Step.unmoved
    (step : Step deed before after) (present : before.pages owner = some page)
    (kept : deed ≠ .discarded owner page)
    (unclaimed : ∀ other, deed ≠ .claimed other ∧ deed ≠ .missed other) :
    after.pages owner = some page := by
  cases step with
  | reserved vacant placed pending absent =>
      rename_i there new load
      have apart : owner ≠ there := by
        rintro rfl
        rw [present] at vacant
        cases vacant
      exact (Function.update_of_ne apart ..).trans present
  | discarded presentThere discards =>
      rename_i there other
      have apart : owner ≠ there := by
        rintro rfl
        rw [present] at presentThere
        cases presentThere
        exact kept rfl
      rw [discards.pages, Function.update_of_ne apart]
      exact present
  | claimed => exact absurd rfl (unclaimed _).1
  | missed => exact absurd rfl (unclaimed _).2
  | _ => exact present

/-- A page that was not touched stays as it is until it is claimed. -/
theorem Step.waits
    {load : LazyLoad} (step : Step deed before after) (sound : before.Sound none)
    (present : before.pages owner = some page) (pending : page.kind = .pending load)
    (kept : deed ≠ .discarded owner page) (unclaimed : deed ≠ .claimed owner) :
    after.pages owner = some page := by
  have acquired {held : Ledger} {there : Owner} {frameThere : Nat}
      (acquires : before.Acquires there frameThere held) : held.pages owner = some page := by
    rcases acquires.pages owner with same | ⟨old, _, presentOld, resident, _⟩
    · exact same.trans present
    · cases present.symm.trans presentOld
      exact absurd pending (sound.not_pending present resident load)
  cases step with
  | reserved vacant placed pending absent =>
      rename_i there new load
      have apart : owner ≠ there := by
        rintro rfl
        cases vacant.symm.trans present
      exact (Function.update_of_ne apart ..).trans present
  | discarded presentThere discards =>
      rename_i there other
      have apart : owner ≠ there := by
        rintro rfl
        cases presentThere.symm.trans present
        exact kept rfl
      rw [discards.pages, Function.update_of_ne apart]
      exact present
  | claimed presentThere absent acquires arrives =>
      rename_i held there old frame image
      obtain ⟨_, pages, _⟩ := arrives.pages
      have apart : owner ≠ there := fun here => unclaimed (by rw [here])
      rw [pages, Function.update_of_ne apart]
      exact acquired acquires
  | missed presentThere absent acquires returns =>
      rw [returns.pages]
      exact acquired acquires
  | _ => exact present

/-- Only claiming brings a page into a frame. -/
theorem Step.resident_of
    (step : Step deed before after) (present : after.pages owner = some page)
    (resident : page.frame = some frame) (unclaimed : deed ≠ .claimed owner) :
    before.pages owner = some page := by
  have kept {held : Ledger} {there : Owner} {frameThere : Nat}
      (acquires : before.Acquires there frameThere held) (presentHeld : held.pages owner = some page) :
      before.pages owner = some page := by
    rcases acquires.pages owner with same | ⟨_, new, _, _, _, presentNew, absent, _⟩
    · exact same.symm.trans presentHeld
    · rw [presentHeld] at presentNew
      cases presentNew
      rw [absent] at resident
      cases resident
  cases step with
  | reserved vacant placed pending absent =>
      rename_i there new load
      by_cases here : owner = there
      · subst here
        rw [pages_setPage_self] at present
        cases present
        rw [absent] at resident
        cases resident
      · exact (Function.update_of_ne here ..).symm.trans present
  | discarded presentThere discards =>
      rename_i there old
      rw [discards.pages] at present
      by_cases here : owner = there
      · subst here
        rw [Function.update_self] at present
        cases present
      · rwa [Function.update_of_ne here] at present
  | claimed presentThere absent acquires arrives =>
      rename_i held there old frame image
      obtain ⟨_, pages, _⟩ := arrives.pages
      have apart : owner ≠ there := fun here => unclaimed (by rw [here])
      rw [pages, Function.update_of_ne apart] at present
      exact kept acquires present
  | missed presentThere absent acquires returns =>
      rw [returns.pages] at present
      exact kept acquires present
  | _ => exact present

/-- A page keeps a pinned frame. -/
theorem Step.stays
    (step : Step deed before after) (present : before.pages owner = some page)
    (resident : page.frame = some frame) (pinned : before.pinned frame = true)
    (kept : deed ≠ .discarded owner page) :
    after.pages owner = some page := by
  rcases step.pages owner with same | ⟨_, _, vacant, _⟩ | ⟨old, discarded, presentOld, _⟩ | moved
  · exact same.trans present
  · rw [present] at vacant
    cases vacant
  · rw [present] at presentOld
    cases presentOld
    exact absurd discarded kept
  · obtain ⟨old, new, presentOld, _, _, unpinned⟩ := moved
    rw [present] at presentOld
    cases presentOld
    rw [unpinned frame resident] at pinned
    cases pinned

/-! ## Pins -/

/-- Only pinning pins a frame. -/
theorem Step.pinned_of
    (step : Step deed before after) (pinned : after.pinned frame = true)
    (other : deed ≠ .pinned frame) :
    before.pinned frame = true := by
  cases step with
  | discarded present discards =>
      cases discards with
      | resident resident =>
          simp only [setPage, release, setTranslation] at pinned
          grind [Function.update_apply]
      | _ => exact pinned
  | claimed present absent acquires arrives =>
      rw [arrives.pinned, acquires.pinned] at pinned
      grind [Function.update_apply]
  | missed present absent acquires returns =>
      have handed := acquires.pinned
      cases returns
      simp only [release, setImage, handed] at pinned
      grind [Function.update_apply]
  | pinned owned =>
      simp only [setPinned] at pinned
      grind [Function.update_apply]
  | unpinned owned =>
      simp only [setPinned] at pinned
      grind [Function.update_apply]
  | _ => exact pinned

/-- A frame that is handed out was not pinned. -/
theorem Acquires.ne_of_pinned
    (acquires : ledger.Acquires owner frame held) (sound : ledger.Sound none) {pinnedFrame : Nat}
    (pinned : ledger.pinned pinnedFrame = true) :
    pinnedFrame ≠ frame := by
  rintro rfl
  cases acquires with
  | free first =>
      have free : pinnedFrame ∈ ledger.free := by simp [first]
      exact sound.listed.owned pinnedFrame pinned ((sound.listed.mem_free pinnedFrame).mp free).2
  | evicted full present resident unpinned tracks unloads =>
      rw [unpinned] at pinned
      cases pinned

/-- A page with a pinned frame keeps the frame and the pin. -/
theorem Step.holds
    (step : Step deed before after) (sound : before.Sound none)
    (present : before.pages owner = some page) (resident : page.frame = some frame)
    (pinned : before.pinned frame = true) (kept : deed ≠ .discarded owner page)
    (held : deed ≠ .unpinned frame) :
    after.pages owner = some page ∧ after.pinned frame = true := by
  refine ⟨step.stays present resident pinned kept, ?_⟩
  cases step with
  | discarded presentThere discards =>
      rename_i there pageThere
      cases discards with
      | resident residentThere =>
          rename_i frameThere
          have apart : frame ≠ frameThere := by
            rintro rfl
            have owned := sound.owner_of_page present resident
            rw [sound.owner_of_page presentThere residentThere] at owned
            cases owned
            rw [present] at presentThere
            cases presentThere
            exact kept rfl
          exact (Function.update_of_ne apart ..).trans pinned
      | _ => exact pinned
  | claimed presentThere absent acquires arrives =>
      have apart := acquires.ne_of_pinned sound pinned
      rw [arrives.pinned, acquires.pinned, Function.update_of_ne apart,
        Function.update_of_ne apart]
      exact pinned
  | missed presentThere absent acquires returns =>
      have apart := acquires.ne_of_pinned sound pinned
      have handed := acquires.pinned
      cases returns
      simp only [release, setImage, handed]
      rw [Function.update_of_ne apart, Function.update_of_ne apart]
      exact pinned
  | pinned owned =>
      simp only [setPinned]
      grind [Function.update_apply]
  | unpinned owned =>
      simp only [setPinned]
      grind [Function.update_apply]
  | _ => exact pinned

end Ledger

namespace Pager

variable {before held after : Pager} {owner : Owner} {page : Page} {frame : Nat} {deed : Deed}

/-! ## The configuration -/

theorem config_writeBack (pager : Pager) (owner : Owner) (range : FileRange) (frame : Nat) :
    (pager.writeBack owner range frame).config = pager.config :=
  congrArg Ledger.config (pager.ledger_writeBack owner range frame)

theorem config_putFetched
    (pager : Pager) (owner : Owner) (kind : PageKind) (frame : Nat) (fetched : Fetched) :
    (pager.putFetched owner kind frame fetched).config = pager.config :=
  @keeps_putFetched _ owner Pager.config (fun _ _ _ _ => rfl) (fun _ _ _ _ => rfl) (fun _ _ _ => rfl)
    (fun _ _ _ => rfl) pager kind frame fetched

theorem config_discarded (pager : Pager) (owner : Owner) (page : Page) :
    (pager.discarded owner page).config = pager.config :=
  @keeps_discarded _ owner page Pager.config (fun _ _ => rfl) (fun other => other.config_writeBack owner)
    (fun _ _ => rfl) (fun _ _ => rfl) (fun _ _ => rfl) (fun _ => rfl) pager

theorem Saves.config {saved : Pager} (saves : before.Saves owner page frame saved) :
    saved.config = before.config := by
  cases saves with
  | toSlot anonymous taken complete => rfl
  | toFile file => exact before.config_writeBack ..

theorem Acquires.config (acquires : before.Acquires owner frame held) :
    held.config = before.config := by
  cases acquires with
  | free taken => rfl
  | evicted full chosen present resident saves =>
      have selected : before.selected.config = before.config :=
        congrArg Ledger.config before.ledger_selected
      exact saves.config.trans selected

/-- No turn changes the configuration. -/
theorem Turn.config (turn : Turn deed before after) : after.config = before.config := by
  cases turn with
  | discarded present => exact before.config_discarded ..
  | claimed present absent acquires arrives =>
      rename_i held page frame
      cases arrives
      exact (config_putFetched ..).trans acquires.config
  | missed present absent acquires returns =>
      cases returns
      exact (config_putFetched ..).trans acquires.config
  | _ => rfl

end Pager

end DemandPaging
