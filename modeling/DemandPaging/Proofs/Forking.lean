import DemandPaging.Proofs.History

/-!
# Copies of processes are complete and independent

After a fork the child has a page wherever the parent had one, alike and with the same content, and shares
no frame and no slot with the parent. When a page was copied, both pages were in frames that held the same.
-/

namespace DemandPaging

namespace Pager

/-- What a fork leaves: `before` is the state in which it started. -/
structure Forked (before after : Pager) (parent child : Pid) : Prop where
  parent_addresses : ∀ va,
    (after.pageOf ⟨parent, va⟩).isSome = (before.pageOf ⟨parent, va⟩).isSome
  child_addresses : ∀ va,
    (after.pageOf ⟨child, va⟩).isSome = (before.pageOf ⟨parent, va⟩).isSome
  alike : ∀ va original copy,
    after.pageOf ⟨parent, va⟩ = some original → after.pageOf ⟨child, va⟩ = some copy →
      copy.writable = original.writable ∧ copy.isStack = original.isStack ∧
        copy.region = original.region ∧ copy.type = original.type
  kept : ∀ va old new,
    before.pageOf ⟨parent, va⟩ = some old → after.pageOf ⟨parent, va⟩ = some new →
      new.writable = old.writable ∧ new.isStack = old.isStack ∧ new.region = old.region ∧
        new.type = old.type
  initialized : ∀ pid va page load,
    pid = parent ∨ pid = child → after.pageOf ⟨pid, va⟩ = some page → page.kind ≠ .pending load
  layout : ∀ space, before.space? parent = some space →
    ∃ copy, after.space? child = some copy ∧ copy.stackPointer = space.stackPointer ∧
      copy.regions = space.regions
  frames_apart : ∀ va other original copy frame,
    after.pageOf ⟨parent, va⟩ = some original → after.pageOf ⟨child, other⟩ = some copy →
      original.frame = some frame → copy.frame ≠ some frame
  slots_apart : ∀ va other original copy slot,
    after.pageOf ⟨parent, va⟩ = some original → after.pageOf ⟨child, other⟩ = some copy →
      original.kind = .anonymous (some slot) → copy.kind ≠ .anonymous (some slot)
  content : ∀ va original,
    after.pageOf ⟨parent, va⟩ = some original → original.type = .anonymous →
      ∃ image, after.ledger.content ⟨parent, va⟩ = some image ∧
        after.ledger.content ⟨child, va⟩ = some image
  unchanged : ∀ va old,
    before.pageOf ⟨parent, va⟩ = some old → (∀ load, old.kind ≠ .pending load) →
      after.ledger.content ⟨parent, va⟩ = before.ledger.content ⟨parent, va⟩
  /-- From the empty child with the layout of its parent on, each page was copied and matched its copy. -/
  copied : ∃ space created opened, before.space? parent = some space ∧
    createProcess child before = .ok ⟨⟩ created ∧
      reopenRegions space.regionList created = .ok ⟨⟩ opened ∧
        CopiesEach parent child space.pages.keys (opened.laidOut child space) after

variable {before after : Pager} {config : Config} {events : List Event} {parent child : Pid}

/-- An initialized page of anonymous memory has a content. -/
theorem exists_content
    {owner : Owner} {page : Page} (sound : after.ledger.Sound none)
    (present : after.ledger.pages owner = some page) (anonymous : page.type = .anonymous)
    (initialized : ∀ load, page.kind ≠ .pending load) :
    ∃ image, after.ledger.content owner = some image := by
  rw [Ledger.content_of_page present, Ledger.pageContent]
  cases kind : page.kind with
  | pending load => exact absurd kind (initialized load)
  | file range =>
      rw [Page.type, kind] at anonymous
      cases anonymous
  | anonymous held =>
      cases held with
      | some slot => exact ⟨_, rfl⟩
      | none =>
          obtain ⟨frame, resident⟩ :=
            Option.ne_none_iff_exists'.mp (sound.slots.resident owner page present kind)
          rw [resident]
          exact ⟨_, rfl⟩

/-- Parent and child have pages where the parent had one. -/
theorem Replicated.addresses (replicated : Replicated before after parent child) (va : Nat) :
    (after.ledger.pages ⟨parent, va⟩).isSome = (before.ledger.pages ⟨parent, va⟩).isSome ∧
      (after.ledger.pages ⟨child, va⟩).isSome = (before.ledger.pages ⟨parent, va⟩).isSome := by
  cases old : before.ledger.pages ⟨parent, va⟩ with
  | none =>
      obtain ⟨none, noCopy⟩ := replicated.vacant va old
      exact ⟨congrArg Option.isSome none, congrArg Option.isSome noCopy⟩
  | some page =>
      have somewhere : before.ledger.pages ⟨parent, va⟩ ≠ none := by
        rw [old]
        exact Option.some_ne_none page
      obtain ⟨original, copy, mirrored⟩ := replicated.mirrors va somewhere
      rw [mirrored.present, mirrored.copied]
      exact ⟨rfl, rfl⟩

/-- A page of parent or child is one of two pages of which the one is the copy of the other. -/
theorem Replicated.mirrorsOf
    {pid : Pid} {va : Nat} {page : Page} (replicated : Replicated before after parent child)
    (is : pid = parent ∨ pid = child) (present : after.ledger.pages ⟨pid, va⟩ = some page) :
    ∃ original copy, after.ledger.Mirrors parent child va original copy := by
  obtain ⟨original, copy⟩ := replicated.addresses va
  apply replicated.mirrors va
  rw [← Option.isSome_iff_ne_none]
  rcases is with rfl | rfl
  · rw [← original, present, Option.isSome_some]
  · rw [← copy, present, Option.isSome_some]

/-- What a fork leaves follows from how the copy was made. -/
theorem forked_of_replicated
    {created : Pager} (sound : before.ledger.Sound none) (apart : parent ≠ child)
    (forks : Reaches (Deed.Forks before.ledger.pages parent child) before after)
    (run : createProcess child before = .ok ⟨⟩ created) (same : created.ledger = before.ledger)
    (found : created.space? parent = before.space? parent)
    (replicated : Replicated created after parent child) :
    before.Forked after parent child := by
  have afterSound := forks.runs.sound sound
  have apartOwners (va other : Nat) : (⟨parent, va⟩ : Owner) ≠ ⟨child, other⟩ := by
    simp [apart]
  have addresses := replicated.addresses
  rw [same] at addresses
  constructor
  case parent_addresses => exact fun va => (addresses va).1
  case child_addresses => exact fun va => (addresses va).2
  case alike =>
    intro va original copy present copied
    obtain ⟨_, _, mirrored⟩ := replicated.mirrorsOf (Or.inl rfl) present
    cases present.symm.trans mirrored.present
    cases copied.symm.trans mirrored.copied
    exact ⟨mirrored.alike.writable, mirrored.alike.isStack, mirrored.alike.region,
      mirrored.alike.type⟩
  case kept =>
    intro va old new presentOld present
    obtain ⟨_, presentNew, continues⟩ := forks.runs.continues sound presentOld fun _ _ => id
    cases present.symm.trans presentNew
    exact ⟨continues.writable, continues.isStack, continues.region, continues.type⟩
  case initialized =>
    intro pid va page load is present
    obtain ⟨_, _, mirrored⟩ := replicated.mirrorsOf is present
    rcases is with rfl | rfl
    · cases present.symm.trans mirrored.present
      exact mirrored.initialized load
    · cases present.symm.trans mirrored.copied
      exact mirrored.filled load
  case layout =>
    intro space foundBefore
    have layout := replicated.layout
    rw [layout?, layout?, found, foundBefore, Option.map_some, Option.map_eq_some_iff] at layout
    obtain ⟨copy, foundCopy, same⟩ := layout
    exact ⟨copy, foundCopy, congrArg Layout.stackPointer same, congrArg Layout.regions same⟩
  case frames_apart =>
    intro va other original copy frame present copied resident attached
    have owned := afterSound.owner_of_page present resident
    rw [afterSound.owner_of_page copied attached] at owned
    exact apartOwners va other (Option.some.inj owned).symm
  case slots_apart =>
    intro va other original copy slot present copied holds holdsToo
    exact apartOwners va other
      (afterSound.slots.unique _ _ original copy slot present copied holds holdsToo)
  case content =>
    intro va original present anonymous
    obtain ⟨_, _, mirrored⟩ := replicated.mirrorsOf (Or.inl rfl) present
    cases present.symm.trans mirrored.present
    obtain ⟨image, content⟩ := exists_content afterSound present anonymous mirrored.initialized
    exact ⟨image, content, mirrored.content.trans content⟩
  case unchanged =>
    intro va old present initialized
    apply forks.runs.content_kept sound present initialized fun _ _ => id
    rintro deed forks (rfl | rfl)
    · exact forks
    · exact apart forks
  case copied =>
    obtain ⟨space, opened, foundCreated, reopened, each⟩ := replicated.copied
    exact ⟨space, created, opened, found.symm.trans foundCreated, run, reopened, each⟩

end Pager

section Laws

variable {config : Config} {kind : PolicyKind} {device : Device} {files : FileTable}
  {events : List Event} {before after : Pager} {parent child : Pid}

/-- In every state of a history a fork that is answered makes a complete and independent copy. -/
theorem fork_copies
    (history : History config kind device files events before)
    (run : Pager.fork parent child before = .ok ⟨⟩ after) :
    before.Forked after parent child := by
  obtain ⟨sound, unpinned, tidy, _⟩ := history.orderly
  obtain ⟨_, forks, apart, created, creates, same, found, replicated⟩ :=
    (Pager.meets_fork sound unpinned tidy parent child).of_ok run
  exact Pager.forked_of_replicated sound apart forks creates same found replicated

/-- With two frames a page that was written and one that was not touched are copied. -/
theorem fork_copies_of_two_pages :
    ∃ before after : Pager, Pager.fork 1 2 before = .ok ⟨⟩ after ∧
      (after.pageOf ⟨2, 4096⟩).isSome = true ∧ before.Forked after 1 2 := by
  have ended : (((Pager.create { frameCount := 2 } .fifo (Device.blank .memory 64) ⟨#[]⟩).play []
      twoPages).any fun result =>
        match Pager.fork 1 2 result.2 with
        | .ok _ after => (after.pageOf ⟨2, 4096⟩).isSome
        | _ => false) = true := by
    decide +kernel
  obtain ⟨⟨events, before⟩, played, forks⟩ := (Option.any_eq_true ..).mp ended
  dsimp only at forks
  split at forks
  · rename_i after run
    exact ⟨before, after, run, forks, fork_copies (History.start.play played) run⟩
  · cases forks

end Laws

end DemandPaging
