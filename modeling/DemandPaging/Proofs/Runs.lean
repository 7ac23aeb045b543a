import DemandPaging.Proofs.Content

/-!
# Runs

A run is a sequence of turns whose deeds are of some kind. What a turn keeps, a run keeps; the kind of
the deeds says which pages may come and go and which contents may change.
-/

namespace DemandPaging

namespace Pager

/-- Turns one after the other, with deeds of some kind. -/
inductive Runs (allowed : Deed → Prop) (before : Pager) : Pager → Prop
  | refl : Runs allowed before before
  | tail {middle after : Pager} {deed : Deed} (runs : Runs allowed before middle)
      (permitted : allowed deed) (turn : Turn deed middle after) : Runs allowed before after

namespace Runs

variable {allowed more : Deed → Prop} {before middle after : Pager} {deed : Deed} {owner : Owner}
  {page : Page} {frame : Nat}

theorem single (permitted : allowed deed) (turn : Turn deed before after) :
    Runs allowed before after :=
  .tail .refl permitted turn

theorem trans (first : Runs allowed before middle) (second : Runs allowed middle after) :
    Runs allowed before after := by
  induction second with
  | refl => exact first
  | tail _ permitted turn inductionHypothesis => exact .tail inductionHypothesis permitted turn

theorem mono (runs : Runs allowed before after) (fewer : ∀ deed, allowed deed → more deed) :
    Runs more before after := by
  induction runs with
  | refl => exact .refl
  | tail _ permitted turn inductionHypothesis =>
      exact .tail inductionHypothesis (fewer _ permitted) turn

/-! ## What holds after a run -/

theorem sound (runs : Runs allowed before after) (sound : before.ledger.Sound none) :
    after.ledger.Sound none := by
  induction runs with
  | refl => exact sound
  | tail _ _ turn inductionHypothesis => exact turn.sound inductionHypothesis

theorem config (runs : Runs allowed before after) : after.config = before.config := by
  induction runs with
  | refl => rfl
  | tail _ _ turn inductionHypothesis => exact turn.config.trans inductionHypothesis

theorem tidy
    (runs : Runs allowed before after) (sound : before.ledger.Sound none) (tidy : before.Tidy) :
    after.Tidy := by
  induction runs with
  | refl => exact tidy
  | tail runs _ turn inductionHypothesis => exact turn.tidy (runs.sound sound) inductionHypothesis

/-- A layout that may not be replaced stays. -/
theorem layout?
    {pid : Pid} (runs : Runs allowed before after)
    (kept : ∀ deed, allowed deed → ¬ deed.Replaces pid) :
    after.layout? pid = before.layout? pid := by
  induction runs with
  | refl => rfl
  | tail _ permitted turn inductionHypothesis =>
      exact (turn.layout? (kept _ permitted)).trans inductionHypothesis

/-- What is recorded as a region stays where neither its process nor its record may go. -/
theorem region?
    {pid : Pid} {base : Nat} (runs : Runs allowed before after) (unremoved : ¬ allowed (.removed pid))
    (unreached : ∀ reach, allowed (.relaid pid reach) → ¬ reach.Includes base) :
    after.region? pid base = before.region? pid base := by
  induction runs with
  | refl => rfl
  | tail _ permitted turn inductionHypothesis =>
      exact (turn.region? (fun removed => unremoved (removed ▸ permitted))
        fun reach relaid => unreached reach (relaid ▸ permitted)).trans inductionHypothesis

/-- Pages that may not be discarded go on. -/
theorem continues
    (runs : Runs allowed before after) (sound : before.ledger.Sound none)
    (present : before.ledger.pages owner = some page)
    (kept : ∀ new, new.Continues page → ¬ allowed (.discarded owner new)) :
    ∃ new, after.ledger.pages owner = some new ∧ new.Continues page := by
  induction runs with
  | refl => exact ⟨page, present, .refl page⟩
  | tail runs permitted turn inductionHypothesis =>
      obtain ⟨meanwhile, presentThen, earlier⟩ := inductionHypothesis
      obtain ⟨new, presentNow, later⟩ := (turn.step (runs.sound sound)).continues presentThen
        fun discarded => kept meanwhile earlier (discarded ▸ permitted)
      exact ⟨new, presentNow, later.trans earlier⟩

/-- Where no page may be claimed or discarded every page stays as it is. -/
theorem unmoved
    (runs : Runs allowed before after) (sound : before.ledger.Sound none)
    (present : before.ledger.pages owner = some page) (kept : ¬ allowed (.discarded owner page))
    (unclaimed : ∀ other, ¬ allowed (.claimed other) ∧ ¬ allowed (.missed other)) :
    after.ledger.pages owner = some page := by
  induction runs with
  | refl => exact present
  | tail runs permitted turn inductionHypothesis =>
      apply (turn.step (runs.sound sound)).unmoved inductionHypothesis
      · exact fun discarded => kept (discarded ▸ permitted)
      · intro other
        exact ⟨fun claimed => (unclaimed other).1 (claimed ▸ permitted),
          fun missed => (unclaimed other).2 (missed ▸ permitted)⟩

/-- A page that was not touched stays as it is if it may not be claimed. -/
theorem waits
    {load : LazyLoad} (runs : Runs allowed before after) (sound : before.ledger.Sound none)
    (present : before.ledger.pages owner = some page) (pending : page.kind = .pending load)
    (kept : ¬ allowed (.discarded owner page)) (unclaimed : ¬ allowed (.claimed owner)) :
    after.ledger.pages owner = some page := by
  induction runs with
  | refl => exact present
  | tail runs permitted turn inductionHypothesis =>
      exact (turn.step (runs.sound sound)).waits (runs.sound sound) inductionHypothesis pending
        (fun discarded => kept (discarded ▸ permitted)) fun claimed => unclaimed (claimed ▸ permitted)

/-- No page appears where none may be reserved. -/
theorem vacant
    (runs : Runs allowed before after) (sound : before.ledger.Sound none)
    (vacant : before.ledger.pages owner = none)
    (unreserved : ∀ page, ¬ allowed (.reserved owner page)) :
    after.ledger.pages owner = none := by
  induction runs with
  | refl => exact vacant
  | tail runs permitted turn inductionHypothesis =>
      exact (turn.step (runs.sound sound)).vacant inductionHypothesis
        fun page reserved => unreserved page (reserved ▸ permitted)

/-- A page that may not be reserved goes on from before. -/
theorem continued
    {new : Page} (runs : Runs allowed before after) (sound : before.ledger.Sound none)
    (present : after.ledger.pages owner = some new)
    (unreserved : ∀ page, ¬ allowed (.reserved owner page)) :
    ∃ page, before.ledger.pages owner = some page ∧ new.Continues page := by
  induction runs generalizing new with
  | refl => exact ⟨new, present, .refl new⟩
  | tail runs permitted turn inductionHypothesis =>
      obtain ⟨meanwhile, presentThen, later⟩ := (turn.step (runs.sound sound)).continued present
        fun reserved => unreserved new (reserved ▸ permitted)
      obtain ⟨page, presentBefore, earlier⟩ := inductionHypothesis presentThen
      exact ⟨page, presentBefore, later.trans earlier⟩

/-- A page with a pinned frame keeps it. -/
theorem holds
    (runs : Runs allowed before after) (sound : before.ledger.Sound none)
    (present : before.ledger.pages owner = some page) (resident : page.frame = some frame)
    (pinned : before.ledger.pinned frame = true) (kept : ¬ allowed (.discarded owner page))
    (held : ¬ allowed (.unpinned frame)) :
    after.ledger.pages owner = some page ∧ after.ledger.pinned frame = true := by
  induction runs with
  | refl => exact ⟨present, pinned⟩
  | tail runs permitted turn inductionHypothesis =>
      exact (turn.step (runs.sound sound)).holds (runs.sound sound) inductionHypothesis.1
        resident inductionHypothesis.2 (fun discarded => kept (discarded ▸ permitted))
          fun unpinned => held (unpinned ▸ permitted)

/-- No page gets marked as changed but by touching it or by hand. -/
theorem unmarked
    (runs : Runs allowed before after) (sound : before.ledger.Sound none)
    (clean : before.dirtyOf owner ≠ some true)
    (kept : ¬ allowed (.touched owner) ∧ ¬ allowed (.dirtied owner)) :
    after.dirtyOf owner ≠ some true := by
  induction runs with
  | refl => exact clean
  | tail runs permitted turn inductionHypothesis =>
      rcases turn.dirtyOf (runs.sound sound) owner with same | gone | ⟨_, fresh⟩ | ⟨marks, _⟩
      · rw [same]
        exact inductionHypothesis
      · rw [gone]
        simp
      · rw [fresh]
        simp
      · rcases marks with rfl | rfl
        · exact absurd permitted kept.1
        · exact absurd permitted kept.2

/-- A page with a pinned frame is marked as changed if it was. -/
theorem dirtyOf_held
    (runs : Runs allowed before after) (sound : before.ledger.Sound none)
    (present : before.ledger.pages owner = some page) (resident : page.frame = some frame)
    (pinned : before.ledger.pinned frame = true) (kept : ¬ allowed (.discarded owner page))
    (held : ¬ allowed (.unpinned frame)) (unclaimed : ¬ allowed (.claimed owner))
    (unmarked : ¬ allowed (.touched owner) ∧ ¬ allowed (.dirtied owner)) :
    after.dirtyOf owner = before.dirtyOf owner := by
  induction runs with
  | refl => rfl
  | tail runs permitted turn inductionHypothesis =>
      have whole := Runs.tail runs permitted turn
      rcases turn.dirtyOf (runs.sound sound) owner with same | gone | ⟨rfl, _⟩ | ⟨marks, _⟩
      · exact same.trans inductionHypothesis
      · obtain ⟨still, _⟩ := whole.holds sound present resident pinned kept held
        obtain ⟨dirty, bit⟩ := dirtyOf_of_resident (whole.sound sound) still resident
        rw [gone] at bit
        cases bit
      · exact absurd permitted unclaimed
      · rcases marks with rfl | rfl
        · exact absurd permitted unmarked.1
        · exact absurd permitted unmarked.2

/-- The journal of a run accounts for what became of the contents. -/
theorem accounts (runs : Runs allowed before after) (sound : before.ledger.Sound none) :
    ∃ journal, Accounts journal allowed before after := by
  induction runs with
  | refl => exact ⟨[], .refl before allowed⟩
  | tail runs permitted turn inductionHypothesis =>
      obtain ⟨earlier, first⟩ := inductionHypothesis
      obtain ⟨later, second⟩ := turn.accounts (runs.sound sound)
      exact ⟨later ++ earlier, first.trans (second.mono fun _ same => same ▸ permitted)⟩

theorem journal (runs : Runs allowed before after) (sound : before.ledger.Sound none) :
    ∃ later, after.journal = later ++ before.journal := by
  obtain ⟨later, accounts⟩ := runs.accounts sound
  exact ⟨later, accounts.noted⟩

theorem content_untouched
    (runs : Runs allowed before after) (sound : before.ledger.Sound none)
    (untouched : ∀ deed, allowed deed → ¬ deed.Touches owner) :
    after.ledger.content owner = before.ledger.content owner := by
  induction runs with
  | refl => rfl
  | tail runs permitted turn inductionHypothesis =>
      have step := turn.step (runs.sound sound)
      rw [← inductionHypothesis]
      exact step.content_untouched (runs.sound sound) (untouched _ permitted)

/-- An initialized page keeps its content if it is neither discarded nor altered. -/
theorem content_kept
    (runs : Runs allowed before after) (sound : before.ledger.Sound none)
    (present : before.ledger.pages owner = some page)
    (initialized : ∀ load, page.kind ≠ .pending load)
    (kept : ∀ new, new.Continues page → ¬ allowed (.discarded owner new))
    (unaltered : ∀ deed, allowed deed → ¬ deed.Alters owner) :
    after.ledger.content owner = before.ledger.content owner := by
  induction runs with
  | refl => rfl
  | tail runs permitted turn inductionHypothesis =>
      obtain ⟨meanwhile, presentThen, continues⟩ := runs.continues sound present kept
      have still : ∀ load, meanwhile.kind ≠ .pending load := fun load pending =>
        initialized load (continues.pending load pending)
      rw [← inductionHypothesis]
      exact (turn.step (runs.sound sound)).content_kept (runs.sound sound) presentThen still
        (fun discarded => kept meanwhile continues (discarded ▸ permitted)) (unaltered _ permitted)

end Runs

/-! ## Runs that leave no pins -/

/-- A run after which no frame is pinned that was not pinned before. -/
structure Reaches (allowed : Deed → Prop) (before after : Pager) : Prop where
  runs : Runs allowed before after
  pinned : ∀ frame, after.ledger.pinned frame = true → before.ledger.pinned frame = true

/-- Some frame may be taken, if there are frames at all. -/
def HasRoom (pager : Pager) : Prop :=
  pager.config.frameCount = 0 ∨
    ∃ frame, frame < pager.config.frameCount ∧ pager.ledger.pinned frame = false

/-- The holdings agree and a frame can be found for every page. -/
structure Ready (pager : Pager) : Prop where
  sound : pager.ledger.Sound none
  room : pager.HasRoom

namespace Reaches

variable {allowed more : Deed → Prop} {before middle after : Pager} {deed : Deed}

theorem refl (pager : Pager) : Reaches allowed pager pager :=
  ⟨.refl, fun _ pinned => pinned⟩

theorem trans (first : Reaches allowed before middle) (second : Reaches allowed middle after) :
    Reaches allowed before after :=
  ⟨first.runs.trans second.runs, fun frame pinned => first.pinned frame (second.pinned frame pinned)⟩

theorem mono (reaches : Reaches allowed before after)
    (fewer : ∀ deed, allowed deed → more deed) : Reaches more before after :=
  ⟨reaches.runs.mono fewer, reaches.pinned⟩

/-- A turn that pins nothing. -/
theorem turn
    (turn : Turn deed before after) (sound : before.ledger.Sound none) (permitted : allowed deed)
    (unpinning : ∀ frame, deed ≠ .pinned frame) : Reaches allowed before after :=
  ⟨.single permitted turn, fun frame pinned =>
    (turn.step sound).pinned_of pinned (unpinning frame)⟩

theorem ready (reaches : Reaches allowed before after) (ready : before.Ready) : after.Ready where
  sound := reaches.runs.sound ready.sound
  room := by
    have same := reaches.runs.config
    rcases ready.room with none | ⟨frame, inside, unpinned⟩
    · exact Or.inl (by rw [same]; exact none)
    · refine Or.inr ⟨frame, by rw [same]; exact inside, ?_⟩
      rw [Bool.eq_false_iff]
      intro pinned
      rw [reaches.pinned frame pinned] at unpinned
      cases unpinned

end Reaches

end Pager

end DemandPaging
