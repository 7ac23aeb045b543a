import DemandPaging.Pager.Fork
import DemandPaging.Proofs.Accessing

/-!
# Copies of processes

A page of the parent is pinned while the page of the child gets its frame, so both are resident when the
content is copied. No later copy touches either of them, so in the end the child shows what the parent
shows.
-/

namespace DemandPaging

namespace Deed

/-- Deeds by which a page may be reserved, claimed and filled with a copy. -/
def Fills (owner : Owner) (page : Page) : Deed → Prop
  | reserved other new => other = owner ∧ new = page
  | claimed other | missed other | copied other => other = owner
  | closed _ => True
  | _ => False

/-- Deeds by which pages of a process may be copied to its child. The pages of the child are like those
that the parent had at first. -/
def Copies (originals : Owner → Option Page) (parent child : Pid) (vas : List Nat) : Deed → Prop
  | claimed owner | missed owner => (owner.pid = parent ∨ owner.pid = child) ∧ owner.va ∈ vas
  | reserved owner page => (owner.pid = child ∧
      ∃ original, originals ⟨parent, owner.va⟩ = some original ∧ page.Alike original) ∧ owner.va ∈ vas
  | copied owner | dirtied owner => owner.pid = child ∧ owner.va ∈ vas
  | pinned _ | unpinned _ | reopened _ | closed _ => True
  | _ => False

/-- Deeds by which a process may be copied. -/
def Forks (originals : Owner → Option Page) (parent child : Pid) : Deed → Prop
  | claimed owner | missed owner => owner.pid = parent ∨ owner.pid = child
  | reserved owner page => owner.pid = child ∧
      ∃ original, originals ⟨parent, owner.va⟩ = some original ∧ page.Alike original
  | copied owner | dirtied owner => owner.pid = child
  | pinned _ | unpinned _ | reopened _ | closed _ => True
  | created pid | relaid pid _ => pid = child
  | _ => False

variable {originals : Owner → Option Page} {parent child : Pid} {vas : List Nat} {deed : Deed}

theorem Copies.mono {more : List Nat} (copies : deed.Copies originals parent child vas)
    (fewer : ∀ va ∈ vas, va ∈ more) : deed.Copies originals parent child more := by
  cases deed <;> first
    | exact ⟨copies.1, fewer _ copies.2⟩
    | exact trivial
    | exact absurd copies id

theorem Copies.forks (copies : deed.Copies originals parent child vas) :
    deed.Forks originals parent child := by
  cases deed <;> first
    | exact copies.1
    | exact trivial
    | exact absurd copies id

theorem Copies.not_replaces (copies : deed.Copies originals parent child vas) (pid : Pid) :
    ¬ deed.Replaces pid := by
  rintro (rfl | rfl | ⟨_, rfl⟩) <;> exact copies

theorem Claims.copies_parent {va : Nat} (claims : deed.Claims ⟨parent, va⟩) :
    deed.Copies originals parent child [va] := by
  cases deed <;> first
    | (cases claims; exact ⟨Or.inl rfl, List.mem_singleton_self va⟩)
    | exact absurd claims id

theorem Claims.fills {owner : Owner} {page : Page} (claims : deed.Claims owner) :
    deed.Fills owner page := by
  cases deed <;> first | exact claims | exact absurd claims id

theorem Reserves.fills {owner : Owner} {page : Page} (reserves : deed.Reserves owner page) :
    deed.Fills owner page := by
  cases deed <;> first | exact reserves | exact trivial | exact absurd reserves id

theorem Fills.copies {va : Nat} {page original : Page} (fills : deed.Fills ⟨child, va⟩ page)
    (origin : originals ⟨parent, va⟩ = some original) (alike : page.Alike original) :
    deed.Copies originals parent child [va] := by
  cases deed <;> first
    | (cases fills; exact ⟨Or.inr rfl, List.mem_singleton_self va⟩)
    | (cases fills; exact ⟨rfl, List.mem_singleton_self va⟩)
    | (obtain ⟨rfl, rfl⟩ := fills
       exact ⟨⟨rfl, original, origin, alike⟩, List.mem_singleton_self va⟩)
    | exact trivial
    | exact absurd fills id

end Deed

namespace Page

theorem type_copy (page : Page) : page.copy.type = page.type := by
  rcases kind : page.kind with load | held | range <;>
    simp [copy, copyLoad, type, PageKind.type, LazyLoad.target, kind]

/-- A copy is like the page. -/
theorem alike_copy (page : Page) : page.copy.Alike page := by
  refine ⟨rfl, rfl, rfl, rfl, page.type_copy, ?_⟩
  rcases kind : page.kind with (_ | _ | _) | held | range <;> simp [copy, copyLoad, kind, PageKind.mapped?]

theorem readLength_copy (page : Page) (fits : page.kind.readLength ≤ pageSize) :
    page.copy.kind.readLength ≤ pageSize := by
  rcases kind : page.kind with load | held | range
  · rw [kind] at fits
    simpa [copy, copyLoad, kind] using fits
  · simp [copy, copyLoad, kind, PageKind.readLength, LazyLoad.range?]
  · rw [kind] at fits
    simpa [copy, copyLoad, kind, PageKind.readLength, LazyLoad.range?] using fits

end Page

/-- Pages of two processes at an address that are alike, initialized, and hold the same. -/
structure Ledger.Mirrors (ledger : Ledger) (parent child : Pid) (va : Nat) (original copy : Page) :
    Prop where
  present : ledger.pages ⟨parent, va⟩ = some original
  copied : ledger.pages ⟨child, va⟩ = some copy
  alike : copy.Alike original
  initialized : ∀ load, original.kind ≠ .pending load
  filled : ∀ load, copy.kind ≠ .pending load
  content : ledger.content ⟨child, va⟩ = ledger.content ⟨parent, va⟩

/-- Pages of two processes at an address that are alike and hold the same in different frames. -/
structure Ledger.Twins (ledger : Ledger) (parent child : Pid) (va : Nat) (original copy : Page)
    (source target : Nat) : Prop where
  present : ledger.pages ⟨parent, va⟩ = some original
  resident : original.frame = some source
  copied : ledger.pages ⟨child, va⟩ = some copy
  attached : copy.frame = some target
  apart : source ≠ target
  alike : copy.Alike original
  images : ledger.images target = ledger.images source

theorem Ledger.Twins.mirrors
    {ledger : Ledger} {parent child : Pid} {va : Nat} {original copy : Page} {source target : Nat}
    (twins : ledger.Twins parent child va original copy source target)
    (sound : ledger.Sound none) : ledger.Mirrors parent child va original copy where
  present := twins.present
  copied := twins.copied
  alike := twins.alike
  initialized := sound.not_pending twins.present twins.resident
  filled := sound.not_pending twins.copied twins.attached
  content := by
    rw [sound.content_of_resident twins.copied twins.attached,
      sound.content_of_resident twins.present twins.resident, twins.alike.type, twins.images]

namespace Pager

open PagerM

variable {before : Pager} {originals : Owner → Option Page} {parent child : Pid} {va : Nat}
  {page : Page}

/-- Pages that hold the same go on to hold the same. -/
theorem Runs.mirrors
    {allowed : Deed → Prop} {after : Pager} {original copy : Page} (runs : Runs allowed before after)
    (sound : before.ledger.Sound none) (mirrors : before.ledger.Mirrors parent child va original copy)
    (kept : ∀ pid, pid = parent ∨ pid = child → (∀ page, ¬ allowed (.discarded ⟨pid, va⟩ page)) ∧
      ∀ deed, allowed deed → ¬ deed.Alters ⟨pid, va⟩) :
    ∃ newOriginal newCopy, after.ledger.Mirrors parent child va newOriginal newCopy := by
  have still {pid : Pid} {page : Page} (is : pid = parent ∨ pid = child)
      (present : before.ledger.pages ⟨pid, va⟩ = some page)
      (initialized : ∀ load, page.kind ≠ .pending load) :
      (∃ new, after.ledger.pages ⟨pid, va⟩ = some new ∧ new.Continues page ∧
        ∀ load, new.kind ≠ .pending load) ∧
        after.ledger.content ⟨pid, va⟩ = before.ledger.content ⟨pid, va⟩ := by
    obtain ⟨undiscarded, unaltered⟩ := kept pid is
    obtain ⟨new, presentThen, continues⟩ := runs.continues sound present fun new _ => undiscarded new
    exact ⟨⟨new, presentThen, continues, fun load pending =>
        initialized load (continues.pending load pending)⟩,
      runs.content_kept sound present initialized (fun new _ => undiscarded new) unaltered⟩
  obtain ⟨⟨newOriginal, present, continues, initialized⟩, parentContent⟩ :=
    still (Or.inl rfl) mirrors.present mirrors.initialized
  obtain ⟨⟨newCopy, copied, copyContinues, filled⟩, childContent⟩ :=
    still (Or.inr rfl) mirrors.copied mirrors.filled
  refine ⟨newOriginal, newCopy, present, copied, ?_, initialized, filled, ?_⟩
  · exact copyContinues.toAlike.trans (mirrors.alike.trans continues.toAlike.symm)
  · rw [childContent, parentContent, mirrors.content]

/-! ## One page -/

theorem meets_reopenForCopy (sound : before.ledger.Sound none) (vas : List Nat) (page : Page) :
    (reopenForCopy page).Meets before
      (Proceeds (Deed.Copies originals parent child vas) before
        (fun _ after => after.ledger = before.ledger) fun _ _ => True) := by
  unfold reopenForCopy
  split
  · exact answers_here rfl
  · apply (proceeds_reopenFile sound trivial).andThen _ fun _ _ _ => False.elim
    rintro opened _ _ rfl
    cases opened with
    | true => exact answers_here rfl
    | false => exact fails_here id trivial

/-- The page of the parent is resident when its frame and its dirty bit are known. -/
theorem meets_claimSource
    (ready : before.Ready) (aligned : pageBase va = va) :
    (claimSource parent va).Meets before
      (Proceeds (Deed.Copies originals parent child [va]) before
        (fun answer after => (∃ page, after.ledger.pages ⟨parent, va⟩ = some page ∧
          page.frame = some answer.1) ∧ after.dirtyOf ⟨parent, va⟩ = some answer.2)
        fun _ _ => True) := by
  have claims := meets_claim ready parent va
  rw [aligned] at claims
  apply (claims.weaken (fun _ => Deed.Claims.copies_parent) (fun _ _ => And.intro)
    fun _ _ _ _ => trivial).andThen _ fun _ _ _ => id
  rintro _ middle - ⟨reaches, page, frame, present, resident⟩
  obtain ⟨space, found⟩ := space?_of_page present
  have shown : space.page? va = some page := by
    rw [page?_of_space found, aligned]
    exact present
  have framed : space.frame? va = some frame := by
    rw [AddressSpace.frame?, shown]
    exact resident
  have table : middle.table parent = space.table := by rw [Pager.table, found]
  obtain ⟨dirty, bit⟩ := dirtyOf_of_resident (reaches.runs.sound ready.sound) present resident
  have isDirty := @isDirty_eq middle ⟨parent, va⟩ aligned
  rw [bit, Option.getD_some, table] at isDirty
  rw [meets_bind, meets_requireSpace]
  simp only [found, framed]
  refine answers_here ⟨⟨page, present, resident⟩, ?_⟩
  rw [bit]
  exact congrArg some isDirty.symm

/-- The frames of resident pages are known. -/
theorem meets_copyFrames
    {copy : Page} {source target : Nat} (aligned : pageBase va = va)
    (original : before.ledger.pages ⟨parent, va⟩ = some page)
    (resident : page.frame = some source)
    (copied : before.ledger.pages ⟨child, va⟩ = some copy) (attached : copy.frame = some target)
    (ending : Ending (Nat × Nat)) :
    (copyFrames parent child va).Meets before ending ↔
      ending.answers (source, target) before := by
  have framed {pid : Pid} {page : Page} {frame : Nat}
      (present : before.ledger.pages ⟨pid, va⟩ = some page) (resident : page.frame = some frame) :
      ∃ space, before.space? pid = some space ∧ space.frame? va = some frame := by
    obtain ⟨space, found⟩ := space?_of_page present
    refine ⟨space, found, ?_⟩
    rw [AddressSpace.frame?, page?_of_space found, aligned, present]
    exact resident
  obtain ⟨parentSpace, parentFound, sourceFound⟩ := framed original resident
  obtain ⟨childSpace, childFound, targetFound⟩ := framed copied attached
  simp only [copyFrames, meets_bind, meets_get, parentFound, childFound, sourceFound,
    targetFound, meets_pure]

/-- Filling the frame of the child with what the frame of the parent holds makes the pages twins. -/
theorem twins_copied
    {copy : Page} {source target : Nat} (sound : before.ledger.Sound none)
    (apart : parent ≠ child) (original : before.ledger.pages ⟨parent, va⟩ = some page)
    (resident : page.frame = some source)
    (copied : before.ledger.pages ⟨child, va⟩ = some copy) (attached : copy.frame = some target)
    (alike : copy.Alike page) :
    (before.modifyFrames fun frames =>
      frames.setImage target (before.frames.image source)).ledger.Twins parent child va page copy
        source target := by
  have owned := sound.owner_of_page copied attached
  have different : source ≠ target := by
    rintro rfl
    rw [sound.owner_of_page original resident] at owned
    cases owned
    exact apart rfl
  rw [ledger_setImage (sound.lt_frameCount owned)]
  refine ⟨original, resident, copied, attached, different, alike, ?_⟩
  simp only [Ledger.setImage, Function.update_self, Function.update_of_ne different]
  rfl

/-- Whether a page of the parent was copied to a clean page of the child and left as it was. -/
def Copied (before after : Pager) (parent child : Pid) (va : Nat) : Prop :=
  (∃ original copy source target,
    after.ledger.Twins parent child va original copy source target) ∧
  after.dirtyOf ⟨parent, va⟩ = before.dirtyOf ⟨parent, va⟩ ∧ after.dirtyOf ⟨child, va⟩ = some false

theorem meets_fillCopy
    {copy : Page} {load : LazyLoad} {source : Nat} (ready : before.Ready)
    (apart : parent ≠ child) (aligned : pageBase va = va)
    (original : before.ledger.pages ⟨parent, va⟩ = some page)
    (resident : page.frame = some source) (pinned : before.ledger.pinned source = true)
    (place : copy.va = va) (fits : copy.kind.readLength ≤ pageSize)
    (pending : copy.kind = .pending load) (absent : copy.frame = none)
    (alike : copy.Alike page) :
    (fillCopy parent child va copy).Meets before
      (Proceeds (Deed.Fills ⟨child, va⟩ copy) before
        (fun _ after => Copied before after parent child va) fun _ _ => True) := by
  subst place
  have elsewhere : (⟨parent, copy.va⟩ : Owner) ≠ ⟨child, copy.va⟩ := by
    simpa using apart
  have pageAligned : pageAligned copy.va = true := by
    rw [← aligned]
    exact pageAligned_pageBase copy.va
  apply ((meets_reservePage ready.sound pageAligned fits pending absent).weaken
    (fun _ => Deed.Reserves.fills) (fun _ _ _ => id) fun _ _ _ _ => trivial).andThen _
      fun _ _ _ _ => trivial
  intro _ reserved reserves present
  have reservedReady := reserves.ready ready
  obtain ⟨still, stillPinned⟩ := reserves.runs.holds ready.sound original resident pinned id id
  have bit := reserves.runs.dirtyOf_held ready.sound original resident pinned id id elsewhere
    ⟨id, id⟩
  have untouched : reserved.dirtyOf ⟨child, copy.va⟩ = none := by
    apply dirtyOf_of_vacant reservedReady.sound
    intro other presentOther
    rw [present] at presentOther
    cases presentOther
    exact absent
  have claims := meets_claim reservedReady child copy.va
  rw [aligned] at claims
  apply ((claims.weaken (fun _ => Deed.Claims.fills) (fun _ _ _ => id)
    fun _ _ _ _ => trivial).andThen _ fun _ _ _ _ => trivial)
  rintro _ claimed claim ⟨attachedCopy, target, attached, targetFrame⟩
  have sound := (claim.ready reservedReady).sound
  obtain ⟨now, _⟩ := claim.runs.holds reservedReady.sound still resident stillPinned id id
  have bitNow := claim.runs.dirtyOf_held reservedReady.sound still resident stillPinned id id
    elsewhere ⟨id, id⟩
  have clean := claim.runs.unmarked reservedReady.sound (by rw [untouched]; simp) ⟨id, id⟩
  obtain ⟨continued, continuedPresent, continues⟩ :=
    claim.runs.continues reservedReady.sound present fun _ _ => id
  rw [attached] at continuedPresent
  cases continuedPresent
  have targetInside := sound.lt_frameCount (sound.owner_of_page attached targetFrame)
  have sourceInside := sound.lt_frameCount (sound.owner_of_page now resident)
  rw [meets_bind, meets_copyFrames aligned now resident attached targetFrame]
  dsimp only
  rw [meets_bind, meets_checkBytes targetInside]
  dsimp only
  rw [meets_bind, meets_frameImage sourceInside]
  dsimp only
  have turn := Turn.copied attached targetFrame (claimed.frames.image source)
  have twins := twins_copied sound apart now resident attached targetFrame
    (continues.toAlike.trans alike)
  obtain ⟨dirty, childBit⟩ := dirtyOf_of_resident sound attached targetFrame
  have isClean : claimed.dirtyOf ⟨child, copy.va⟩ = some false := by
    cases dirty with
    | false => exact childBit
    | true => exact absurd childBit clean
  exact meets_modify_turn turn sound rfl (by simp)
    ⟨⟨_, _, _, _, twins⟩, bitNow.trans bit, isClean⟩

/-- No frame is pinned. -/
def Unpinned (pager : Pager) : Prop :=
  ∀ frame, pager.ledger.pinned frame = false

theorem Reaches.unpinned
    {allowed : Deed → Prop} {after : Pager} (reaches : Reaches allowed before after)
    (unpinned : before.Unpinned) : after.Unpinned := by
  intro frame
  rw [Bool.eq_false_iff]
  intro pinned
  have was := reaches.pinned frame pinned
  rw [unpinned frame] at was
  cases was

theorem Unpinned.ready (unpinned : before.Unpinned) (sound : before.ledger.Sound none) :
    before.Ready := by
  refine ⟨sound, ?_⟩
  by_cases frames : before.config.frameCount = 0
  · exact Or.inl frames
  · exact Or.inr ⟨0, Nat.pos_of_ne_zero frames, unpinned 0⟩

/-- With two frames one may be pinned. -/
theorem ready_pin
    {frame : Nat} {owner : Owner} (sound : before.ledger.Sound none)
    (unpinned : before.Unpinned) (frames : 2 ≤ before.config.frameCount)
    (owned : before.ledger.owners frame = some owner) :
    (before.modifyFrames fun frames => frames.pin frame).Ready := by
  refine ⟨(Turn.pinned owned).sound sound, Or.inr ?_⟩
  rw [ledger_pin (sound.lt_frameCount owned)]
  by_cases first : frame = 0
  · exact ⟨1, frames, (Function.update_of_ne (by omega) ..).trans (unpinned 1)⟩
  · exact ⟨0, Nat.zero_lt_of_lt frames, (Function.update_of_ne (Ne.symm first) ..).trans (unpinned 0)⟩

/-- When the copy is made or given up the frame of the parent is still pinned, and can be unpinned. -/
private theorem reaches_unpin
    {held after : Pager} {source : Nat} {copy first : Page} (ready : held.Ready)
    (pinning : Turn (.pinned source) before held)
    (shown : held.ledger = before.ledger.setPinned source true)
    (original : held.ledger.pages ⟨parent, va⟩ = some page) (resident : page.frame = some source)
    (origin : originals ⟨parent, va⟩ = some first) (alike : copy.Alike first)
    (reaches : Reaches (Deed.Fills ⟨child, va⟩ copy) held after) :
    source < after.frames.frameCount ∧
      (after.modifyFrames fun frames => frames.unpin source).ledger =
        after.ledger.setPinned source false ∧
      Reaches (Deed.Copies originals parent child [va]) before
        (after.modifyFrames fun frames => frames.unpin source) := by
  have pinned : held.ledger.pinned source = true := by
    rw [shown]
    exact Function.update_self ..
  have afterSound := reaches.runs.sound ready.sound
  obtain ⟨still, _⟩ := reaches.runs.holds ready.sound original resident pinned id id
  have owned := afterSound.owner_of_page still resident
  have inside := afterSound.lt_frameCount owned
  have released := @ledger_unpin after source inside
  have unpinning : Turn (.unpinned source) after
      (after.modifyFrames fun frames => frames.unpin source) := .unpinned owned
  have filled : Runs (Deed.Copies originals parent child [va]) held after :=
    reaches.runs.mono fun _ fills => fills.copies origin alike
  have start : Runs (Deed.Copies originals parent child [va]) before held :=
    .tail .refl (by trivial) pinning
  refine ⟨inside, released, start.trans (.tail filled (by trivial) unpinning),
    fun frame isPinned => ?_⟩
  rw [released] at isPinned
  by_cases same : frame = source
  · subst same
    simp [Ledger.setPinned] at isPinned
  · have was := reaches.pinned frame ((Function.update_of_ne same ..).symm.trans isPinned)
    rw [shown] at was
    exact (Function.update_of_ne same ..).symm.trans was

theorem meets_copyPinned
    {copy first : Page} {load : LazyLoad} {source : Nat} (sound : before.ledger.Sound none)
    (unpinned : before.Unpinned) (frames : 2 ≤ before.config.frameCount)
    (apart : parent ≠ child) (aligned : pageBase va = va)
    (original : before.ledger.pages ⟨parent, va⟩ = some page)
    (resident : page.frame = some source)
    (place : copy.va = va) (fits : copy.kind.readLength ≤ pageSize)
    (pending : copy.kind = .pending load) (absent : copy.frame = none)
    (alike : copy.Alike page) (origin : originals ⟨parent, va⟩ = some first)
    (resembles : copy.Alike first) :
    (copyPinned parent child va source copy).Meets before
      (Proceeds (Deed.Copies originals parent child [va]) before
        (fun _ after => Copied before after parent child va) fun _ _ => True) := by
  have owned := sound.owner_of_page original resident
  have inside := sound.lt_frameCount owned
  have pinning := Turn.pinned owned
  have ready := ready_pin sound unpinned frames owned
  have shown := @ledger_pin before source inside
  have bit : (before.modifyFrames fun frames => frames.pin source).dirtyOf = before.dirtyOf := rfl
  rw [copyPinned, meets_bind, meets_pinFrame inside]
  generalize before.modifyFrames _ = held at *
  have originalThen : held.ledger.pages ⟨parent, va⟩ = some page := by
    rw [shown]
    exact original
  have pinned : held.ledger.pinned source = true := by
    rw [shown]
    exact Function.update_self ..
  have released (after : Pager) (reaches : Reaches (Deed.Fills ⟨child, va⟩ copy) held after) :=
    reaches_unpin ready pinning shown originalThen resident origin resembles reaches
  refine (meets_bind ..).mpr ((meets_attempt ..).mpr ?_)
  refine (meets_fillCopy ready apart aligned originalThen resident pinned place fits pending
    absent alike).mono ?_ ?_ fun _ _ stops => ?_
  · rintro _ after ⟨reaches, ⟨parentPage, childPage, frame, target, twins⟩, parentBit, childBit⟩
    obtain ⟨insideStill, ledger, all⟩ := released after reaches
    refine (meets_unpinFrame insideStill _).mpr
      ⟨all, ⟨parentPage, childPage, frame, target, ?_⟩, ?_, childBit⟩
    · rw [ledger]
      exact ⟨twins.present, twins.resident, twins.copied, twins.attached, twins.apart, twins.alike,
        twins.images⟩
    · rw [bit] at parentBit
      exact parentBit
  · rintro error after ⟨reaches, external, _⟩
    obtain ⟨insideStill, _, all⟩ := released after reaches
    refine (meets_bind ..).mpr ((meets_unpinFrame insideStill _).mpr ?_)
    exact ⟨all, external, trivial⟩
  · exact (stops.mono fun _ fills => fills.copies origin resembles).rebase
      (.single (by trivial) pinning)

theorem meets_copyDirty
    {copy : Page} (sound : before.ledger.Sound none) (aligned : pageBase va = va) (dirty : Bool)
    (copied : before.ledger.pages ⟨child, va⟩ = some copy)
    (writable : dirty = true → copy.writable = true)
    (clean : before.dirtyOf ⟨child, va⟩ = some false) :
    (copyDirty child va dirty).Meets before
      (Proceeds (Deed.Copies originals parent child [va]) before
        (fun _ after => after.ledger = before.ledger ∧
          after.dirtyOf = Function.update before.dirtyOf ⟨child, va⟩ (some dirty))
        fun _ _ => True) := by
  unfold copyDirty
  cases dirty with
  | false =>
      rw [if_neg Bool.false_ne_true, meets_pure]
      refine answers_here ⟨rfl, ?_⟩
      rw [← clean, Function.update_eq_self]
  | true =>
      simp only [if_true, meets_bind, meets_requireSpace]
      cases found : before.space? child with
      | none => exact fails_here id trivial
      | some space =>
          have present : before.ledger.pages ⟨child, pageBase va⟩ = some copy := by
            rw [aligned]
            exact copied
          have permitted : (Deed.dirtied ⟨child, pageBase va⟩).Copies originals parent child [va] :=
            ⟨rfl, by rw [aligned]; exact List.mem_singleton_self va⟩
          have marked := @dirtyOf_setDirty before child va true
          rw [aligned, clean] at marked
          exact meets_modify_turn (.dirtied present (writable rfl)) sound permitted (by simp)
            ⟨before.ledger_setDirty child va true, marked⟩

/-- The pages of two processes at an address are in different frames that hold the same, and both are
marked as changed or neither. -/
structure Matches (pager : Pager) (parent child : Pid) (va : Nat) : Prop where
  twins : ∃ original copy source target,
    pager.ledger.Twins parent child va original copy source target
  marks : pager.dirtyOf ⟨child, va⟩ = pager.dirtyOf ⟨parent, va⟩

/-- Pages that were copied one after the other, each of which matched its copy when it was made. -/
inductive CopiesEach (parent child : Pid) : List Nat → Pager → Pager → Prop
  | nil (pager : Pager) : CopiesEach parent child [] pager pager
  | cons {va : Nat} {rest : List Nat} {before middle after : Pager}
      (run : copyPage parent child va before = .ok ⟨⟩ middle)
      (done : middle.Matches parent child va) (later : CopiesEach parent child rest middle after) :
      CopiesEach parent child (va :: rest) before after

/-- A page of the parent is copied with its mark. -/
theorem meets_copyPage
    {first : Page} (sound : before.ledger.Sound none) (unpinned : before.Unpinned)
    (tidy : before.Tidy) (frames : 2 ≤ before.config.frameCount) (apart : parent ≠ child)
    (original : before.ledger.pages ⟨parent, va⟩ = some page)
    (origin : originals ⟨parent, va⟩ = some first) (continuing : page.Continues first) :
    (copyPage parent child va).Meets before
      (Proceeds (Deed.Copies originals parent child [va]) before
        (fun _ after => after.Matches parent child va) fun _ _ => True) := by
  have placed := sound.placed _ page original
  have place : page.copy.va = va := placed.va
  have aligned : pageBase va = va := placed.aligned
  obtain ⟨space, found⟩ := space?_of_page original
  have shown : space.page? va = some page := by
    rw [page?_of_space found, aligned]
    exact original
  rw [copyPage, meets_bind, meets_requireSpace]
  simp only [found, shown]
  apply (meets_reopenForCopy sound [va] page).andThen _ fun _ _ _ _ => trivial
  intro _ opened opening same
  have openedSound := opening.runs.sound sound
  have openedUnpinned := opening.unpinned unpinned
  have openedOriginal : opened.ledger.pages ⟨parent, va⟩ = some page := by
    rw [same]
    exact original
  apply (meets_claimSource (openedUnpinned.ready openedSound) aligned).andThenAttempt
  · rintro ⟨source, dirty⟩ claimed claim ⟨⟨resident, present, framed⟩, bit⟩
    have claimedSound := claim.runs.sound openedSound
    have claimedTidy := claim.runs.tidy openedSound (opening.runs.tidy sound tidy)
    obtain ⟨continued, continuedPresent, continues⟩ :=
      claim.runs.continues openedSound openedOriginal fun _ _ => id
    rw [present] at continuedPresent
    cases continuedPresent
    have framesThen : 2 ≤ claimed.config.frameCount := by
      rw [claim.runs.config, opening.runs.config]
      exact frames
    have resembles := page.alike_copy.trans continuing.toAlike
    have alike : page.copy.Alike resident := page.alike_copy.trans continues.toAlike.symm
    dsimp only
    apply (meets_copyPinned claimedSound (claim.unpinned openedUnpinned) framesThen apart aligned
      present framed place (page.readLength_copy placed.fits) rfl rfl alike origin
        resembles).andThen _ fun _ _ _ => id
    rintro _ copied copies ⟨⟨originalNow, copyNow, fromFrame, toFrame, twins⟩, parentBit, childBit⟩
    have copiedSound := copies.runs.sound claimedSound
    have writable : dirty = true → copyNow.writable = true := by
      rintro rfl
      obtain ⟨marked, markedPresent, writable⟩ :=
        (copies.runs.tidy claimedSound claimedTidy).marked ⟨parent, va⟩ (parentBit.trans bit)
      rw [twins.present] at markedPresent
      cases markedPresent
      exact twins.alike.writable.trans writable
    apply (meets_copyDirty copiedSound aligned dirty twins.copied writable childBit).weaken
      (fun _ => id)
    · rintro _ after _ ⟨same, bits⟩
      have elsewhere : (⟨parent, va⟩ : Owner) ≠ ⟨child, va⟩ := by simpa using apart
      refine ⟨⟨originalNow, copyNow, fromFrame, toFrame, ?_⟩, ?_⟩
      · rw [same]
        exact twins
      · rw [bits, Function.update_self, Function.update_of_ne elsewhere]
        exact (parentBit.trans bit).symm
    · exact fun _ _ _ => id
  · intro error failed fails external _
    have closes : Reaches (Deed.Copies originals parent child [va]) failed
        (failed.closeHandle page.copy) :=
      reaches_closeHandle failed page.copy (fails.runs.sound openedSound) fun _ _ => trivial
    apply Meets.afterChange closes
    exact fails_here external trivial

/-! ## All pages -/

theorem meets_copyPages
    {vas : List Nat} (sound : before.ledger.Sound none) (unpinned : before.Unpinned)
    (tidy : before.Tidy) (apart : parent ≠ child)
    (frames : vas ≠ [] → 2 ≤ before.config.frameCount) (distinct : vas.Nodup)
    (original : ∀ va ∈ vas, ∃ page first, before.ledger.pages ⟨parent, va⟩ = some page ∧
      originals ⟨parent, va⟩ = some first ∧ page.Continues first) :
    (copyPages parent child vas).Meets before
      (Proceeds (Deed.Copies originals parent child vas) before
        (fun _ after => CopiesEach parent child vas before after ∧
          ∀ va ∈ vas, ∃ original copy, after.ledger.Mirrors parent child va original copy)
        fun _ _ => True) := by
  induction vas generalizing before with
  | nil => exact answers_here ⟨.nil before, fun va member => absurd member List.not_mem_nil⟩
  | cons va rest inductionHypothesis =>
      obtain ⟨page, first, present, origin, continuing⟩ := original va List.mem_cons_self
      rw [List.nodup_cons] at distinct
      have enough := frames (List.cons_ne_nil va rest)
      apply ((meets_copyPage sound unpinned tidy enough apart present origin continuing).ran.weaken
        (fun _ copies => copies.mono fun _ member => List.mem_cons.mpr (Or.inl
          (List.mem_singleton.mp member))) (fun _ _ reaches copied => And.intro reaches copied)
            fun _ _ _ => id).andThen _ fun _ _ _ => id
      rintro _ middle _ ⟨copied, run, done⟩
      obtain ⟨_, _, _, _, twins⟩ := done.twins
      have middleSound := copied.runs.sound sound
      have mirrors := twins.mirrors middleSound
      apply (inductionHypothesis middleSound (copied.unpinned unpinned)
        (copied.runs.tidy sound tidy) (fun _ => by rw [copied.runs.config]; exact enough)
          distinct.2 ?_).weaken
          (fun _ copies => copies.mono fun _ => List.mem_cons_of_mem va)
      · rintro _ after reaches ⟨later, rest⟩
        refine ⟨.cons run done later, fun other member => ?_⟩
        rcases List.mem_cons.mp member with rfl | inRest
        · apply reaches.runs.mirrors middleSound mirrors
          intro pid _
          refine ⟨fun _ => id, fun deed copies => ?_⟩
          rintro (rfl | rfl)
          · exact copies
          · exact distinct.1 copies.2
        · exact rest other inRest
      · exact fun _ _ _ => id
      · intro other member
        obtain ⟨page, first, present, origin, continuing⟩ :=
          original other (List.mem_cons_of_mem va member)
        obtain ⟨new, presentThen, continues⟩ := copied.runs.continues sound present fun _ _ => id
        exact ⟨new, first, presentThen, origin, continues.trans continuing⟩

theorem meets_reopenRegions
    {allowed : Deed → Prop} (sound : before.ledger.Sound none)
    (opens : ∀ file, allowed (.reopened file)) (closes : ∀ file, allowed (.closed file))
    (regions : List Region) :
    (reopenRegions regions).Meets before
      (Proceeds allowed before (fun _ after => ∃ files, after = { before with files := files })
        fun _ _ => True) := by
  induction regions generalizing before with
  | nil => exact answers_here ⟨before.files, rfl⟩
  | cons region rest inductionHypothesis =>
      apply (proceeds_reopenFile sound (opens region.file)).andThen _ fun _ _ _ => False.elim
      rintro opened _ reaches rfl
      have middleSound := reaches.runs.sound sound
      cases opened with
      | false => exact fails_here id trivial
      | true =>
          apply (inductionHypothesis middleSound).andThenAttempt
          · rintro _ after _ ⟨files, rfl⟩
            exact answers_here ⟨files, rfl⟩
          · intro error failed fails external _
            apply Meets.afterChange (.turn (.closed failed region.file)
              (fails.runs.sound middleSound) (closes region.file) (by simp))
            exact fails_here external trivial

/-- A child without pages that starts with the layout of its parent. -/
def laidOut (pager : Pager) (child : Pid) (space : AddressSpace) : Pager :=
  pager.modifySpace child fun copy =>
    { copy with stackPointer := space.stackPointer, regions := space.regions }

theorem ledger_laidOut (pager : Pager) (child : Pid) (space : AddressSpace) :
    (pager.laidOut child space).ledger = pager.ledger := by
  unfold laidOut
  exact ledger_modifySpace_of_same pager child (fun _ => rfl) fun _ _ => rfl

/-- A process has a copy of every page of another and the same layout. -/
structure Replicated (before after : Pager) (parent child : Pid) : Prop where
  mirrors : ∀ va, before.ledger.pages ⟨parent, va⟩ ≠ none →
    ∃ original copy, after.ledger.Mirrors parent child va original copy
  vacant : ∀ va, before.ledger.pages ⟨parent, va⟩ = none →
    after.ledger.pages ⟨parent, va⟩ = none ∧ after.ledger.pages ⟨child, va⟩ = none
  layout : after.layout? child = before.layout? parent
  copied : ∃ space opened, before.space? parent = some space ∧
    reopenRegions space.regionList before = .ok ⟨⟩ opened ∧
      CopiesEach parent child space.pages.keys (opened.laidOut child space) after

theorem Replicated.content
    {after : Pager} (replicated : Replicated before after parent child) (va : Nat) :
    after.ledger.content ⟨child, va⟩ = after.ledger.content ⟨parent, va⟩ := by
  cases present : before.ledger.pages ⟨parent, va⟩ with
  | none =>
      obtain ⟨none, noCopy⟩ := replicated.vacant va present
      rw [Ledger.content_of_vacant none, Ledger.content_of_vacant noCopy]
  | some page =>
      obtain ⟨_, _, mirrors⟩ := replicated.mirrors va (by rw [present]; exact nofun)
      exact mirrors.content

/-- A child without pages gets all pages of its parent. -/
theorem meets_copySpace
    {empty : AddressSpace} (sound : before.ledger.Sound none) (unpinned : before.Unpinned)
    (tidy : before.Tidy) (apart : parent ≠ child)
    (frames : (∃ va, before.ledger.pages ⟨parent, va⟩ ≠ none) → 2 ≤ before.config.frameCount)
    (blank : before.space? child = some empty)
    (vacant : ∀ va, before.ledger.pages ⟨child, va⟩ = none) :
    (copySpace parent child).Meets before
      (Proceeds (Deed.Forks before.ledger.pages parent child) before
        (fun _ after => Replicated before after parent child) fun _ _ => True) := by
  rw [copySpace, meets_bind, meets_requireSpace]
  dsimp only
  cases found : before.space? parent with
  | none => exact fails_here id trivial
  | some space =>
      dsimp only
      have keys (va : Nat) : va ∈ space.pages.keys ↔ before.ledger.pages ⟨parent, va⟩ ≠ none := by
        rw [← pages_of_space found, Std.ExtTreeMap.mem_keys,
          Std.ExtTreeMap.mem_iff_isSome_getElem?, Option.isSome_iff_ne_none]
      have keyed : space.layout.IsKeyed := by
        apply tidy.keyed parent
        rw [layout?, found]
        rfl
      apply (meets_reopenRegions sound (fun _ => trivial) (fun _ => trivial)
        space.regionList).ran.andThen _ fun _ _ _ => id
      rintro _ opened opening ⟨reopened, files, rfl⟩
      generalize openedIs : ({ before with files := files } : Pager) = opened at *
      have openedSound := opening.runs.sound sound
      have laid : Reaches (Deed.Forks before.ledger.pages parent child) opened
          (opened.laidOut child space) :=
        .turn (@Turn.relaid opened child .everywhere _ (fun _ => rfl) (fun _ => rfl)
          (fun _ _ => keyed) fun _ _ outside => absurd trivial outside) openedSound rfl (by simp)
      have still : (opened.laidOut child space).ledger = before.ledger := by
        rw [ledger_laidOut, ← openedIs]
        rfl
      have layout : (opened.laidOut child space).layout? child = before.layout? parent := by
        rw [layout?, laidOut, space?_modifySpace, if_pos rfl, layout?, found, ← openedIs]
        show ((before.space? child).map _).map _ = _
        rw [blank]
        rfl
      apply Meets.afterChange laid
      have readySound := laid.runs.sound openedSound
      have readyTidy := laid.runs.tidy openedSound (opening.runs.tidy sound tidy)
      apply (meets_copyPages readySound (laid.unpinned (opening.unpinned unpinned)) readyTidy apart
        ?_ Std.ExtTreeMap.nodup_keys ?_).weaken (fun _ => Deed.Copies.forks)
      · rintro _ after copies ⟨each, mirrors⟩
        refine ⟨fun va present => mirrors va ((keys va).mpr present), fun va none => ?_, ?_,
          space, opened, found, reopened, each⟩
        · have uncopied (pid : Pid)
              (before : (opened.laidOut child space).ledger.pages ⟨pid, va⟩ = Option.none) :
              after.ledger.pages ⟨pid, va⟩ = Option.none :=
            copies.runs.vacant readySound before fun _ reserves => (keys va).mp reserves.2 none
          refine ⟨uncopied parent ?_, uncopied child ?_⟩
          · rw [still]
            exact none
          · rw [still]
            exact vacant va
        · rw [copies.runs.layout? fun _ copies => copies.not_replaces child]
          exact layout
      · exact fun _ _ _ => id
      · intro some
        rw [laid.runs.config, opening.runs.config]
        obtain ⟨va, member⟩ := List.exists_mem_of_ne_nil _ some
        exact frames ⟨va, (keys va).mp member⟩
      · intro va member
        obtain ⟨page, present⟩ := Option.ne_none_iff_exists'.mp ((keys va).mp member)
        refine ⟨page, page, ?_, present, .refl page⟩
        rw [still]
        exact present

/-! ## Forks -/

theorem meets_createProcess (sound : before.ledger.Sound none) (pid : Pid) :
    (createProcess pid).Meets before
      (Proceeds (fun deed => deed = .created pid) before
        (fun _ after => before.space? pid = none ∧ after.ledger = before.ledger ∧
          after.space? pid = some (AddressSpace.empty before.config.stackTop) ∧
          ∀ other, other ≠ pid → after.space? other = before.space? other)
        fun _ after => after = before) := by
  rw [createProcess, meets_bind, meets_get]
  dsimp only
  split
  · exact fails_here id rfl
  · rename_i free
    have absent : before.space? pid = none := by simpa [space?] using free
    exact ⟨.turn (.created absent) sound rfl (by simp), absent,
      ledger_createProcess before pid absent _, by simp [space?], fun other apart => by
        simp [space?, Std.ExtTreeMap.getElem?_insert, Ne.symm apart]⟩

/-- There are two frames for a page and its copy, or there is nothing to copy. -/
theorem two_le_frameCount
    {parent : Pid} {space : AddressSpace} (sound : before.ledger.Sound none)
    (found : before.space? parent = some space)
    (enough : ¬ (!space.pages.isEmpty && decide (before.frames.frameCount < 2)) = true)
    (nonempty : ∃ va, before.ledger.pages ⟨parent, va⟩ ≠ none) : 2 ≤ before.config.frameCount := by
  obtain ⟨va, present⟩ := nonempty
  rw [← pages_of_space found] at present
  have occupied : space.pages.isEmpty = false := by
    rw [Bool.eq_false_iff]
    intro empty
    exact present (by simp [Std.ExtTreeMap.isEmpty_iff.mp empty])
  have sized : before.frames.frameCount = before.config.frameCount := sound.sized
  rw [occupied, Bool.not_false, Bool.true_and, decide_eq_true_eq] at enough
  rw [← sized]
  exact Nat.le_of_not_lt enough

/-- A copy of a process is made as a whole or not at all. -/
theorem meets_fork
    (sound : before.ledger.Sound none) (unpinned : before.Unpinned) (tidy : before.Tidy)
    (parent child : Pid) :
    (fork parent child).Meets before
      (Proceeds (fun deed => deed.Forks before.ledger.pages parent child ∨ deed.Ends child) before
        (fun _ after => Reaches (Deed.Forks before.ledger.pages parent child) before after ∧
          parent ≠ child ∧ ∃ created, createProcess child before = .ok ⟨⟩ created ∧
            created.ledger = before.ledger ∧ created.space? parent = before.space? parent ∧
              Replicated created after parent child)
        fun _ after => after = before ∨ before.space? child = none ∧
          ∃ middle, Reaches (Deed.Forks before.ledger.pages parent child) before middle ∧
            Ended child middle after) := by
  rw [fork, meets_bind, meets_requireSpace]
  dsimp only
  cases found : before.space? parent with
  | none => exact fails_here id (Or.inl rfl)
  | some space =>
      dsimp only
      rw [meets_bind, meets_get]
      dsimp only
      split
      · exact fails_here id (Or.inl rfl)
      · rename_i enough
        apply ((meets_createProcess sound child).ran.weaken (fun _ same => Or.inl (same ▸ rfl))
          (fun _ _ => And.intro) fun _ _ _ => Or.inl).andThen _ fun _ _ _ => id
        rintro _ created - ⟨creation, run, absent, same, blank, others⟩
        have createdSound := creation.runs.sound sound
        have apart : parent ≠ child := by
          rintro rfl
          rw [found] at absent
          cases absent
        have frames (nonempty : ∃ va, created.ledger.pages ⟨parent, va⟩ ≠ none) :
            2 ≤ created.config.frameCount := by
          rw [same] at nonempty
          rw [creation.runs.config]
          exact two_le_frameCount sound found enough nonempty
        have vacant (va : Nat) : created.ledger.pages ⟨child, va⟩ = none := by
          rw [same]
          exact pages_of_absent absent va
        have creates : Reaches (Deed.Forks before.ledger.pages parent child) before created :=
          creation.mono fun _ same => same ▸ rfl
        have copies := meets_copySpace createdSound (creation.unpinned unpinned)
          (creation.runs.tidy sound tidy) apart frames blank vacant
        rw [same] at copies
        apply (copies.weaken (fun _ => Or.inl) (fun _ _ => And.intro)
          fun _ _ reaches _ => reaches).andThenAttempt
        · exact fun _ _ _ ⟨copied, replicated⟩ => answers_here ⟨creates.trans copied, apart, created,
            run, same, (others parent apart).trans found, replicated⟩
        · intro error failed fails external forks
          have broken := creates.trans forks
          apply ((ends_exitProcess (fails.runs.sound createdSound)).weaken (fun _ => Or.inr)
            (fun _ _ _ => id) fun _ _ _ ended => Or.inr ⟨absent, failed, broken, ended⟩).andThen _
              fun _ _ _ => id
          exact fun _ _ _ ended => fails_here external (Or.inr ⟨absent, failed, broken, ended⟩)

end Pager

end DemandPaging
