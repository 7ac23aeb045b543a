import DemandPaging.Pager.Segment
import DemandPaging.Proofs.Discarding
import DemandPaging.Proofs.Files

/-!
# Reserving pages

A page is reserved only where user memory has none. Segments, stacks and mappings are reserved page by
page; a mapping that cannot be reserved as a whole is removed again.
-/

namespace DemandPaging

theorem pageBase_of_pageAligned {va : Nat} (aligned : pageAligned va = true) : pageBase va = va := by
  simp only [pageAligned, beq_iff_eq] at aligned
  have split := pageBase_add_pageOffset va
  omega

theorem pageAligned_pageBase (address : Nat) : pageAligned (pageBase address) = true := by
  simp only [pageAligned, pageOffset, pageBase, pageSize, beq_iff_eq]
  omega

theorem pageAligned_add {va pages : Nat} (aligned : pageAligned va = true) :
    pageAligned (va + pages * pageSize) = true := by
  simp only [pageAligned, pageOffset, pageSize, beq_iff_eq] at aligned ⊢
  omega

theorem readLength_zero : (PageKind.pending .zero).readLength ≤ pageSize :=
  Nat.zero_le pageSize

/-- The page below an address is aligned if the address is, also below the first page. -/
theorem pageAligned_below (address : Nat) :
    pageAligned ((address + wordLimit - pageSize) % wordLimit) = pageAligned address := by
  have divides : pageSize ∣ wordLimit := ⟨2 ^ 52, by decide⟩
  have split : address + wordLimit - pageSize = address + (2 ^ 52 - 1) * pageSize :=
    Nat.add_sub_assoc (by decide) address
  rw [pageAligned, pageAligned, pageOffset, pageOffset, Nat.mod_mod_of_dvd _ divides, split,
    Nat.add_mul_mod_self_right]

/-- Whether a stack can begin: its top is the end of a page, and the build can compute where that page
starts. -/
structure Config.HasStackPage (config : Config) : Prop where
  aligned : pageAligned config.stackTop = true
  starts : config.arithmetic = .checked → pageSize ≤ config.stackTop

namespace Page

/-- Whether a page gets its first content by a load. -/
def Loads (writable : Bool) (load : LazyLoad) (page : Page) : Prop :=
  page.writable = writable ∧ page.kind = .pending load

/-- Whether a page is one of a segment of a file: zeros, or a range of the file. -/
def LoadsSegment (file : FileId) (page : Page) : Prop :=
  page.kind = .pending .zero ∨ ∃ range : FileRange, page.kind = .pending (.segment range) ∧
    range.file = file

/-- Whether a page is one of a region that maps a file. -/
def LoadsMapping (base : Nat) (writable : Bool) (file : FileId) (page : Page) : Prop :=
  page.region = some base ∧ page.writable = writable ∧
    ∃ range : FileRange, page.kind = .pending (.mapped range) ∧ range.file = file

/-- Whether a page is as it may be reserved: it lies in a page of memory, waits for its first content and
has no frame. -/
structure IsFresh (page : Page) : Prop where
  aligned : pageAligned page.va = true
  fits : page.kind.readLength ≤ pageSize
  pending : ∃ load, page.kind = .pending load
  absent : page.frame = none

end Page

namespace Pager

open PagerM

variable {before : Pager} {pid : Pid} {page : Page} {load : LazyLoad}

/-! ## A single page -/

theorem meets_insertPage
    (sound : before.ledger.Sound none) (aligned : pageAligned page.va = true)
    (fits : page.kind.readLength ≤ pageSize) (pending : page.kind = .pending load)
    (absent : page.frame = none) :
    (insertPage pid page).Meets before
      (Proceeds (Deed.Reserves ⟨pid, page.va⟩ page) before
        (fun _ after => after.ledger.pages ⟨pid, page.va⟩ = some page)
        fun error after => after.Bars pid error ∨ before.ledger.pages ⟨pid, page.va⟩ ≠ none) := by
  simp only [insertPage, meets_bind, meets_checkUserAddress]
  split
  · exact fails_here id (Or.inl (Or.inl rfl))
  · rename_i nonnull
    split
    · exact fails_here id (Or.inl (Or.inl rfl))
    · rename_i user
      simp only [meets_requireSpace]
      cases found : before.space? pid with
      | none => exact fails_here id (Or.inl (Or.inr ⟨rfl, found⟩))
      | some space =>
          have same := pages_of_space found page.va
          dsimp only
          split
          · rename_i occupied
            rw [meets_fail]
            refine fails_here id (Or.inr ?_)
            rw [← same]
            simpa using occupied
          · rename_i free
            have vacant : before.ledger.pages ⟨pid, page.va⟩ = none := by
              rw [← same]
              simpa using free
            have placed : page.WellPlaced ⟨pid, page.va⟩ before.config.kernelBase :=
              ⟨rfl, pageBase_of_pageAligned aligned, nonnull, Nat.not_le.mp user, fits⟩
            have shown := before.ledger_insertPage pid found page
            refine meets_modify_turn (Turn.reserved found vacant placed pending absent) sound
              ⟨rfl, rfl⟩ (by simp) ?_
            rw [shown]
            exact Function.update_self ..

theorem reaches_closeHandle
    {allowed : Deed → Prop} (pager : Pager) (page : Page) (sound : pager.ledger.Sound none)
    (permitted : ∀ file, page.kind.handle? = some file → allowed (.closed file)) :
    Reaches allowed pager (pager.closeHandle page) := by
  unfold closeHandle
  split
  · rename_i file holds
    exact .turn (.closed pager file) sound (permitted file holds) (by simp)
  · exact .refl pager

theorem reaches_closeHandles
    {allowed : Deed → Prop} (pager : Pager) (pages : List Page) (sound : pager.ledger.Sound none)
    (permitted : ∀ file, allowed (.closed file)) :
    Reaches allowed pager (pages.foldl closeHandle pager) := by
  induction pages generalizing pager with
  | nil => exact .refl pager
  | cons page rest inductionHypothesis =>
      have closes := reaches_closeHandle pager page sound fun file _ => permitted file
      exact closes.trans (inductionHypothesis _ (closes.runs.sound sound))

theorem space?_closeHandle (pager : Pager) (page : Page) (pid : Pid) :
    (pager.closeHandle page).space? pid = pager.space? pid := by
  unfold closeHandle
  split <;> rfl

theorem meets_reservePage
    (sound : before.ledger.Sound none) (aligned : pageAligned page.va = true)
    (fits : page.kind.readLength ≤ pageSize) (pending : page.kind = .pending load)
    (absent : page.frame = none) :
    (reservePage pid page).Meets before
      (Proceeds (Deed.Reserves ⟨pid, page.va⟩ page) before
        (fun _ after => after.ledger.pages ⟨pid, page.va⟩ = some page)
        fun error after => after.Bars pid error ∨ before.ledger.pages ⟨pid, page.va⟩ ≠ none) := by
  rw [reservePage, meets_insist_bind aligned, meets_insist_bind (decide_eq_true fits)]
  apply (meets_insertPage sound aligned fits pending absent).andThenAttempt
  · exact fun _ middle _ present => answers_here present
  · intro error middle reaches external cause
    have closes : Reaches (Deed.Reserves ⟨pid, page.va⟩ page) middle (middle.closeHandle page) :=
      reaches_closeHandle middle page (reaches.runs.sound sound) fun _ => id
    apply Meets.afterChange closes
    rw [meets_fail]
    refine fails_here external ?_
    rw [Bars, space?_closeHandle]
    exact cause

/-- Whatever comes of it, a reservation is for its process. -/
theorem lays_reservePage
    {laid : Page → Prop} (sound : before.ledger.Sound none) (aligned : pageAligned page.va = true)
    (fits : page.kind.readLength ≤ pageSize) (pending : page.kind = .pending load)
    (absent : page.frame = none) (lays : laid page) :
    (reservePage pid page).Meets before
      (Proceeds (Deed.Lays pid laid) before (fun _ _ => True) fun _ _ => True) :=
  (meets_reservePage sound aligned fits pending absent).weaken
    (fun _ reserves => reserves.lays lays) (fun _ _ _ _ => trivial) fun _ _ _ _ => trivial

theorem meets_allocateLazily
    (sound : before.ledger.Sound none) (pid : Pid) (va : Nat) (writable : Bool)
    (fits : (PageKind.pending load).readLength ≤ pageSize) :
    (allocateLazily pid va writable load).Meets before
      (Proceeds (Deed.Lays pid fun page => page.Loads writable load ∧ page.region = none) before
        (fun _ _ => True) fun _ _ => True) :=
  lays_reservePage sound (pageAligned_pageBase va) fits rfl rfl ⟨⟨rfl, rfl⟩, rfl⟩

theorem meets_allocate
    (sound : before.ledger.Sound none) (pid : Pid) (type : PageType) (va : Nat)
    (writable : Bool) :
    (allocate pid type va writable).Meets before
      (Proceeds (Deed.Lays pid fun page => page.Loads writable .zero ∧ page.region = none) before
        (fun _ _ => True) fun _ _ => True) := by
  cases type with
  | anonymous => exact meets_allocateLazily sound pid va writable readLength_zero
  | file => exact fails_here id trivial

/-! ## Segments and the stack -/

theorem meets_segmentLoad
    (sound : before.ledger.Sound none) (pid : Pid) (file : FileId) (va offset left : Nat) :
    (segmentLoad file va offset left).Meets before
      (Proceeds (Deed.Lays pid fun page => page.LoadsSegment file ∧ page.region = none) before
        (fun load _ => (PageKind.pending load).readLength ≤ pageSize ∧
          (load = .zero ∨ ∃ range : FileRange, load = .segment range ∧ range.file = file))
        fun _ _ => True) := by
  unfold segmentLoad
  split
  · exact answers_here ⟨Nat.zero_le pageSize, Or.inl rfl⟩
  · apply (proceeds_reopenFile sound trivial).andThen _ fun _ _ _ => False.elim
    intro opened middle _ _
    cases opened with
    | true => exact answers_here ⟨Nat.min_le_right left pageSize, Or.inr ⟨_, rfl, rfl⟩⟩
    | false => exact fails_here id trivial

/-- The build may halt where it adds up places of the file. -/
theorem proceeds_addWords
    {allowed : Deed → Prop} {owner : Owner} {page : Page} {range : FileRange}
    (permitted : allowed (.reserved owner page)) (reads : page.kind = .pending (.segment range))
    (left right : Nat) :
    (addWords left right).Meets before
      (Proceeds allowed before (fun _ after => after = before) fun _ _ => False) := by
  rw [meets_addWords]
  split
  · rename_i overflows
    exact ⟨Or.inr ⟨rfl, overflows.1, owner, page, range, permitted, reads⟩, before, .refl, .refl before⟩
  · exact answers_here rfl

theorem meets_reserveSegment
    (sound : before.ledger.Sound none) (pid : Pid) (file : FileId) (writable : Bool)
    (pages va offset left : Nat) (aligned : pageAligned va = true) :
    (reserveSegment pid file writable pages va offset left).Meets before
      (Proceeds (Deed.Lays pid fun page => page.LoadsSegment file ∧ page.region = none) before
        (fun _ _ => True) fun _ _ => True) := by
  induction pages generalizing before va offset left with
  | zero => exact answers_here trivial
  | succ pages inductionHypothesis =>
      apply (meets_segmentLoad sound pid file va offset left).andThen _ fun _ _ _ _ => trivial
      rintro load middle reaches ⟨fits, loads⟩
      have middleSound := reaches.runs.sound sound
      have lays : Page.LoadsSegment file
          { va := va, writable := writable, kind := .pending load } := by
        rcases loads with rfl | ⟨range, rfl, same⟩
        · exact Or.inl rfl
        · exact Or.inr ⟨range, rfl, same⟩
      apply (lays_reservePage middleSound aligned fits rfl rfl ⟨lays, rfl⟩).andThen _
        fun _ _ _ _ => trivial
      intro _ after reaches _
      have afterSound := reaches.runs.sound middleSound
      -- Any page that reads from the file will do: the program may reserve it.
      have adds := @proceeds_addWords after
        (Deed.Lays pid fun page => page.LoadsSegment file ∧ page.region = none) ⟨pid, va⟩
        { va := va, writable := writable, kind := .pending (.segment ⟨file, offset, 0⟩) } _
        ⟨rfl, Or.inr ⟨_, rfl, rfl⟩, rfl⟩ rfl offset (min left pageSize)
      apply adds.andThen _ fun _ _ _ => False.elim
      rintro behind _ _ rfl
      cases next : checkedSum va pageSize with
      | none => exact fails_here id trivial
      | some next' =>
          have sum : next' = va + 1 * pageSize := by
            unfold checkedSum at next
            split at next
            · cases next
              rw [Nat.one_mul]
            · cases next
          apply inductionHypothesis afterSound
          rw [sum]
          exact pageAligned_add aligned

theorem meets_loadSegment
    (sound : before.ledger.Sound none) (pid : Pid) (file : FileId) (segment : Segment) :
    (loadSegment pid file segment).Meets before
      (Proceeds (Deed.Lays pid fun page => page.LoadsSegment file ∧ page.region = none) before
        (fun _ _ => True) fun _ _ => True) := by
  unfold loadSegment
  split
  · exact fails_here id trivial
  · split
    · exact fails_here id trivial
    · split
      · exact fails_here id trivial
      · rename_i aligned
        split
        · exact fails_here id trivial
        · apply meets_reserveSegment sound
          simpa using aligned

/-- Moving the stack pointer leaves the regions alone. -/
theorem turn_setStackPointer (pager : Pager) (pid : Pid) (address : Nat) :
    Turn (.relaid pid .nowhere) pager
      (pager.modifySpace pid fun space => { space with stackPointer := address }) :=
  .relaid pager pid (fun _ => rfl) (fun _ => rfl) (fun _ => id) fun _ _ _ => rfl

/-- Where a stack can begin, its bottom is computed as in every build. -/
theorem meets_stackBottom (has : before.config.HasStackPage) (ending : Ending Nat) :
    (subtractWords before.config.stackTop pageSize).Meets before ending ↔
      ending.answers ((before.config.stackTop + wordLimit - pageSize) % wordLimit) before := by
  rw [meets_subtractWords, if_neg fun fails => absurd (has.starts fails.1) (Nat.not_le.mpr fails.2)]

theorem pageAligned_stackBottom {config : Config} (has : config.HasStackPage) :
    pageAligned ((config.stackTop + wordLimit - pageSize) % wordLimit) = true :=
  (pageAligned_below config.stackTop).trans has.aligned

/-- Where a stack can begin, nothing more need be known of its bottom than that a page starts there. -/
theorem meets_setupStack_of_bottom
    {ending : Ending Unit} (has : before.config.HasStackPage)
    (begins : ∀ bottom, pageAligned bottom = true →
      (do
        reservePage pid { va := bottom, writable := true, isStack := true, kind := .pending .zero }
        claim pid bottom
        let _ ← requireSpace pid
        modify fun pager => pager.modifySpace pid fun space =>
          { space with stackPointer := before.config.stackTop } : PagerM Unit).Meets before ending) :
    (setupStack pid).Meets before ending := by
  have aligned := pageAligned_stackBottom has
  rw [setupStack, meets_bind, meets_get]
  dsimp only
  rw [meets_bind, meets_stackBottom has]
  dsimp only
  generalize (before.config.stackTop + wordLimit - pageSize) % wordLimit = bottom at aligned ⊢
  exact begins bottom aligned

/-- The first page of the stack is reserved and claimed if the stack ends with a page. -/
theorem meets_setupStack (ready : before.Ready) (pid : Pid) (has : before.config.HasStackPage) :
    (setupStack pid).Meets before
      (Proceeds (fun deed => deed.Serves pid ∨ deed = .relaid pid .nowhere) before (fun _ _ => True)
        fun _ _ => True) := by
  refine meets_setupStack_of_bottom has fun bottom bottomAligned => ?_
  apply ((meets_reservePage ready.sound bottomAligned readLength_zero rfl rfl).widen
    fun _ reserves => Or.inl (reserves.serves rfl rfl)).andThen _ fun _ _ _ _ => trivial
  intro _ middle reaches _
  have middleReady := reaches.ready ready
  apply ((serves_claim middleReady pid bottom).widen fun _ => Or.inl).andThen _ fun _ _ _ _ => trivial
  intro _ after reaches _
  simp only [meets_bind, meets_requireSpace]
  cases found : after.space? pid with
  | none => exact fails_here id trivial
  | some space =>
      exact meets_modify_turn (turn_setStackPointer after pid _)
        (reaches.ready middleReady).sound (Or.inr rfl) (by simp) trivial

/-! ## Mappings -/

theorem roundedLength_pos {length : Nat} (positive : 0 < length) : 0 < roundedLength length := by
  simp only [roundedLength, pageSize]
  omega

theorem pageAligned_roundedLength (length : Nat) : pageAligned (roundedLength length) = true := by
  simp only [pageAligned, pageOffset, roundedLength, beq_iff_eq, Nat.mul_mod_left]

end Pager

/-- A region of whole pages, at least one, in user memory behind the null page. -/
structure Region.IsPlaced (region : Region) (kernelBase : Nat) : Prop where
  aligned : pageAligned region.base = true
  nonnull : region.base ≠ 0
  nonempty : 0 < region.length
  whole : pageAligned region.length = true
  user : region.base + region.length ≤ kernelBase

theorem Region.IsPlaced.length_eq {region : Region} {kernelBase : Nat}
    (placed : region.IsPlaced kernelBase) : region.pageCount * pageSize = region.length := by
  have whole := placed.whole
  simp only [pageAligned, pageOffset, beq_iff_eq] at whole
  exact Nat.div_mul_cancel (Nat.dvd_of_mod_eq_zero whole)

theorem Region.IsPlaced.pageCount_pos {region : Region} {kernelBase : Nat}
    (placed : region.IsPlaced kernelBase) : 0 < region.pageCount := by
  have nonempty := placed.nonempty
  rw [← placed.length_eq] at nonempty
  exact Nat.pos_of_mul_pos_right nonempty

namespace Pager

open PagerM

variable {before : Pager} {pid : Pid}

theorem meets_checkMapping
    {allowed : Deed → Prop} (base length : Nat) (file : FileId) (offset : Nat) :
    (checkMapping base length file offset).Meets before
      (Proceeds allowed before
        (fun mapped after => after = before ∧ mapped = roundedLength length ∧ base + mapped < wordLimit ∧
          Region.IsPlaced ⟨base, mapped, file, offset⟩ before.config.kernelBase)
        fun _ after => after = before) := by
  simp only [checkMapping, meets_bind, meets_checkUserAddress, meets_get]
  split
  · exact fails_here id rfl
  · rename_i nonnull
    split
    · exact fails_here id rfl
    · split
      · exact fails_here id rfl
      · rename_i aligned
        split
        · exact fails_here id rfl
        · rename_i positive
          iterate 2 (split; exact fails_here id rfl)
          split
          · exact fails_here id rfl
          · rename_i user
            split
            · exact fails_here id rfl
            · simp only [Bool.or_eq_true, decide_eq_true_eq, not_or, Nat.not_le, Nat.not_lt] at user
              refine answers_here ⟨rfl, rfl, user.1, by simpa using aligned, nonnull, ?_, ?_, user.2⟩
              · exact roundedLength_pos (Nat.pos_of_ne_zero positive)
              · exact pageAligned_roundedLength length

/-- A page of a mapping starts inside the bytes that are mapped. The size of pages is left open, so that
products with it stay closed. -/
private theorem started_of_mapped
    {unit index length : Nat} (positive : 0 < unit)
    (inside : (index + 1) * unit ≤ (length + (unit - 1)) / unit * unit) :
    index * unit ≤ length := by
  have rounded := Nat.div_mul_le_self (length + (unit - 1)) unit
  rw [Nat.add_mul, Nat.one_mul] at inside
  omega

theorem le_roundedLength (length : Nat) : length ≤ roundedLength length := by
  simp only [roundedLength, pageSize]
  omega

/-- What is left of a mapping where one of its pages starts is computed the same in every build. -/
theorem meets_mappingLeft
    {region : Region} {length index : Nat} (whole : region.length = roundedLength length)
    (word : region.length < wordLimit) (inside : index < region.pageCount) (pager : Pager)
    (ending : Ending Nat) :
    (subtractWords length (index * pageSize)).Meets pager ending ↔
      ending.answers (length - index * pageSize) pager := by
  have started : index * pageSize ≤ length := by
    apply started_of_mapped (by decide)
    rw [Region.pageCount, whole] at inside
    exact (Nat.mul_le_mul_right pageSize inside).trans (Nat.div_mul_le_self ..)
  rw [whole] at word
  exact meets_subtractWords_of_le started ((le_roundedLength length).trans_lt word) pager ending

end Pager

namespace Region

/-- The page with the given index of a region that maps `length` bytes of a file, before it is touched. The
file backs what is left of the page, of the bytes that are mapped and of the file, whichever is least. -/
def page (region : Region) (length fileSize : Nat) (writable : Bool) (index : Nat) : Page where
  va := region.base + index * pageSize
  writable := writable
  region := some region.base
  kind := .pending (.mapped
    { file := region.file
      offset := region.offset + index * pageSize
      length := min pageSize
        (min (length - index * pageSize) (fileSize - (region.offset + index * pageSize))) })

/-- Whether a page is one of those that a region gets when it is mapped. -/
def Makes (region : Region) (length fileSize : Nat) (writable : Bool) (page : Page) : Prop :=
  ∃ index < region.pageCount, page = region.page length fileSize writable index

/-- The page that the program makes is the page of the region. -/
theorem mappedPage_eq (region : Region) (length fileSize : Nat) (writable : Bool) (index : Nat) :
    Pager.mappedPage region (length - index * pageSize) fileSize writable index =
      region.page length fileSize writable index := by
  simp only [Pager.mappedPage, page, Pager.backedLength, Nat.min_comm pageSize]

theorem isFresh_page
    {region : Region} (aligned : pageAligned region.base = true) (length fileSize : Nat) (writable : Bool)
    (index : Nat) : (region.page length fileSize writable index).IsFresh where
  aligned := pageAligned_add aligned
  fits := Nat.min_le_left pageSize _
  pending := ⟨_, rfl⟩
  absent := rfl

theorem Makes.loads
    {region : Region} {length fileSize : Nat} {writable : Bool} {page : Page}
    (makes : region.Makes length fileSize writable page) :
    page.LoadsMapping region.base writable region.file := by
  obtain ⟨index, _, rfl⟩ := makes
  exact ⟨rfl, rfl, _, rfl, rfl⟩

end Region

namespace Pager

open PagerM

variable {before : Pager} {pid : Pid}

/-- The pages of a mapping are made, each with a handle, or the handles of those that were made are closed. -/
theorem meets_makePages
    {laid : Page → Prop} (sound : before.ledger.Sound none) (pid : Pid) {region : Region} {length : Nat}
    (fileSize : Nat) (writable : Bool) {pages index : Nat} (whole : region.length = roundedLength length)
    (word : region.length < wordLimit) (inside : index + pages ≤ region.pageCount) :
    (makePages region length fileSize writable pages index).Meets before
      (Proceeds (Deed.Lays pid laid) before
        (fun made _ => made = (List.range' index pages).map (region.page length fileSize writable))
        fun _ _ => True) := by
  induction pages generalizing before index with
  | zero => exact answers_here rfl
  | succ pages inductionHypothesis =>
      rw [makePages, meets_bind, meets_mappingLeft whole word (by omega)]
      simp only [region.mappedPage_eq]
      apply (proceeds_reopenFile sound trivial).andThen _ fun _ _ _ => False.elim
      intro opened middle reaches _
      have middleSound := reaches.runs.sound sound
      cases opened with
      | false => exact fails_here id trivial
      | true =>
          apply (@inductionHypothesis middle middleSound (index + 1) (by omega)).andThenAttempt
          · rintro rest after _ rfl
            exact answers_here rfl
          · intro error after later external _
            have closes : Reaches (Deed.Lays pid laid) after _ :=
              reaches_closeHandle after (region.page length fileSize writable index)
                (later.runs.sound middleSound) fun _ _ => trivial
            exact Meets.afterChange closes (fails_here external trivial)

/-- Pages are reserved one after the other, and stay while others are. -/
theorem meets_reservePages
    {laid : Page → Prop} (sound : before.ledger.Sound none) (pid : Pid) {pages : List Page}
    (fresh : ∀ page ∈ pages, page.IsFresh) (lays : ∀ page ∈ pages, laid page) :
    (reservePages pid pages).Meets before
      (Proceeds (Deed.Lays pid laid) before
        (fun _ after => ∀ page ∈ pages, after.ledger.pages ⟨pid, page.va⟩ = some page)
        fun _ _ => True) := by
  induction pages generalizing before with
  | nil => exact answers_here nofun
  | cons page rest inductionHypothesis =>
      obtain ⟨first, others⟩ := List.forall_mem_cons.mp fresh
      obtain ⟨layFirst, layOthers⟩ := List.forall_mem_cons.mp lays
      obtain ⟨load, pending⟩ := first.pending
      have reserves := @meets_reservePage before pid page load sound first.aligned first.fits pending
        first.absent
      apply (reserves.widen fun _ reserves => reserves.lays layFirst).andThenAttempt
      · intro _ middle reaches present
        have middleSound := reaches.runs.sound sound
        apply (inductionHypothesis middleSound others layOthers).weaken (fun _ => id) _ fun _ _ _ => id
        intro _ after later reserved
        exact List.forall_mem_cons.mpr
          ⟨later.runs.unmoved middleSound present id fun _ => ⟨id, id⟩, reserved⟩
      · intro error middle reaches external _
        have closes : Reaches (Deed.Lays pid laid) middle _ :=
          reaches_closeHandles middle rest (reaches.runs.sound sound) fun _ => trivial
        exact Meets.afterChange closes (fails_here external trivial)

theorem turn_insertRegion (pager : Pager) (pid : Pid) (region : Region) :
    Turn (.relaid pid (.at region.base)) pager (pager.insertRegion pid region) := by
  refine .relaid pager pid (fun _ => rfl) (fun _ => rfl)
    (fun space keyed base other recorded => ?_) fun space base outside => ?_
  · simp only [AddressSpace.layout, Std.ExtTreeMap.getElem?_insert,
      Std.LawfulEqCmp.compare_eq_iff_eq] at recorded
    split at recorded
    · rename_i here
      cases recorded
      exact here
    · exact keyed base other recorded
  · have apart : region.base ≠ base := fun same => outside same.symm
    simp [Std.ExtTreeMap.getElem?_insert, apart]

theorem region?_insertRegion
    {space : AddressSpace} (found : before.space? pid = some space) (region : Region) :
    (before.insertRegion pid region).region? pid region.base = some region := by
  rw [region?, layout?, insertRegion, space?_modifySpace, if_pos rfl, found]
  simp [AddressSpace.layout]

theorem meets_mapPages
    (sound : before.ledger.Sound none) {base length fileSize : Nat} {writable : Bool}
    {region : Region} (aligned : pageAligned base = true) (starts : region.base = base)
    (whole : region.length = roundedLength length) (word : region.length < wordLimit)
    (recorded : before.region? pid base = some region) :
    (mapPages pid base length fileSize writable).Meets before
      (Proceeds (Deed.Lays pid (region.Makes length fileSize writable)) before
        (fun _ after => ∀ index < region.pageCount,
          after.ledger.pages ⟨pid, region.base + index * pageSize⟩ =
            some (region.page length fileSize writable index))
        fun _ _ => True) := by
  subst starts
  rw [mapPages, meets_bind, meets_requireSpace]
  dsimp only
  cases found : before.space? pid with
  | none => exact fails_here id trivial
  | some space =>
      rw [region?_of_space found] at recorded
      simp only [recorded]
      apply (meets_makePages sound pid fileSize writable whole word (Nat.zero_add _).le).andThen _
        fun _ _ _ => id
      rintro _ middle reaches rfl
      rw [← List.range_eq_range']
      have reserves := @meets_reservePages middle (region.Makes length fileSize writable)
        (reaches.runs.sound sound) pid
        ((List.range region.pageCount).map (region.page length fileSize writable))
        (List.forall_mem_map.mpr fun index _ => region.isFresh_page aligned length fileSize writable index)
        (List.forall_mem_map.mpr fun index below => ⟨index, List.mem_range.mp below, rfl⟩)
      apply reserves.weaken (fun _ => id) _ fun _ _ _ => id
      intro _ after _ reserved index inside
      exact reserved _ (List.mem_map_of_mem (List.mem_range.mpr inside))

/-- Where no page overlaps a region the pages of the region are vacant. -/
theorem vacant_of_not_overlaps
    {space : AddressSpace} {region : Region} {index : Nat}
    (found : before.space? pid = some space) (aligned : pageAligned region.base = true)
    (apart : space.overlaps region.base (region.base + region.length) = false)
    (inside : index < region.pageCount) :
    before.ledger.pages ⟨pid, pageBase (region.base + index * pageSize)⟩ = none := by
  rw [pageBase_of_pageAligned (pageAligned_add aligned), ← pages_of_space found,
    ← Option.not_isSome_iff_eq_none, ← Std.ExtTreeMap.mem_iff_isSome_getElem?,
    ← Std.ExtTreeMap.mem_keys]
  intro member
  rw [AddressSpace.overlaps, List.any_eq_false] at apart
  apply apart _ member
  have below : index * pageSize < region.length :=
    Nat.lt_of_lt_of_le (Nat.mul_lt_mul_of_pos_right inside (by decide)) (Nat.div_mul_le_self ..)
  simp only [Bool.and_eq_true, decide_eq_true_eq]
  omega

/-- No page is left that belongs to a region, and the region is not recorded. -/
structure Unmapped (pager : Pager) (pid : Pid) (region : Region) : Prop where
  forgotten : pager.region? pid region.base = none
  gone : ∀ index < region.pageCount, ∀ page,
    pager.ledger.pages ⟨pid, pageBase (region.base + index * pageSize)⟩ = some page →
      page.region ≠ some region.base

/-- A region whose pages cannot be reserved is removed again, with the pages that it has. -/
theorem meets_failedMapping
    {region : Region} {vacant : Owner → Prop} {laid : Page → Prop} {answers : Unit → Pager → Prop}
    {error : PagingError} (sound : before.ledger.Sound none)
    (recorded : before.region? pid region.base = some region) (external : ¬ error.IsInternal)
    (clear : ∀ index < region.pageCount, vacant ⟨pid, pageBase (region.base + index * pageSize)⟩) :
    (unmap pid region.base >>= fun _ => fail error).Meets before
      (Proceeds (Deed.Maps pid region.base vacant laid) before answers
        fun _ after => after.Unmapped pid region) := by
  have unmaps := meets_unmap sound pid region.base
  rw [recorded] at unmaps
  apply (unmaps.widen fun _ unmaps => unmaps.maps clear).andThen
  · rintro _ after - ⟨forgotten, gone⟩
    exact fails_here external ⟨forgotten, gone region rfl⟩
  · rintro _ _ - ⟨absent, -⟩
    rw [region?_of_absent absent] at recorded
    cases recorded

/-- A region is recorded with all of its pages, or removed again. -/
theorem meets_mapRegion
    {space : AddressSpace} {region : Region} {vacant : Owner → Prop} {length : Nat}
    (sound : before.ledger.Sound none) (found : before.space? pid = some space)
    (aligned : pageAligned region.base = true) (whole : region.length = roundedLength length)
    (word : region.length < wordLimit)
    (clear : ∀ index < region.pageCount, vacant ⟨pid, pageBase (region.base + index * pageSize)⟩)
    (fileSize : Nat) (writable : Bool) :
    (mapRegion pid region length fileSize writable).Meets before
      (Proceeds (Deed.Maps pid region.base vacant (region.Makes length fileSize writable)) before
        (fun _ after => after.region? pid region.base = some region ∧
          ∀ index < region.pageCount,
            after.ledger.pages ⟨pid, region.base + index * pageSize⟩ =
              some (region.page length fileSize writable index))
        fun _ after => after.Unmapped pid region) := by
  have inserted := @Reaches.turn
    (Deed.Maps pid region.base vacant (region.Makes length fileSize writable))
      _ _ _ (turn_insertRegion before pid region) sound ⟨rfl, rfl⟩ (by simp)
  have insertedSound := inserted.runs.sound sound
  have recorded := region?_insertRegion found region
  have mapped := @meets_mapPages _ pid insertedSound _ length fileSize writable region aligned rfl whole word
    recorded
  apply Meets.afterChange inserted
  generalize before.insertRegion pid region = mapping at *
  have still {after : Pager}
      (lays : Reaches (Deed.Lays pid (region.Makes length fileSize writable)) mapping after) :
      after.region? pid region.base = some region := by
    rw [region?, lays.runs.layout? fun _ lays => lays.not_replaces pid]
    exact recorded
  apply (mapped.weaken (fun _ => Deed.Lays.maps) (fun _ _ => And.intro) fun _ _ lays _ => lays).andThenAttempt
  · rintro _ after - ⟨lays, made⟩
    exact answers_here ⟨still lays, made⟩
  · intro error after _ external lays
    exact meets_failedMapping (lays.runs.sound insertedSound) (still lays) external clear

/-- A mapping is made as a whole or removed again, and only where there is no page. -/
theorem meets_map
    (ready : before.Ready) (pid : Pid) (base length : Nat) (writable : Bool) (file : FileId)
    (offset : Nat) :
    (map pid base length writable file offset).Meets before
      (Proceeds (Deed.Maps pid base (fun owner => before.ledger.pages owner = none)
          (Region.Makes ⟨base, roundedLength length, file, offset⟩ length (before.files.size file)
            writable)) before
        (fun _ after => before.ledger.pages ⟨pid, base⟩ = none ∧
          ∃ region : Region, region = ⟨base, roundedLength length, file, offset⟩ ∧
            region.IsPlaced before.config.kernelBase ∧ after.region? pid base = some region ∧
            ∀ index < region.pageCount,
              after.ledger.pages ⟨pid, base + index * pageSize⟩ =
                some (region.page length (before.files.size file) writable index))
        fun _ after => after = before ∨ before.ledger.pages ⟨pid, base⟩ = none ∧
          ((after.ledger = before.ledger ∧ after.layout? = before.layout?) ∨
            after.Unmapped pid ⟨base, roundedLength length, file, offset⟩)) := by
  rw [Pager.map]
  apply (meets_checkMapping base length file offset).andThen _ fun _ _ _ => Or.inl
  rintro mapped middle _ ⟨same, rfl, word, placed⟩
  subst same
  have aligned : pageAligned base = true := placed.aligned
  rw [meets_bind, meets_requireSpace]
  dsimp only
  cases found : middle.space? pid with
  | none => exact fails_here id (Or.inl rfl)
  | some space =>
      dsimp only
      split
      · exact fails_here id (Or.inl rfl)
      · rename_i apart
        rw [Bool.not_eq_true] at apart
        have clear (index : Nat) (inside : index < _) := @vacant_of_not_overlaps middle pid space
          ⟨base, roundedLength length, file, offset⟩ index found aligned apart inside
        have free : middle.ledger.pages ⟨pid, base⟩ = none := by
          have vacant := clear 0 placed.pageCount_pos
          rwa [Nat.zero_mul, Nat.add_zero, pageBase_of_pageAligned aligned] at vacant
        apply (proceeds_reopenFile ready.sound trivial).andThen _ fun _ _ _ => False.elim
        rintro opened opening reaches rfl
        cases opened with
        | false => exact fails_here id (Or.inr ⟨free, Or.inl ⟨rfl, rfl⟩⟩)
        | true =>
            have maps := @meets_mapRegion { middle with files := (middle.files.reopen file).1 } pid space
              ⟨base, roundedLength length, file, offset⟩ (fun owner => middle.ledger.pages owner = none) length
              (reaches.runs.sound ready.sound) found
              aligned rfl ((Nat.le_add_left ..).trans_lt word) clear (middle.files.size file) writable
            simp only [if_true]
            rw [meets_bind, meets_get]
            dsimp only
            rw [middle.files.size_reopen file file]
            apply maps.andThen
            · rintro _ after - ⟨recorded, made⟩
              exact answers_here ⟨free, _, rfl, placed, recorded, made⟩
            · exact fun _ _ _ unmapped => Or.inr ⟨free, Or.inr unmapped⟩

end Pager

end DemandPaging
