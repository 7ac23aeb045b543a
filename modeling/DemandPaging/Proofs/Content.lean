import DemandPaging.Proofs.Tidy

/-!
# The content of anonymous memory

An initialized page of anonymous memory has a content wherever it is: in its frame or in its slot. Moving
pages keeps the content of every page, and the journal tells where content begins and ends.
-/

namespace DemandPaging

namespace Ledger

/-- The content of a page of anonymous memory, if it is initialized. -/
def pageContent (ledger : Ledger) (page : Page) : Option Image :=
  match page.kind, page.frame with
  | .anonymous (some slot), _ => some (ledger.slotImages slot)
  | .anonymous none, some frame => some (ledger.images frame)
  | _, _ => none

/-- The content of the page of a process that starts at an address. -/
def content (ledger : Ledger) (owner : Owner) : Option Image :=
  (ledger.pages owner).bind ledger.pageContent

variable {before held unloaded after ledger : Ledger} {owner other : Owner} {page new : Page}
  {frame : Nat} {deed : Deed}

theorem content_of_page (present : ledger.pages owner = some page) :
    ledger.content owner = ledger.pageContent page := by
  rw [content, present, Option.bind_some]

theorem content_of_vacant (vacant : ledger.pages owner = none) : ledger.content owner = none := by
  rw [content, vacant, Option.bind_none]

theorem pageContent_of_pending {load : LazyLoad} (pending : page.kind = .pending load) :
    ledger.pageContent page = none := by
  simp [pageContent, pending]

theorem pageContent_of_file {range : FileRange} (file : page.kind = .file range) :
    ledger.pageContent page = none := by
  simp [pageContent, file]

/-- A page keeps its content if its slot or its frame does. -/
theorem content_congr
    (same : after.pages owner = before.pages owner)
    (slots : ∀ page slot, before.pages owner = some page → page.kind = .anonymous (some slot) →
      after.slotImages slot = before.slotImages slot)
    (frames : ∀ page frame, before.pages owner = some page → page.frame = some frame →
      after.images frame = before.images frame) :
    after.content owner = before.content owner := by
  rw [content, content, same]
  cases present : before.pages owner with
  | none => rfl
  | some page =>
      simp only [Option.bind_some, pageContent]
      split
      · rename_i kind
        rw [slots page _ present kind]
      · rename_i kind resident
        rw [frames page _ present resident]
      · rfl

/-- Saving a page keeps every content: a free slot is nobody's, and the slot of the page gets what its
frame held. -/
theorem Unloads.content
    (unloads : ledger.Unloads owner page frame unloaded) (sound : ledger.Sound none)
    (present : ledger.pages owner = some page) (resident : page.frame = some frame)
    (other : Owner) :
    unloaded.content other = ledger.content other := by
  by_cases same : other = owner
  · subst same
    rw [content_of_page present]
    cases unloads with
    | toSlot anonymous clear inside =>
        simp [Ledger.content, pageContent, setPage, setTranslation, setSlotImage, anonymous,
          resident]
    | toFile file => simp [Ledger.content, pageContent, setPage, file]
  · apply content_congr (unloads.pages_of_ne same)
    · intro otherPage slot otherPresent held
      cases unloads with
      | toSlot anonymous clear inside =>
          rename_i taken
          have apart : slot ≠ taken := by
            rintro rfl
            rw [(sound.slots.slot_of_page other otherPage slot otherPresent held).1] at clear
            cases clear
          exact Function.update_of_ne apart ..
      | toFile file => rfl
    · intro otherPage otherFrame _ _
      cases unloads <;> rfl

theorem Acquires.content
    (acquires : ledger.Acquires owner frame held) (sound : ledger.Sound none) (other : Owner) :
    held.content other = ledger.content other := by
  cases acquires with
  | free first => rfl
  | evicted full present resident unpinned tracks unloads =>
      exact unloads.content sound present resident other

/-- A frame in flight holds no page. -/
theorem Sound.ne_of_flying
    (sound : ledger.Sound (some (owner, frame))) (present : ledger.pages other = some page)
    {otherFrame : Nat} (resident : page.frame = some otherFrame) :
    otherFrame ≠ frame := by
  rintro rfl
  obtain ⟨owned, flyer, flyerPresent, absent⟩ := sound.frames.flying owner _ rfl
  rw [sound.owner_of_page present resident] at owned
  cases owned
  rw [present] at flyerPresent
  cases flyerPresent
  rw [resident] at absent
  cases absent

theorem Arrives.content_of_ne
    {image : Image} (arrives : ledger.Arrives owner page frame image after)
    (sound : ledger.Sound (some (owner, frame))) (apart : other ≠ owner) :
    after.content other = ledger.content other := by
  apply content_congr
  · obtain ⟨new, pages, _⟩ := arrives.pages
    rw [pages, Function.update_of_ne apart]
  · intro otherPage slot _ _
    cases arrives <;> rfl
  · intro otherPage otherFrame present resident
    have different := sound.ne_of_flying present resident
    cases arrives <;> exact Function.update_of_ne different ..

/-- A page of anonymous memory holds what was fetched, and this is what it held before if it held
anything. -/
theorem Arrives.content_self
    {image : Image} (arrives : ledger.Arrives owner page frame image after)
    (sound : ledger.Sound (some (owner, frame))) (present : ledger.pages owner = some page)
    (absent : page.frame = none) :
    after.content owner =
      if page.type = .anonymous then some ((ledger.content owner).getD image) else none := by
  rw [content_of_page present]
  cases arrives with
  | plain without =>
      have notNone : page.kind ≠ .anonymous none := fun anonymous =>
        sound.slots.resident owner page present anonymous absent
      rcases kind : page.kind with (_ | _ | _) | held | range
      all_goals simp [Ledger.content, pageContent, setPage, setImage, setPinned, PageKind.settled,
        Page.type, PageKind.type, LazyLoad.target, kind]
      cases held with
      | none => exact absurd kind notNone
      | some slot =>
          rw [kind] at without
          cases without
  | fromSlot isHeld same =>
      simp [Ledger.content, pageContent, setPage, setImage, setPinned, Page.type, PageKind.type,
        isHeld, same]

theorem Returns.content
    (returns : ledger.Returns frame after) (sound : ledger.Sound (some (owner, frame)))
    (other : Owner) :
    after.content other = ledger.content other := by
  cases returns with
  | intro =>
      apply content_congr
      · rfl
      · intro page slot _ _
        rfl
      · intro page otherFrame present resident
        exact Function.update_of_ne (sound.ne_of_flying present resident) ..

theorem Discards.content_of_ne
    (discards : ledger.Discards owner page after) (apart : other ≠ owner) :
    after.content other = ledger.content other := by
  apply content_congr
  · rw [discards.pages, Function.update_of_ne apart]
  · intro otherPage slot _ _
    cases discards <;> rfl
  · intro otherPage otherFrame _ _
    cases discards <;> rfl

end Ledger

/-! ## Steps -/

/-- Deeds that change the content of a page. -/
def Deed.Alters (deed : Deed) (owner : Owner) : Prop :=
  deed = .stored owner ∨ deed = .copied owner

/-- Deeds after which the content of a page may be another one. -/
def Deed.Touches (deed : Deed) (owner : Owner) : Prop :=
  (∃ page, deed = .discarded owner page) ∨ deed = .claimed owner ∨ deed.Alters owner

namespace Ledger

variable {before after : Ledger} {owner : Owner} {page : Page} {deed : Deed}

/-- Pages of different owners are in different frames. -/
theorem Sound.frame_ne
    {ledger : Ledger} {there other : Owner} {pageThere : Page} {frame frameThere : Nat}
    (sound : ledger.Sound none) (present : ledger.pages other = some page)
    (resident : page.frame = some frame) (presentThere : ledger.pages there = some pageThere)
    (residentThere : pageThere.frame = some frameThere) (apart : other ≠ there) :
    frame ≠ frameThere := by
  rintro rfl
  have owned := sound.owner_of_page present resident
  rw [sound.owner_of_page presentThere residentThere] at owned
  cases owned
  exact apart rfl

/-- Filling a frame changes the content of its owner only. -/
private theorem content_setImage
    {ledger : Ledger} {there other : Owner} {frame : Nat} (sound : ledger.Sound none)
    (present : ledger.pages there = some page) (resident : page.frame = some frame)
    (image : Image) (apart : other ≠ there) :
    (ledger.setImage frame image).content other = ledger.content other := by
  apply content_congr
  · rfl
  · intro otherPage slot _ _
    rfl
  · intro otherPage otherFrame otherPresent otherResident
    exact Function.update_of_ne
      (sound.frame_ne otherPresent otherResident present resident apart) ..

/-- A page that stays in its frame keeps what the frame holds unless it is altered. -/
theorem Step.images
    {frame : Nat} (step : Step deed before after) (sound : before.Sound none)
    (present : before.pages owner = some page) (resident : page.frame = some frame)
    (still : after.pages owner = some page) (unaltered : ¬ deed.Alters owner) :
    after.images frame = before.images frame := by
  have acquired {held : Ledger} {there : Owner} {frameThere : Nat}
      (acquires : before.Acquires there frameThere held) : held.images = before.images := by
    cases acquires with
    | free first => rfl
    | evicted full presentVictim residentVictim unpinned tracks unloads => cases unloads <;> rfl
  have flown {held : Ledger} {there : Owner} {pageThere : Page} {frameThere : Nat}
      (presentThere : before.pages there = some pageThere) (absent : pageThere.frame = none)
      (acquires : before.Acquires there frameThere held) (presentHeld : held.pages owner = some page) :
      frame ≠ frameThere :=
    (acquires.sound sound presentThere absent).1.ne_of_flying presentHeld resident
  cases step with
  | discarded presentThere discards => cases discards <;> rfl
  | claimed presentThere absent acquires arrives =>
      rename_i held there pageThere frameThere image
      have apart : owner ≠ there := by
        rintro rfl
        rw [present] at presentThere
        cases presentThere
        rw [absent] at resident
        cases resident
      obtain ⟨_, pages, _⟩ := arrives.pages
      rw [pages, Function.update_of_ne apart] at still
      rw [← acquired acquires]
      cases arrives <;>
        exact Function.update_of_ne (flown presentThere absent acquires still) ..
  | missed presentThere absent acquires returns =>
      rw [returns.pages] at still
      rw [← acquired acquires]
      cases returns
      exact Function.update_of_ne (flown presentThere absent acquires still) ..
  | stored presentThere residentThere image =>
      exact Function.update_of_ne (sound.frame_ne present resident presentThere residentThere
        fun same => unaltered (Or.inl (by rw [same]))) ..
  | copied presentThere residentThere image =>
      exact Function.update_of_ne (sound.frame_ne present resident presentThere residentThere
        fun same => unaltered (Or.inr (by rw [same]))) ..
  | _ => rfl

/-- What a step does to a content that it does not alter. -/
theorem Step.content
    (step : Step deed before after) (sound : before.Sound none)
    (unaltered : ¬ deed.Alters owner) :
    after.content owner = before.content owner ∨
      ((∃ page, deed = .discarded owner page) ∧ after.content owner = none) ∨
      deed = .claimed owner := by
  cases step with
  | reserved vacant placed pending absent =>
      rename_i there page load
      left
      by_cases same : owner = there
      · subst same
        rw [content_of_vacant vacant, content_of_page (Function.update_self ..)]
        exact pageContent_of_pending pending
      · exact content_congr (Function.update_of_ne same ..) (fun _ _ _ _ => rfl)
          fun _ _ _ _ => rfl
  | discarded present discards =>
      rename_i there page
      by_cases same : owner = there
      · subst same
        refine Or.inr (Or.inl ⟨⟨page, rfl⟩, content_of_vacant ?_⟩)
        rw [discards.pages, Function.update_self]
      · exact Or.inl (discards.content_of_ne same)
  | claimed present absent acquires arrives =>
      rename_i held there page frame image
      by_cases same : owner = there
      · subst same
        exact Or.inr (Or.inr rfl)
      · have flying := (acquires.sound sound present absent).1
        exact Or.inl ((arrives.content_of_ne flying same).trans (acquires.content sound owner))
  | missed present absent acquires returns =>
      have flying := (acquires.sound sound present absent).1
      exact Or.inl ((returns.content flying owner).trans (acquires.content sound owner))
  | stored present resident image =>
      rename_i there page frame
      have apart : owner ≠ there := by
        rintro rfl
        exact unaltered (Or.inl rfl)
      exact Or.inl (content_setImage sound present resident image apart)
  | copied present resident image =>
      rename_i there page frame
      have apart : owner ≠ there := by
        rintro rfl
        exact unaltered (Or.inr rfl)
      exact Or.inl (content_setImage sound present resident image apart)
  | _ => exact Or.inl rfl

theorem Step.content_untouched
    (step : Step deed before after) (sound : before.Sound none)
    (untouched : ¬ deed.Touches owner) :
    after.content owner = before.content owner := by
  have unaltered : ¬ deed.Alters owner := fun alters => untouched (Or.inr (Or.inr alters))
  rcases step.content sound unaltered with same | ⟨discarded, _⟩ | claimed
  · exact same
  · exact absurd (Or.inl discarded) untouched
  · exact absurd (Or.inr (Or.inl claimed)) untouched

/-- An initialized page keeps its content. -/
theorem Step.content_kept
    (step : Step deed before after) (sound : before.Sound none)
    (present : before.pages owner = some page) (initialized : ∀ load, page.kind ≠ .pending load)
    (kept : deed ≠ .discarded owner page) (unaltered : ¬ deed.Alters owner) :
    after.content owner = before.content owner := by
  rcases step.content sound unaltered with same | ⟨⟨old, discarded⟩, _⟩ | claimed
  · exact same
  · subst discarded
    cases step with
    | unseen unseen => exact absurd unseen id
    | discarded presentOld discards =>
        rw [present] at presentOld
        cases presentOld
        exact absurd rfl kept
  · subst claimed
    cases step with
    | unseen unseen => exact absurd unseen id
    | claimed presentThere absent acquires arrives =>
        rw [present] at presentThere
        cases presentThere
        obtain ⟨flying, presentThen⟩ := acquires.sound sound present absent
        rw [arrives.content_self flying presentThen absent, acquires.content sound,
          content_of_page present]
        rcases kind : page.kind with load | held | range
        · exact absurd kind (initialized load)
        · cases held with
          | none => exact absurd absent (sound.slots.resident owner page present kind)
          | some slot => simp [Page.type, PageKind.type, pageContent, kind]
        · simp [Page.type, PageKind.type, pageContent, kind]

/-- A page that is altered has a content before and after, or neither. -/
theorem Step.content_isSome
    (step : Step deed before after) (altered : deed.Alters owner) :
    (after.content owner).isSome = (before.content owner).isSome := by
  have filled {ledger : Ledger} {frame : Nat} {image : Image} :
      ((ledger.setImage frame image).content owner).isSome = (ledger.content owner).isSome := by
    simp only [Ledger.content, setImage]
    cases ledger.pages owner with
    | none => rfl
    | some page =>
        simp only [Option.bind_some, pageContent]
        split <;> rfl
  rcases altered with rfl | rfl
  · cases step with
    | unseen unseen => exact absurd unseen id
    | stored present resident image => exact filled
  · cases step with
    | unseen unseen => exact absurd unseen id
    | copied present resident image => exact filled

end Ledger

/-! ## What the journal tells -/

/-- The first content of a page with a load that brought an image. -/
def LazyLoad.first (load : LazyLoad) (image : Image) : Image :=
  match load with
  | zero => Image.zero
  | segment _ | mapped _ => image

namespace Activity

/-- What is known of the content of a page after something happened, if the page is altered by nobody: it
begins when anonymous memory is first loaded and ends when the page is discarded. -/
def remembered (activity : Activity) (owner : Owner) (memory : Option Image) : Option Image :=
  match activity with
  | loaded other load image =>
      if other = owner ∧ load.target = .anonymous then some (memory.getD (load.first image))
      else memory
  | discarded other _ _ => if other = owner then none else memory
  | _ => memory

/-- What is known of the content of a page after a part of the journal. -/
def replay (journal : List Activity) (owner : Owner) (memory : Option Image) : Option Image :=
  journal.foldr (fun activity memory => activity.remembered owner memory) memory

theorem replay_cons (activity : Activity) (earlier : List Activity) (owner : Owner)
    (memory : Option Image) :
    replay (activity :: earlier) owner memory =
      activity.remembered owner (replay earlier owner memory) :=
  rfl

theorem replay_append (later earlier : List Activity) (owner : Owner) (memory : Option Image) :
    replay (later ++ earlier) owner memory = replay later owner (replay earlier owner memory) :=
  List.foldr_append

theorem remembered_of_isTransfer {activity : Activity} (isTransfer : activity.IsTransfer)
    (owner : Owner) (memory : Option Image) : activity.remembered owner memory = memory := by
  cases activity <;> first | rfl | exact absurd isTransfer id

theorem replay_of_transfers
    {transfers : List Activity} (are : ∀ activity ∈ transfers, activity.IsTransfer)
    (owner : Owner) (memory : Option Image) : replay transfers owner memory = memory := by
  induction transfers with
  | nil => rfl
  | cons activity rest inductionHypothesis =>
      have rest := inductionHypothesis fun other member => are other (List.mem_cons_of_mem _ member)
      rw [replay_cons, rest]
      exact remembered_of_isTransfer (are activity List.mem_cons_self) owner memory

theorem isTransfer_append
    {later earlier : List Activity} (laterAre : ∀ activity ∈ later, activity.IsTransfer)
    (earlierAre : ∀ activity ∈ earlier, activity.IsTransfer) :
    ∀ activity ∈ later ++ earlier, activity.IsTransfer := by
  intro activity member
  rcases List.mem_append.mp member with later | earlier
  · exact laterAre activity later
  · exact earlierAre activity earlier

/-- Whether there is a content does not depend on what it is. -/
theorem replay_isSome
    (journal : List Activity) (owner : Owner) {memory other : Option Image}
    (same : memory.isSome = other.isSome) :
    (replay journal owner memory).isSome = (replay journal owner other).isSome := by
  induction journal with
  | nil => exact same
  | cons activity rest inductionHypothesis =>
      rw [replay_cons, replay_cons]
      cases activity <;> simp only [remembered] <;> first | exact inductionHypothesis | skip
      · split
        · rfl
        · exact inductionHypothesis
      · split
        · rfl
        · exact inductionHypothesis

end Activity

namespace Pager

/-- A part of the journal accounts for what happened to the contents in the meantime by deeds of some
kind, but for those that were altered; and no page of anonymous memory was filled with zeros for want of
a slot. -/
structure Accounts (journal : List Activity) (allowed : Deed → Prop) (before after : Pager) :
    Prop where
  noted : after.journal = journal ++ before.journal
  content : ∀ owner, (∀ deed, allowed deed → ¬ deed.Alters owner) →
    after.ledger.content owner = Activity.replay journal owner (before.ledger.content owner)
  isSome : ∀ owner, (after.ledger.content owner).isSome =
    (Activity.replay journal owner (before.ledger.content owner)).isSome
  kept : ∀ owner image, (∀ page, ¬ allowed (.discarded owner page)) →
    Activity.replay journal owner (some image) = some image
  backed : ∀ owner succeeded, Activity.fetched owner (.anonymous none) succeeded ∉ journal

namespace Accounts

variable {before middle after : Pager} {journal : List Activity} {allowed : Deed → Prop}

theorem refl (pager : Pager) (allowed : Deed → Prop) : Accounts [] allowed pager pager where
  noted := rfl
  content _ _ := rfl
  isSome _ := rfl
  kept _ _ _ := rfl
  backed _ _ := List.not_mem_nil

/-- What happened in two parts is accounted for by both. -/
theorem trans {later earlier : List Activity} (first : Accounts earlier allowed before middle)
    (second : Accounts later allowed middle after) :
    Accounts (later ++ earlier) allowed before after where
  noted := by rw [second.noted, first.noted, List.append_assoc]
  content owner unaltered := by
    rw [second.content owner unaltered, first.content owner unaltered, Activity.replay_append]
  isSome owner := by
    rw [second.isSome owner, Activity.replay_append]
    exact Activity.replay_isSome later owner (first.isSome owner)
  kept owner image undiscarded := by
    rw [Activity.replay_append, first.kept owner image undiscarded,
      second.kept owner image undiscarded]
  backed owner succeeded member := by
    rcases List.mem_append.mp member with later | earlier
    · exact second.backed owner succeeded later
    · exact first.backed owner succeeded earlier

theorem mono {more : Deed → Prop} (accounts : Accounts journal allowed before after)
    (fewer : ∀ deed, allowed deed → more deed) : Accounts journal more before after where
  noted := accounts.noted
  content owner unaltered := accounts.content owner fun deed permitted =>
    unaltered deed (fewer deed permitted)
  isSome := accounts.isSome
  kept owner image undiscarded := accounts.kept owner image fun page permitted =>
    undiscarded page (fewer _ permitted)
  backed := accounts.backed

theorem of_content
    (noted : after.journal = journal ++ before.journal)
    (content : ∀ owner, after.ledger.content owner =
      Activity.replay journal owner (before.ledger.content owner))
    (kept : ∀ owner image, (∀ page, ¬ allowed (.discarded owner page)) →
      Activity.replay journal owner (some image) = some image)
    (backed : ∀ owner succeeded,
      Activity.fetched owner (.anonymous none) succeeded ∉ journal) :
    Accounts journal allowed before after where
  noted := noted
  content owner _ := content owner
  isSome owner := by rw [content owner]
  kept := kept
  backed := backed

/-- Where there is no content in the end, the journal tells of none. -/
theorem replay_eq_none (accounts : Accounts journal allowed before after) {owner : Owner}
    (none : after.ledger.content owner = none) :
    Activity.replay journal owner (before.ledger.content owner) = Option.none := by
  have same := accounts.isSome owner
  rw [none] at same
  exact Option.not_isSome_iff_eq_none.mp (by rw [← same]; simp)

end Accounts

variable {before after : Pager} {deed : Deed}

/-- What is remembered after a page got its frame. -/
private theorem replay_claimed
    {owner other : Owner} {page : Page} {image : Image} {transfers : List Activity}
    {succeeded : Bool} (are : ∀ activity ∈ transfers, activity.IsTransfer)
    (memory : Option Image) :
    Activity.replay
        (.fetched owner page.kind succeeded :: (page.kind.firstLoads owner image ++ transfers))
        other memory =
      match page.kind with
      | .pending load =>
          if owner = other ∧ load.target = .anonymous then some (memory.getD (load.first image))
          else memory
      | _ => memory := by
  have split : Activity.replay
      (.fetched owner page.kind succeeded :: (page.kind.firstLoads owner image ++ transfers))
      other memory =
        Activity.replay (page.kind.firstLoads owner image) other
          (Activity.replay transfers other memory) := by
    rw [← Activity.replay_append]
    rfl
  rw [split, Activity.replay_of_transfers are]
  cases page.kind <;> rfl

/-- The content of a page that got its frame is the one remembered. -/
private theorem claimed_content
    {owner : Owner} {page : Page} {image : Image} (sound : before.ledger.Sound none)
    (present : before.ledger.pages owner = some page) (absent : page.frame = none)
    (zero : page.kind = .pending .zero → image = Image.zero) :
    (if page.type = .anonymous then some ((before.ledger.pageContent page).getD image)
      else none) =
      match page.kind with
      | .pending load =>
          if owner = owner ∧ load.target = .anonymous then
            some ((before.ledger.pageContent page).getD (load.first image))
          else before.ledger.pageContent page
      | _ => before.ledger.pageContent page := by
  cases kind : page.kind with
  | pending load =>
      rw [Ledger.pageContent_of_pending kind]
      cases load with
      | zero => simp [Page.type, PageKind.type, LazyLoad.target, kind, zero kind, LazyLoad.first]
      | segment range => simp [Page.type, PageKind.type, LazyLoad.target, kind, LazyLoad.first]
      | mapped range => simp [Page.type, PageKind.type, LazyLoad.target, kind]
  | anonymous held =>
      cases held with
      | none => exact absurd absent (sound.slots.resident owner page present kind)
      | some slot => simp [Page.type, PageKind.type, Ledger.pageContent, kind]
  | file range => simp [Page.type, PageKind.type, Ledger.pageContent, kind]

/-- A page without a frame that is fetched does not lack a slot. -/
private theorem backed_of_absent
    {owner : Owner} {page : Page} (sound : before.ledger.Sound none)
    (present : before.ledger.pages owner = some page) (absent : page.frame = none)
    {transfers : List Activity} (are : ∀ activity ∈ transfers, activity.IsTransfer)
    {loads : List Activity} (image : Image)
    (loaded : loads = page.kind.firstLoads owner image ∨ loads = []) (succeeded : Bool)
    (other : Owner) (otherSucceeded : Bool) :
    Activity.fetched other (.anonymous none) otherSucceeded ∉
      .fetched owner page.kind succeeded :: (loads ++ transfers) := by
  intro member
  rcases List.mem_cons.mp member with same | member
  · cases kind : page.kind with
    | anonymous held =>
        rw [kind] at same
        cases same
        exact sound.slots.resident owner page present kind absent
    | pending load => rw [kind] at same; cases same
    | file range => rw [kind] at same; cases same
  · rcases List.mem_append.mp member with load | transfer
    · rcases loaded with rfl | rfl
      · cases kind : page.kind <;> simp [PageKind.firstLoads, kind] at load
      · cases load
    · exact are _ transfer

theorem journal_discarded (pager : Pager) (owner : Owner) (page : Page) :
    ∃ transfers : List Activity, (∀ activity ∈ transfers, activity.IsTransfer) ∧
      (pager.discarded owner page).journal =
        transfers ++ .discarded owner page ((pager.table owner.pid).isDirty owner.va) ::
          pager.journal := by
  have saved (other : Pager) : ∃ transfers : List Activity,
      (∀ activity ∈ transfers, activity.IsTransfer) ∧
        (other.discardSaved owner page).journal = transfers ++ other.journal := by
    unfold discardSaved
    split
    · split
      · exact other.journal_writeBack ..
      · exact ⟨[], by simp, rfl⟩
    · exact ⟨[], by simp, rfl⟩
  obtain ⟨transfers, are, same⟩ := saved (pager.note (.discarded owner page
    ((pager.table owner.pid).isDirty owner.va)))
  exact ⟨transfers, are, (journal_released ..).trans same⟩

/-- A turn that notes nothing touches no content but by altering it. -/
private theorem accounts_unnoted
    (turn : Turn deed before after) (sound : before.ledger.Sound none)
    (noted : after.journal = before.journal)
    (only : ∀ owner, deed.Touches owner → deed.Alters owner) :
    Accounts [] (fun other => other = deed) before after := by
  have step := turn.step sound
  refine ⟨noted, fun owner unaltered => ?_, fun owner => ?_, fun _ _ _ => rfl,
    fun _ _ => List.not_mem_nil⟩
  · exact step.content_untouched sound fun touches => unaltered deed rfl (only owner touches)
  · by_cases alters : deed.Alters owner
    · exact step.content_isSome alters
    · rw [step.content_untouched sound fun touches => alters (only owner touches)]
      rfl

private theorem accounts_discarded
    {there : Owner} {page : Page} (sound : before.ledger.Sound none)
    (present : before.ledger.pages there = some page) :
    ∃ journal, Accounts journal (fun other => other = .discarded there page) before
      (before.discarded there page) := by
  obtain ⟨transfers, are, noted⟩ := before.journal_discarded there page
  have gone : (before.discarded there page).ledger.pages there = none := by
    rw [(ledger_discarded sound present).pages, Function.update_self]
  have forgotten (owner : Owner) (memory : Option Image) :
      Activity.replay
        (transfers ++ [.discarded there page ((before.table there.pid).isDirty there.va)])
        owner memory = if there = owner then none else memory := by
    rw [Activity.replay_append, Activity.replay_of_transfers are]
    rfl
  refine ⟨transfers ++ [.discarded there page ((before.table there.pid).isDirty there.va)],
    .of_content ?_ (fun owner => ?_) (fun owner image kept => ?_) ?_⟩
  · rw [List.append_assoc]
    exact noted
  · rw [forgotten]
    by_cases here : there = owner
    · subst here
      rw [if_pos rfl]
      exact Ledger.content_of_vacant gone
    · rw [if_neg here]
      apply ((Turn.discarded present).step sound).content_untouched sound
      simpa [Deed.Touches, Deed.Alters] using here
  · have elsewhere : there ≠ owner := by simpa [eq_comm] using kept
    rw [forgotten, if_neg elsewhere]
  · intro owner succeeded member
    rcases List.mem_append.mp member with transfer | discarded
    · exact are _ transfer
    · cases List.mem_singleton.mp discarded

private theorem accounts_claimed
    {held : Pager} {there : Owner} {page : Page} {frame : Nat} (sound : before.ledger.Sound none)
    (present : before.ledger.pages there = some page) (absent : page.frame = none)
    (acquires : before.Acquires there frame held) (arrives : held.Arrives there frame after) :
    ∃ journal, Accounts journal (fun other => other = .claimed there) before after := by
  have turn := Turn.claimed present absent acquires arrives
  obtain ⟨earlier, earlierAre, acquired⟩ := acquires.journal
  have moves := acquires.moves sound
  obtain ⟨flying, presentThen⟩ := moves.sound sound present absent
  obtain ⟨image, transfers, arrived, brings, are, noted⟩ := arrives.moves flying presentThen
  have zero (pending : page.kind = .pending .zero) : image = Image.zero := by
    rw [← brings.image, pending, PageKind.fetch_zero]
  have are := Activity.isTransfer_append are earlierAre
  refine ⟨.fetched there page.kind true ::
    (page.kind.firstLoads there image ++ (transfers ++ earlier)),
      .of_content ?_ (fun owner => ?_) (fun owner kept _ => ?_) ?_⟩
  · simp [noted, acquired]
  · rw [replay_claimed are]
    by_cases here : owner = there
    · subst here
      rw [arrived.content_self flying presentThen absent, moves.content sound,
        Ledger.content_of_page present]
      exact claimed_content sound present absent zero
    · have untouched : ¬ (Deed.claimed there).Touches owner := by
        simpa [Deed.Touches, Deed.Alters] using Ne.symm here
      rw [(turn.step sound).content_untouched sound untouched]
      cases page.kind <;> simp [Ne.symm here]
  · rw [replay_claimed are]
    cases page.kind <;> simp
  · exact backed_of_absent sound present absent are image (Or.inl rfl) true

private theorem accounts_missed
    {held : Pager} {there : Owner} {page : Page} {frame : Nat} (sound : before.ledger.Sound none)
    (present : before.ledger.pages there = some page) (absent : page.frame = none)
    (acquires : before.Acquires there frame held) (returns : held.Returns there frame after) :
    ∃ journal, Accounts journal (fun other => other = .missed there) before after := by
  have turn := Turn.missed present absent acquires returns
  obtain ⟨earlier, earlierAre, acquired⟩ := acquires.journal
  have moves := acquires.moves sound
  obtain ⟨flying, presentThen⟩ := moves.sound sound present absent
  obtain ⟨_, transfers, are, noted⟩ := returns.moves flying presentThen
  have are := Activity.isTransfer_append are earlierAre
  refine ⟨.fetched there page.kind false :: ([] ++ (transfers ++ earlier)),
    .of_content ?_ (fun owner => ?_) (fun owner kept _ => ?_) ?_⟩
  · simp [noted, acquired]
  · rw [(turn.step sound).content_untouched sound (by simp [Deed.Touches, Deed.Alters])]
    exact (Activity.replay_of_transfers are owner _).symm
  · exact Activity.replay_of_transfers are owner _
  · exact backed_of_absent sound present absent are Image.zero (Or.inr rfl) false

/-- Every turn is accounted for. -/
theorem Turn.accounts (turn : Turn deed before after) (sound : before.ledger.Sound none) :
    ∃ journal, Accounts journal (fun other => other = deed) before after := by
  have whole := turn
  cases turn with
  | discarded present => exact accounts_discarded sound present
  | claimed present absent acquires arrives =>
      exact accounts_claimed sound present absent acquires arrives
  | missed present absent acquires returns =>
      exact accounts_missed sound present absent acquires returns
  | _ => exact ⟨[], accounts_unnoted whole sound rfl (by simp [Deed.Touches])⟩

end Pager

end DemandPaging
