import DemandPaging.Proofs.Moves

/-!
# How a page gets a frame

A frame comes from the free frames, or from a victim whose content is saved first. It then arrives at
the page with the content of the page, or becomes free because that content could not be read. Each of
these moves is a relation between pagers, together with what it does to the ledger.
-/

namespace DemandPaging

/-! ## Moves of pagers -/

namespace Activity

/-- Frames change hands and contents are saved or moved, but no page comes, goes or gets its first
content. -/
def IsTransfer : Activity → Prop
  | assigned _ _ _ | evicted _ _ _ | wroteBack _ _ _ | swapped _ _ _ _ _ => True
  | fetched _ _ _ | loaded _ _ _ | discarded _ _ _ => False

end Activity

/-- What is noted of the first content of a page, if this is what a fetch brought. -/
def PageKind.firstLoads (kind : PageKind) (owner : Owner) (image : Image) : List Activity :=
  match kind with
  | .pending load => [.loaded owner load image]
  | _ => []

/-- Whether a fetch succeeded and left a content in the frame. -/
structure Fetched.Brings (fetched : Fetched) (image : Image) : Prop where
  image : fetched.image = image
  complete : fetched.kind.isSome = true

namespace Pager

/-- The pager after the policy chose: the policy has moved on and took accessed bits away. -/
def selected (pager : Pager) : Pager :=
  (pager.clearTaken pager.candidates (pager.frames.policy.select pager.candidates).2.1).modifyFrames
    fun frames => { frames with policy := (pager.frames.policy.select pager.candidates).2.2 }

/-- A resident page with an initialized content is written to its backing store. -/
inductive Saves (owner : Owner) (page : Page) (frame : Nat) (before : Pager) : Pager → Prop
  | toSlot {slot : Nat} {reserved stored : SwapSpace} (anonymous : page.kind = .anonymous none)
      (taken : before.swap.reserve? = some (slot, reserved))
      (complete : reserved.store slot (before.frames.image frame) = (stored, true)) :
      Saves owner page frame before
        ((({ before with swap := stored }.note
          (.swapped owner .write slot (reserved.used.get slot)
            (stored.transfersSince reserved))).modifyCounters fun counters =>
              { counters with swapOuts := counters.swapOuts + 1 }).modifyPage owner.pid owner.va
                fun page => { page with kind := .anonymous (some slot) })
  | toFile {range : FileRange} (file : page.kind = .file range) :
      Saves owner page frame before (before.writeBack owner range frame)

/-- A frame is handed to a page. -/
inductive Acquires (owner : Owner) (frame : Nat) (before : Pager) : Pager → Prop
  | free {frames : FramePool} (taken : before.frames.takeFree? owner = some (frame, frames)) :
      Acquires owner frame before
        ({ before with frames := frames }.note (.assigned owner frame true))
  | evicted {victim : Owner} {page : Page} {saved : Pager} (full : before.frames.free = [])
      (chosen : (before.frames.policy.select before.candidates).1 = some frame)
      (present : before.ledger.pages victim = some page) (resident : page.frame = some frame)
      (saves : before.selected.Saves victim page frame saved) :
      Acquires owner frame before
        (((((saved.detached victim).modifyCounters fun counters =>
          { counters with evictions := counters.evictions + 1 }).note
            (.evicted victim page.kind
              ((before.selected.table victim.pid).isDirty victim.va))).modifyFrames fun frames =>
                frames.assign frame owner).note (.assigned owner frame false))

/-- A frame arrives at a page with the content of the page. -/
inductive Arrives (owner : Owner) (frame : Nat) (held : Pager) : Pager → Prop
  | intro {space : AddressSpace} {page : Page} {table : PageTable} {fetched : Fetched}
      {kind : PageKind} (found : held.space? owner.pid = some space)
      (present : held.ledger.pages owner = some page) (absent : page.frame = none)
      (installed : space.table.install? owner.va (frameBase frame) page.writable = some table)
      (fetch : page.kind.fetch held.swap held.files (held.frames.image frame) = fetched)
      (complete : fetched.kind = some kind) :
      Arrives owner frame held
        ((((held.attached owner frame table).putFetched owner page.kind frame
          fetched).becomeFetched owner.pid owner.va page.kind kind).modifyFrames fun frames =>
            frames.unpin frame)

/-- A frame becomes free because the content of the page it was meant for could not be read. -/
inductive Returns (owner : Owner) (frame : Nat) (held : Pager) : Pager → Prop
  | intro {space : AddressSpace} {page : Page} {table : PageTable} {fetched : Fetched}
      (found : held.space? owner.pid = some space)
      (present : held.ledger.pages owner = some page) (absent : page.frame = none)
      (installed : space.table.install? owner.va (frameBase frame) page.writable = some table)
      (fetch : page.kind.fetch held.swap held.files (held.frames.image frame) = fetched)
      (incomplete : fetched.kind = none) :
      Returns owner frame held
        ((((held.attached owner frame table).putFetched owner page.kind frame fetched).detached
          owner).modifyFrames fun frames => frames.release frame)

end Pager

/-! ## Moves of the ledger -/

namespace Ledger

/-- A page is saved and loses its frame. -/
inductive Unloads (owner : Owner) (page : Page) (frame : Nat) (ledger : Ledger) : Ledger → Prop
  | toSlot {slot : Nat} (anonymous : page.kind = .anonymous none)
      (clear : ledger.used slot = false) (inside : slot < ledger.slotCount) :
      Unloads owner page frame ledger
        ((((ledger.setUsed slot true).setSlotImage slot (ledger.images frame)).setTranslation
          owner none).setPage owner
            (some { page with frame := none, kind := .anonymous (some slot) }))
  | toFile {range : FileRange} (file : page.kind = .file range) :
      Unloads owner page frame ledger
        ((ledger.setTranslation owner none).setPage owner (some { page with frame := none }))

/-- A frame is handed to a page that does not have it yet. -/
inductive Acquires (owner : Owner) (frame : Nat) (ledger : Ledger) : Ledger → Prop
  | free {rest : List Nat} (first : ledger.free = frame :: rest) :
      Acquires owner frame ledger ({ ledger with free := rest }.assign frame owner)
  | evicted {victim : Owner} {page : Page} {unloaded : Ledger} {policy : Policy}
      (full : ledger.free = []) (present : ledger.pages victim = some page)
      (resident : page.frame = some frame) (unpinned : ledger.pinned frame = false)
      (tracks : (policy.acquired frame).Tracks fun frame => ledger.owners frame ≠ none)
      (unloads : ledger.Unloads victim page frame unloaded) :
      Acquires owner frame ledger ({ unloaded with policy := policy }.assign frame owner)

/-- The frame arrives at its page with a content. -/
inductive Arrives (owner : Owner) (page : Page) (frame : Nat) (image : Image) (ledger : Ledger) :
    Ledger → Prop
  | plain (without : page.kind.slot? = none) :
      Arrives owner page frame image ledger
        ((((ledger.setTranslation owner (some ⟨frameBase frame, page.writable⟩)).setPage owner
          (some { page with frame := some frame, kind := page.kind.settled })).setPinned frame
            false).setImage frame image)
  | fromSlot {slot : Nat} (held : page.kind = .anonymous (some slot))
      (same : image = ledger.slotImages slot) :
      Arrives owner page frame image ledger
        (((((ledger.setUsed slot false).setTranslation owner
          (some ⟨frameBase frame, page.writable⟩)).setPage owner
            (some { page with frame := some frame, kind := .anonymous none })).setPinned frame
              false).setImage frame image)

/-- The frame becomes free, whatever was read into it. -/
inductive Returns (frame : Nat) (ledger : Ledger) : Ledger → Prop
  | intro {image : Image} : Returns frame ledger ((ledger.setImage frame image).release frame)

theorem setPage_setPage (ledger : Ledger) (owner : Owner) (first second : Option Page) :
    (ledger.setPage owner first).setPage owner second = ledger.setPage owner second := by
  simp only [setPage, Function.update_idem]

theorem pages_setPage_self (ledger : Ledger) (owner : Owner) (page : Option Page) :
    (ledger.setPage owner page).pages owner = page :=
  Function.update_self ..

/-- Page and translation can be set and set back. -/
theorem setBack
    {ledger : Ledger} {owner : Owner} {page : Option Page} {image : Image} {frame : Nat}
    (present : ledger.pages owner = page) (untranslated : ledger.translations owner = none)
    (meanwhile : Option Page) (translation : Option Translation) :
    ((((ledger.setImage frame image).setTranslation owner translation).setPage owner
      meanwhile).setTranslation owner none).setPage owner page = ledger.setImage frame image := by
  simp only [setPage, setTranslation, setImage, Function.update_idem]
  rw [← present, Function.update_eq_self, ← untranslated, Function.update_eq_self]

end Ledger

/-! ## What the moves of pagers do to the ledger -/

namespace Pager

variable {before held after saved : Pager} {owner : Owner} {page : Page} {frame : Nat}

theorem ledger_selected (pager : Pager) :
    pager.selected.ledger =
      { pager.ledger with policy := (pager.frames.policy.select pager.candidates).2.2 } := by
  have unseen := pager.ledger_clearTaken pager.candidates
    (pager.frames.policy.select pager.candidates).2.1
  rw [← unseen]
  rfl

theorem Saves.unloads
    (saves : before.Saves owner page frame saved) (aligned : pageBase owner.va = owner.va)
    (present : before.ledger.pages owner = some page) :
    before.ledger.Unloads owner page frame (saved.detached owner).ledger := by
  cases saves with
  | toFile file =>
      rw [ledger_detached aligned, ledger_writeBack, present]
      exact .toFile file
  | toSlot anonymous taken complete =>
      rename_i slot reserved stored
      obtain ⟨inside, clear, _⟩ := reserve?_eq_some taken
      have kept := ledger_store_slot taken (congrArg Prod.snd complete)
      rw [complete] at kept
      have result : (before.ledger.Unloads owner page frame) _ :=
        .toSlot anonymous clear inside
      rw [ledger_detached aligned, ledger_modifyPage, aligned, ledger_modifyCounters, ledger_note,
        kept]
      simp only [Ledger.setPage, Ledger.setTranslation, Ledger.setSlotImage, Ledger.setUsed,
        Function.update_idem, Function.update_self, present, Option.map_some] at result ⊢
      exact result

theorem candidates_evictable (pager : Pager) {frame : Nat}
    (evictable : pager.candidates.evictable frame = true) :
    pager.ledger.pinned frame = false ∧ ∃ owner, pager.ledger.owners frame = some owner := by
  simp only [Candidates.evictable, candidates, Array.getElem?_map] at evictable
  simp only [ledger, FramePool.isPinned, FramePool.owner?]
  cases found : pager.frames.frames[frame]? with
  | none => simp [found] at evictable
  | some entry =>
      simp only [found, Option.map_some, candidate] at evictable
      cases owned : entry.owner with
      | none => simp [owned] at evictable
      | some owner =>
          simp only [owned, Bool.not_eq_true'] at evictable
          exact ⟨evictable, owner, owned⟩

theorem evictable_of_unpinned (pager : Pager) {frame : Nat} {owner : Owner}
    (owned : pager.ledger.owners frame = some owner)
    (unpinned : pager.ledger.pinned frame = false) :
    pager.candidates.evictable frame = true := by
  simp only [Candidates.evictable, candidates, Array.getElem?_map]
  simp only [ledger, FramePool.isPinned, FramePool.owner?] at owned unpinned
  cases found : pager.frames.frames[frame]? with
  | none => simp [found] at owned
  | some entry =>
      simp only [found] at owned unpinned
      simp [candidate, owned, unpinned]

private theorem unloads_of_policy
    {ledger unloaded : Ledger} {policy : Policy}
    (unloads : { ledger with policy := policy }.Unloads owner page frame unloaded) :
    ∃ same, ledger.Unloads owner page frame same ∧ unloaded = { same with policy := policy } := by
  cases unloads with
  | toSlot anonymous clear inside => exact ⟨_, .toSlot anonymous clear inside, rfl⟩
  | toFile file => exact ⟨_, .toFile file, rfl⟩

theorem Acquires.moves
    (acquires : before.Acquires owner frame held) (sound : before.ledger.Sound none) :
    before.ledger.Acquires owner frame held.ledger := by
  cases acquires with
  | free taken =>
      obtain ⟨rest, first, handed⟩ := ledger_takeFree taken
      have inside := ((sound.listed.mem_free frame).mp (by simp [first])).1
      rw [ledger_note, handed inside]
      exact .free first
  | evicted full chosen present resident saves =>
      rename_i victim page saved
      obtain ⟨unpinned, _⟩ := before.candidates_evictable (Policy.select_evictable chosen)
      have tracks := sound.tracked.select_acquired chosen
      have selected := before.ledger_selected
      have owned := sound.owner_of_page present resident
      have presentThen : before.selected.ledger.pages victim = some page := by
        rw [selected]
        exact present
      have unloads := saves.unloads (sound.placed victim page present).aligned presentThen
      rw [selected] at unloads
      obtain ⟨unloaded, unloads, same⟩ := unloads_of_policy unloads
      have counted : (saved.detached victim).frames.frameCount = before.frames.frameCount := by
        have frameCount := congrArg Ledger.frameCount same
        cases unloads <;> exact frameCount
      have inside : frame < (saved.detached victim).frames.frameCount := by
        rw [counted]
        exact sound.lt_frameCount owned
      rw [ledger_note]
      have assigned := @ledger_assign
        (((saved.detached victim).modifyCounters fun counters =>
          { counters with evictions := counters.evictions + 1 }).note
            (.evicted victim page.kind
              ((before.selected.table victim.pid).isDirty victim.va))) frame inside owner
      rw [assigned, ledger_note, ledger_modifyCounters, same]
      exact .evicted full present resident unpinned tracks unloads

end Pager

namespace Ledger

variable {ledger held unloaded after : Ledger} {owner : Owner} {page : Page} {frame : Nat}

theorem Unloads.sound
    (unloads : ledger.Unloads owner page frame unloaded) (sound : ledger.Sound none)
    (present : ledger.pages owner = some page) (resident : page.frame = some frame) :
    unloaded.Sound (some (owner, frame)) := by
  cases unloads with
  | toSlot anonymous clear inside =>
      exact sound.unloadToSlot present resident _ clear inside
  | toFile file => exact sound.unload present resident file

theorem Unloads.pages_of_ne
    (unloads : ledger.Unloads owner page frame unloaded) {other : Owner} (apart : other ≠ owner) :
    unloaded.pages other = ledger.pages other := by
  cases unloads with
  | toSlot => exact Function.update_of_ne apart ..
  | toFile => exact Function.update_of_ne apart ..

theorem Unloads.owners (unloads : ledger.Unloads owner page frame unloaded) :
    unloaded.owners = ledger.owners := by
  cases unloads <;> rfl

theorem Acquires.sound
    (acquires : ledger.Acquires owner frame held) (sound : ledger.Sound none)
    (present : ledger.pages owner = some page) (absent : page.frame = none) :
    held.Sound (some (owner, frame)) ∧ held.pages owner = some page := by
  cases acquires with
  | free first => exact ⟨sound.take first present absent, present⟩
  | evicted full presentVictim resident unpinned tracks unloads =>
      rename_i victim victimPage unloaded policy
      have apart : owner ≠ victim := by
        rintro rfl
        rw [present] at presentVictim
        cases presentVictim
        rw [absent] at resident
        cases resident
      have presentThen : unloaded.pages owner = some page := by
        rw [unloads.pages_of_ne apart]
        exact present
      refine ⟨?_, presentThen⟩
      apply (unloads.sound sound presentVictim resident).retarget presentThen absent
      rw [unloads.owners]
      exact tracks

theorem Arrives.sound
    {image : Image} (arrives : ledger.Arrives owner page frame image after)
    (sound : ledger.Sound (some (owner, frame)))
    (present : ledger.pages owner = some page) :
    after.Sound none := by
  cases arrives with
  | plain without =>
      have fits := Nat.le_trans page.kind.readLength_settled_le (sound.placed owner page present).fits
      exact (sound.load present without page.kind.slot?_settled page.kind.settled_ne_pending
        fits).setImage _ _
  | fromSlot isHeld _ => exact (sound.loadFromSlot present isHeld).setImage _ _

theorem Returns.sound
    (returns : ledger.Returns frame after) (sound : ledger.Sound (some (owner, frame))) :
    after.Sound none := by
  cases returns
  exact (sound.setImage _ _).giveUp

end Ledger

namespace Pager

variable {before held after saved : Pager} {owner : Owner} {page : Page} {frame : Nat}

/-- What a fetch into an attached frame shows. -/
private theorem ledger_fetched
    {space : AddressSpace} {table : PageTable} {fetched : Fetched}
    (sound : held.ledger.Sound (some (owner, frame)))
    (present : held.ledger.pages owner = some page)
    (found : held.space? owner.pid = some space)
    (installed : space.table.install? owner.va (frameBase frame) page.writable = some table)
    (fetch : page.kind.fetch held.swap held.files (held.frames.image frame) = fetched) :
    ∃ filled : Ledger,
      ((held.attached owner frame table).putFetched owner page.kind frame fetched).ledger =
        (filled.setTranslation owner (some ⟨frameBase frame, page.writable⟩)).setPage owner
          (some { page with frame := some frame }) ∧
      ((filled = held.ledger.setImage frame fetched.image ∧
        (page.kind.slot? = none ∨ fetched.kind = none)) ∨
      ∃ slot, page.kind = .anonymous (some slot) ∧
        fetched.image = held.ledger.slotImages slot ∧ fetched.kind = some (.anonymous none) ∧
        filled = (held.ledger.setUsed slot false).setImage frame fetched.image) := by
  have aligned := (sound.placed owner page present).aligned
  obtain ⟨owned, _⟩ := sound.frames.flying owner frame rfl
  have inside : frame < (held.attached owner frame table).frames.frameCount :=
    sound.lt_frameCount owned
  have attached := ledger_attached aligned found installed
  rw [present, Option.map_some] at attached
  have slotImages : fetched.swap.slotImage = held.swap.slotImage := by
    rw [← fetch]
    exact PageKind.fetch_slotImage
  have unslotted (used : fetched.swap.used = held.swap.used) :
      ((held.attached owner frame table).putFetched owner page.kind frame fetched).ledger =
        ((held.ledger.setImage frame fetched.image).setTranslation owner
          (some ⟨frameBase frame, page.writable⟩)).setPage owner
            (some { page with frame := some frame }) := by
    rw [ledger_putFetched_of_used inside used slotImages, attached]
    rfl
  cases slotFound : page.kind.slot? with
  | none =>
      have sameSwap : fetched.swap = held.swap := by
        rw [← fetch]
        exact PageKind.fetch_swap slotFound
      exact ⟨_, unslotted (by rw [sameSwap]), Or.inl ⟨rfl, Or.inl rfl⟩⟩
  | some slot =>
      have anonymous := PageKind.slot?_eq_some_iff.mp slotFound
      have bound : slot < held.swap.slotCount :=
        sound.slots.inside slot (sound.slots.slot_of_page owner page slot present anonymous).1
      have outcome := @PageKind.fetch_slot page.kind held.swap held.files
        (held.frames.image frame) slot slotFound
      rw [fetch] at outcome
      rcases outcome with ⟨used, image, complete⟩ | ⟨used, incomplete⟩
      · refine ⟨_, ?_, Or.inr ⟨slot, anonymous, image, complete, rfl⟩⟩
        rw [ledger_putFetched_of_slot inside bound used slotImages, attached]
        rfl
      · exact ⟨_, unslotted used, Or.inl ⟨rfl, Or.inr incomplete⟩⟩

/-- What is noted of a fetch. -/
private theorem journal_putFetched
    (pager : Pager) (owner : Owner) (kind : PageKind) (frame : Nat) (fetched : Fetched) :
    ∃ transfers : List Activity, (∀ activity ∈ transfers, activity.IsTransfer) ∧
      (pager.putFetched owner kind frame fetched).journal =
        .fetched owner kind fetched.kind.isSome ::
          ((if fetched.kind.isSome then kind.firstLoads owner fetched.image else []) ++
            (transfers ++ pager.journal)) := by
  have noted : ∃ transfers : List Activity, (∀ activity ∈ transfers, activity.IsTransfer) ∧
      ({ pager with
        swap := fetched.swap
        files := fetched.files
        frames := pager.frames.setImage frame fetched.image }.noteTransfers owner kind
          pager.swap).journal = transfers ++ pager.journal := by
    unfold noteTransfers
    split
    · exact ⟨[_], by simp [Activity.IsTransfer], rfl⟩
    · exact ⟨[], by simp, rfl⟩
  obtain ⟨transfers, are, same⟩ := noted
  refine ⟨transfers, are, ?_⟩
  simp only [putFetched, note, noteLoad]
  cases kind <;> cases complete : fetched.kind <;>
    simp [same, PageKind.firstLoads]

theorem journal_putFetched_of_slot
    (pager : Pager) (owner : Owner) (slot frame : Nat) (fetched : Fetched) :
    (pager.putFetched owner (.anonymous (some slot)) frame fetched).journal =
      [.fetched owner (.anonymous (some slot)) fetched.kind.isSome, .swapped owner .read slot
        (pager.swap.used.get slot) (fetched.swap.transfersSince pager.swap)] ++ pager.journal :=
  rfl

theorem Arrives.moves
    (arrives : held.Arrives owner frame after) (sound : held.ledger.Sound (some (owner, frame)))
    (present : held.ledger.pages owner = some page) :
    ∃ image transfers,
      held.ledger.Arrives owner page frame image after.ledger ∧
      (page.kind.fetch held.swap held.files (held.frames.image frame)).Brings image ∧
      (∀ activity ∈ transfers, activity.IsTransfer) ∧
      after.journal =
        .fetched owner page.kind true ::
          (page.kind.firstLoads owner image ++ (transfers ++ held.journal)) := by
  cases arrives with
  | intro found presentThen absent installed fetch complete =>
      rename_i space pageThen table fetched kind
      rw [present] at presentThen
      cases presentThen
      have settled : kind = page.kind.settled :=
        PageKind.fetch_kind (by rw [fetch]; exact complete)
      have aligned := (sound.placed owner page present).aligned
      obtain ⟨owned, _⟩ := sound.frames.flying owner frame rfl
      have inside : frame < ((held.attached owner frame table).putFetched owner page.kind frame
          fetched).frames.frameCount := by
        rw [frameCount_putFetched]
        exact sound.lt_frameCount owned
      obtain ⟨filled, shown, cases⟩ := ledger_fetched sound present found installed fetch
      obtain ⟨transfers, are, noted⟩ := journal_putFetched (held.attached owner frame table)
        owner page.kind frame fetched
      rw [complete, Option.isSome_some, if_pos rfl] at noted
      have unpinned := @ledger_unpin (((held.attached owner frame table).putFetched owner
        page.kind frame fetched).becomeFetched owner.pid owner.va page.kind kind) frame
          inside
      refine ⟨fetched.image, transfers, ?_, ?_, are, noted⟩
      · rw [unpinned, becomeFetched, ledger_modifyCounters, ledger_modifyPage, aligned, shown,
          Ledger.pages_setPage_self, Ledger.setPage_setPage, Option.map_some]
        rcases cases with ⟨rfl, without | incomplete⟩ | ⟨slot, anonymous, same, _, rfl⟩
        · rw [settled]
          exact .plain without
        · rw [incomplete] at complete
          cases complete
        · rw [anonymous] at settled
          rw [settled]
          exact .fromSlot anonymous same
      · rw [fetch]
        exact ⟨rfl, by rw [complete]; rfl⟩

theorem Returns.moves
    (returns : held.Returns owner frame after)
    (sound : held.ledger.Sound (some (owner, frame)))
    (present : held.ledger.pages owner = some page) :
    held.ledger.Returns frame after.ledger ∧
      ∃ transfers : List Activity, (∀ activity ∈ transfers, activity.IsTransfer) ∧
        after.journal = .fetched owner page.kind false :: (transfers ++ held.journal) := by
  cases returns with
  | intro found presentThen absent installed fetch incomplete =>
      rename_i space pageThen table fetched
      rw [present] at presentThen
      cases presentThen
      have aligned := (sound.placed owner page present).aligned
      obtain ⟨owned, _⟩ := sound.frames.flying owner frame rfl
      have inside : frame < ((held.attached owner frame table).putFetched owner page.kind frame
          fetched).frames.frameCount := by
        rw [frameCount_putFetched]
        exact sound.lt_frameCount owned
      obtain ⟨filled, shown, cases⟩ := ledger_fetched sound present found installed fetch
      obtain ⟨transfers, are, noted⟩ := journal_putFetched (held.attached owner frame table)
        owner page.kind frame fetched
      rw [incomplete, Option.isSome_none, if_neg Bool.false_ne_true] at noted
      have released := @ledger_release (((held.attached owner frame table).putFetched owner
        page.kind frame fetched).detached owner) frame inside
      refine ⟨?_, transfers, are, noted⟩
      rw [released, ledger_detached aligned, shown, Ledger.pages_setPage_self, Option.map_some]
      rcases cases with ⟨rfl, _⟩ | ⟨_, _, _, complete, _⟩
      · have samePage : { page with frame := none } = page := by rw [← absent]
        dsimp only
        rw [samePage, Ledger.setBack present (sound.untranslated present absent) _ _]
        exact .intro
      · rw [incomplete] at complete
        cases complete

theorem journal_writeBack (pager : Pager) (owner : Owner) (range : FileRange) (frame : Nat) :
    ∃ transfers : List Activity, (∀ activity ∈ transfers, activity.IsTransfer) ∧
      (pager.writeBack owner range frame).journal = transfers ++ pager.journal := by
  unfold writeBack
  split
  · exact ⟨[_], by simp [Activity.IsTransfer], rfl⟩
  · exact ⟨[], by simp, rfl⟩

theorem journal_selected (pager : Pager) : pager.selected.journal = pager.journal := by
  obtain ⟨spaces, same⟩ := pager.clearTaken_eq pager.candidates
    (pager.frames.policy.select pager.candidates).2.1
  rw [selected, same]
  rfl

/-- Saving a page is noted as transfers. -/
theorem Saves.journal (saves : before.Saves owner page frame saved) :
    ∃ transfers : List Activity, (∀ activity ∈ transfers, activity.IsTransfer) ∧
      saved.journal = transfers ++ before.journal := by
  cases saves with
  | toSlot anonymous taken complete => exact ⟨[_], by simp [Activity.IsTransfer], rfl⟩
  | toFile file => exact before.journal_writeBack ..

/-- Handing a frame to a page is noted last, after the transfers by which another page gave it up. -/
theorem Acquires.assigned (acquires : before.Acquires owner frame held) :
    ∃ (wasFree : Bool) (transfers : List Activity), (∀ activity ∈ transfers, activity.IsTransfer) ∧
      held.journal = .assigned owner frame wasFree :: (transfers ++ before.journal) := by
  cases acquires with
  | free taken => exact ⟨true, [], by simp, rfl⟩
  | evicted full chosen present resident saves =>
      rename_i victim page saved
      obtain ⟨transfers, are, noted⟩ := saves.journal
      refine ⟨false, .evicted victim page.kind
        ((before.selected.table victim.pid).isDirty victim.va) :: transfers, ?_, ?_⟩
      · intro activity member
        rcases List.mem_cons.mp member with rfl | member
        · trivial
        · exact are activity member
      · rw [List.cons_append, ← before.journal_selected, ← noted]
        rfl

/-- Handing a frame to a page is noted as transfers. -/
theorem Acquires.journal (acquires : before.Acquires owner frame held) :
    ∃ transfers : List Activity, (∀ activity ∈ transfers, activity.IsTransfer) ∧
      held.journal = transfers ++ before.journal := by
  obtain ⟨wasFree, transfers, are, noted⟩ := acquires.assigned
  refine ⟨.assigned owner frame wasFree :: transfers, fun activity member => ?_, noted⟩
  rcases List.mem_cons.mp member with rfl | member
  · trivial
  · exact are activity member

end Pager

end DemandPaging
