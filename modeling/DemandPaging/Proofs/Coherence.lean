import DemandPaging.Proofs.FileChanges

/-!
# Pages of mapped files keep promises

A page of a mapped file can promise bytes. Its frame holds them whenever it is in one, and its range of the
file has them unless the page was changed since it got its frame: a page is filled from its range, and
a changed one is written there before its frame is given away. So no turn breaks a promise that neither
alters the page nor reaches its range through another page, as long as no write to the file fails.
-/

namespace DemandPaging

/-- Whether two ranges have no byte of a file in common. -/
def FileRange.Apart (range other : FileRange) : Prop :=
  ∀ file index, range.Covers file index → ¬ other.Covers file index

/-- A page of a mapped file as it was reserved. -/
structure MappedPage where
  owner : Owner
  first : Page
  range : FileRange
  mapped : first.kind.mapped? = some range

namespace MappedPage

variable {site : MappedPage} {promised : Nat → Option UInt8} {image : Image}
  {content old new : FileId → Array UInt8}

/-- Whether files have the bytes that are promised at offsets in a page. -/
def StoredIn (site : MappedPage) (promised : Nat → Option UInt8) (content : FileId → Array UInt8) :
    Prop :=
  ∀ offset byte, offset < site.range.length → promised offset = some byte →
    (content site.range.file)[site.range.offset + offset]? = some byte

/-- Whether an image has the bytes that are promised at offsets in a page. -/
def HeldIn (promised : Nat → Option UInt8) (image : Image) : Prop :=
  ∀ offset byte, offset < pageSize → promised offset = some byte → image[offset]? = some byte

/-- What a range has, other ranges cannot change. -/
theorem StoredIn.of_changedWithin
    {ranges : FileRange → Prop} (stored : site.StoredIn promised old)
    (within : ChangedWithin ranges old new) (apart : ∀ range, ranges range → range.Apart site.range) :
    site.StoredIn promised new := by
  intro offset byte inside promises
  rw [← stored offset byte inside promises]
  by_contra changed
  obtain ⟨range, good, covers⟩ := within.covered _ _ changed
  exact apart range good _ _ covers ⟨rfl, Nat.le_add_right .., Nat.add_lt_add_left inside _⟩

/-- A page that is filled from its range holds what the range has, and zeros behind it. -/
theorem StoredIn.heldIn_ofBytes
    (stored : site.StoredIn promised content)
    (behind : ∀ offset byte, site.range.length ≤ offset → offset < pageSize →
      promised offset = some byte → byte = 0) :
    HeldIn promised (Image.ofBytes ((content site.range.file).extract site.range.offset
      (site.range.offset + site.range.length))) := by
  intro offset byte inside promises
  rw [Vector.getElem?_eq_getElem inside, Image.getElem_ofBytes _ inside, Array.getD_eq_getD_getElem?,
    Array.getElem?_extract]
  by_cases backed : offset < site.range.length
  · have there := stored offset byte backed promises
    have bound := (Array.getElem?_eq_some_iff.mp there).1
    rw [if_pos (by omega), there, Option.getD_some]
  · rw [if_neg (by omega), Option.getD_none,
      behind offset byte (Nat.le_of_not_lt backed) inside promises]

end MappedPage

namespace Pager

/-- A page of a mapped file keeps its promises: the bytes are in its frame while it has one, and in its
range unless it was changed since. Behind the range there are only zeros to promise. -/
structure Keeps (pager : Pager) (site : MappedPage) (promised : Nat → Option UInt8) : Prop where
  behind : ∀ offset byte, site.range.length ≤ offset → offset < pageSize →
    promised offset = some byte → byte = 0
  inside : ∀ offset, offset < site.range.length →
    site.range.offset + offset < (pager.files.content site.range.file).size
  alike : ∀ {page}, pager.ledger.pages site.owner = some page → page.Alike site.first
  held : ∀ {page frame}, pager.ledger.pages site.owner = some page → page.frame = some frame →
    MappedPage.HeldIn promised (pager.ledger.images frame)
  stored : pager.dirtyOf site.owner ≠ some true → site.StoredIn promised pager.files.content

/-- Whether the other pages in frames that may be written reach no byte of the range of a page. -/
def Spares (pager : Pager) (site : MappedPage) : Prop :=
  ∀ {owner page range frame}, pager.ledger.Loaded owner page range frame → page.writable = true →
    owner ≠ site.owner → range.Apart site.range

/-- Whether no write of a page to a file failed between two states. -/
def SavesAll (file : FileId) (before after : Pager) : Prop :=
  ∀ later, after.journal = later ++ before.journal → ∀ owner range, range.file = file →
    .wroteBack owner range false ∉ later

variable {before middle after : Pager} {site : MappedPage} {promised : Nat → Option UInt8}
  {deed : Deed} {allowed : Deed → Prop} {page : Page} {frame : Nat} {file : FileId}

/-- Of two parts neither lost anything if the whole did not. -/
theorem SavesAll.split
    (saves : SavesAll file before after) (first : ∃ earlier, middle.journal = earlier ++ before.journal)
    (second : ∃ later, after.journal = later ++ middle.journal) :
    SavesAll file before middle ∧ SavesAll file middle after := by
  obtain ⟨earlier, noted⟩ := first
  obtain ⟨later, notedThen⟩ := second
  have whole : after.journal = (later ++ earlier) ++ before.journal := by
    rw [notedThen, noted, List.append_assoc]
  constructor
  · intro other same owner range isFile member
    cases List.append_cancel_right (same.symm.trans noted)
    exact saves _ whole owner range isFile (List.mem_append_right later member)
  · intro other same owner range isFile member
    cases List.append_cancel_right (same.symm.trans notedThen)
    exact saves _ whole owner range isFile (List.mem_append_left earlier member)

/-! ## Turns -/

/-- A page of a mapped file that is in a frame holds its range there. -/
theorem Keeps.loaded
    (keeps : before.Keeps site promised) (sound : before.ledger.Sound none)
    (present : before.ledger.pages site.owner = some page) (resident : page.frame = some frame) :
    before.ledger.Loaded site.owner page site.range frame := by
  have mapped := (keeps.alike present).mapped.trans site.mapped
  refine ⟨present, ?_, resident⟩
  rcases kind : page.kind with load | held | range
  · exact absurd kind (sound.not_pending present resident load)
  · rw [kind] at mapped
    cases mapped
  · rw [kind] at mapped
    exact congrArg PageKind.file (Option.some.inj mapped)

/-- A page that gives up its frame leaves what it promised in its range. -/
theorem Flushed.storedIn
    (flushed : before.Flushed site.owner site.range frame after) (keeps : before.Keeps site promised)
    (sound : before.ledger.Sound none)
    (loaded : before.ledger.Loaded site.owner page site.range frame)
    (saves : SavesAll site.range.file before after) : site.StoredIn promised after.files.content := by
  cases flushed with
  | clean unchanged same =>
      rw [same]
      exact keeps.stored unchanged
  | lost changed same noted =>
      obtain ⟨later, noted, member⟩ := noted
      exact absurd member (saves later noted _ _ rfl)
  | written changed content =>
      have fits : site.range.length ≤ pageSize := by
        have fits := (sound.placed _ page loaded.present).fits
        rwa [loaded.file] at fits
      intro offset byte inside promises
      have there := keeps.inside offset inside
      have fromFrame : ((before.ledger.images frame).slice 0 site.range.length)[offset]? = some byte := by
        rw [Image.getElem?_slice _ (by omega) inside, Nat.zero_add]
        exact keeps.held loaded.present loaded.resident offset byte (by omega) promises
      rw [content, flushedContent, Function.update_self, getElem?_overwritten,
        Array.getElem?_eq_getElem there, Option.map_some, if_pos (Nat.le_add_right ..),
        Nat.add_sub_cancel_left, Array.getD_eq_getD_getElem?, fromFrame, Option.getD_some]

/-- A page that is clean after a turn was clean before if pages in frames stayed. -/
theorem Turn.clean_before
    (turn : Turn deed before after) (sound : before.ledger.Sound none)
    (keeps : before.Keeps site promised)
    (stay : ∀ {page frame}, before.ledger.Loaded site.owner page site.range frame →
      after.ledger.pages site.owner = some page)
    (clean : after.dirtyOf site.owner ≠ some true) : before.dirtyOf site.owner ≠ some true := by
  intro changed
  obtain ⟨translation, translated⟩ : ∃ translation,
      before.ledger.translations site.owner = some translation := by
    rw [← Option.isSome_iff_exists, ← isSome_dirtyOf, changed]
    rfl
  obtain ⟨page, frame, present, resident⟩ := sound.frames.page_of_translation _ _ translated
  have still := stay (keeps.loaded sound present resident)
  rcases turn.dirtyOf sound site.owner with same | gone | ⟨rfl, _⟩ | ⟨_, marked, _⟩
  · exact clean (same.trans changed)
  · obtain ⟨dirty, bit⟩ := dirtyOf_of_resident (turn.sound sound) still resident
    rw [gone] at bit
    cases bit
  · cases turn with
    | claimed presentThere absent acquires arrives =>
        rw [present] at presentThere
        cases presentThere
        rw [absent] at resident
        cases resident
  · rw [changed] at marked
    exact clean marked

/-- After a turn the range of a clean page has what was promised. -/
theorem Turn.storedIn
    (turn : Turn deed before after) (sound : before.ledger.Sound none) (tidy : before.Tidy)
    (keeps : before.Keeps site promised) (spares : before.Spares site)
    (saves : SavesAll site.range.file before after) (clean : after.dirtyOf site.owner ≠ some true) :
    site.StoredIn promised after.files.content := by
  cases turn.settles sound tidy with
  | still same stay =>
      rw [same]
      exact keeps.stored (turn.clean_before sound keeps (fun loaded => stay loaded) clean)
  | flushed loaded flushed leaves stay =>
      rename_i victim page range frame
      by_cases own : victim = site.owner
      · subst own
        obtain ⟨_, file, _⟩ := keeps.loaded sound loaded.present loaded.resident
        cases loaded.file.symm.trans file
        exact flushed.storedIn keeps sound loaded saves
      · refine (keeps.stored (turn.clean_before sound keeps
          (fun there => stay there (Ne.symm own)) clean)).of_changedWithin
            (flushed.changedWithin fun changed => ?_) fun _ => id
        obtain ⟨old, present, writable⟩ := tidy.marked victim changed
        cases loaded.present.symm.trans present
        exact spares loaded writable own

/-- A page of a mapped file that was claimed was filled from its range. -/
theorem Turn.image_claimed
    {owner : Owner} {new : Page} {range : FileRange} (turn : Turn (.claimed owner) before after)
    (sound : before.ledger.Sound none) (present : after.ledger.pages owner = some new)
    (mapped : new.kind.mapped? = some range) (resident : new.frame = some frame) :
    after.ledger.images frame = Image.ofBytes
      ((after.files.content range.file).extract range.offset (range.offset + range.length)) := by
  cases turn with
  | claimed presentOld absent acquires arrives =>
      have moves := acquires.moves sound
      obtain ⟨flying, presentThen⟩ := moves.sound sound presentOld absent
      obtain ⟨image, _, arrived, brings, _⟩ := arrives.moves flying presentThen
      obtain ⟨_, pages, continues, attached, _⟩ := arrived.pages
      rw [pages, Function.update_self] at present
      cases present
      cases resident.symm.trans attached
      rw [arrived.image, arrives.content,
        ← PageKind.image_fetch (continues.mapped.symm.trans mapped) brings]

/-- A turn that neither reserves nor alters a page of a mapped file keeps its promises. -/
theorem Turn.keeps
    (turn : Turn deed before after) (sound : before.ledger.Sound none) (tidy : before.Tidy)
    (keeps : before.Keeps site promised) (spares : before.Spares site)
    (saves : SavesAll site.range.file before after)
    (unreserved : ∀ page, deed ≠ .reserved site.owner page) (unaltered : ¬ deed.Alters site.owner) :
    after.Keeps site promised := by
  have step := turn.step sound
  have stored := turn.storedIn sound tidy keeps spares saves
  have alike {page : Page} (present : after.ledger.pages site.owner = some page) :
      page.Alike site.first := by
    obtain ⟨old, presentOld, continues⟩ := step.continued present (unreserved page)
    exact continues.toAlike.trans (keeps.alike presentOld)
  refine ⟨keeps.behind, fun offset inside => ?_, alike, fun {page frame} present resident => ?_, stored⟩
  · have size := (@Turn.changedWithin _ _ _ (fun _ => True) turn sound tidy
      fun _ _ _ => trivial).size site.range.file
    rw [size]
    exact keeps.inside offset inside
  · by_cases claimed : deed = .claimed site.owner
    · subst claimed
      rw [turn.image_claimed sound present ((alike present).mapped.trans site.mapped) resident]
      refine (stored ?_).heldIn_ofBytes keeps.behind
      rcases turn.dirtyOf sound site.owner with same | gone | ⟨_, fresh⟩ | ⟨marks, _⟩
      · cases turn with
        | claimed presentOld absent acquires arrives =>
            rw [same, dirtyOf_of_vacant sound fun other there => by
              cases presentOld.symm.trans there
              exact absent]
            exact nofun
      · rw [gone]
        exact nofun
      · rw [fresh]
        exact nofun
      · rcases marks with marks | marks <;> cases marks
    · have presentOld := step.resident_of present resident claimed
      rw [step.images sound presentOld resident present unaltered]
      exact keeps.held presentOld resident

/-! ## Runs -/

theorem Turn.vacant_of_reserved
    {owner : Owner} {page : Page} (turn : Turn (.reserved owner page) before after) :
    before.ledger.pages owner = none := by
  cases turn with
  | reserved found vacant placed pending absent => exact vacant

/-- What a turn keeps, a run keeps; where the page is nothing can be reserved. -/
theorem Runs.keeps
    (runs : Runs allowed before after) (sound : before.ledger.Sound none) (tidy : before.Tidy)
    (keeps : before.Keeps site promised) (saves : SavesAll site.range.file before after)
    (spares : ∀ {middle}, Runs allowed before middle → middle.Spares site)
    (unreserved : ∀ {middle}, Runs allowed before middle →
      middle.ledger.pages site.owner ≠ none ∨ ∀ page, ¬ allowed (.reserved site.owner page))
    (unaltered : ∀ deed, allowed deed → ¬ deed.Alters site.owner) : after.Keeps site promised := by
  induction runs with
  | refl => exact keeps
  | tail runs permitted turn inductionHypothesis =>
      have middleSound := runs.sound sound
      obtain ⟨first, last⟩ := saves.split (runs.journal sound)
        ((Runs.single permitted turn).journal middleSound)
      apply turn.keeps middleSound (runs.tidy sound tidy) (inductionHypothesis first) (spares runs) last
      · rintro page rfl
        rcases unreserved runs with occupied | never
        · exact occupied turn.vacant_of_reserved
        · exact never page permitted
      · exact unaltered _ permitted

/-! ## Stores -/

/-- A page that keeps promises keeps lesser ones. -/
theorem Keeps.weaken
    {lesser : Nat → Option UInt8} (keeps : before.Keeps site promised)
    (less : ∀ offset byte, offset < pageSize → lesser offset = some byte → promised offset = some byte)
    (fits : site.range.length ≤ pageSize) : before.Keeps site lesser where
  behind offset byte outside inside promises :=
    keeps.behind offset byte outside inside (less offset byte inside promises)
  inside := keeps.inside
  alike := keeps.alike
  held present resident offset byte inside promises :=
    keeps.held present resident offset byte inside (less offset byte inside promises)
  stored clean offset byte inside promises :=
    keeps.stored clean offset byte inside (less offset byte (by omega) promises)

/-- Bytes that are stored in a page may be promised where they are. -/
theorem Keeps.store
    {pid : Pid} {va : Nat} {bytes : Array UInt8} {next : Nat → Option UInt8}
    (keeps : before.Keeps site promised) (sound : before.ledger.Sound none)
    (resolved : before.Resolved pid va true frame) (here : site.owner = ⟨pid, pageBase va⟩)
    (put : ∀ offset byte, offset < pageSize → next offset = some byte →
      if pageOffset va ≤ offset ∧ offset < pageOffset va + bytes.size then
        bytes[offset - pageOffset va]? = some byte
      else promised offset = some byte)
    (behind : ∀ offset byte, site.range.length ≤ offset → offset < pageSize →
      next offset = some byte → byte = 0) :
    (before.modifyFrames fun frames =>
      frames.store (frameBase frame + pageOffset va) bytes).Keeps site next := by
  obtain ⟨⟨page, present, resident, _⟩, marked⟩ := resolved
  have below := pageOffset_lt va
  have shown := @ledger_store before (frameBase frame + pageOffset va)
    (by rw [frameBase_div below]; exact sound.lt_frameCount (sound.owner_of_page present resident)) bytes
  rw [frameBase_div below, frameBase_mod below] at shown
  refine ⟨behind, keeps.inside, fun there => ?_, fun there attached => ?_, fun clean => ?_⟩
  · rw [shown] at there
    exact keeps.alike there
  · rw [shown] at there ⊢
    rw [here] at there
    cases present.symm.trans there
    cases resident.symm.trans attached
    have filled (image : Image) : (before.ledger.setImage frame image).images frame = image :=
      Function.update_self ..
    intro offset byte inside promises
    have byteThere := put offset byte inside promises
    rw [filled, Image.getElem?_overlay _ _ _ inside]
    split
    · rename_i within
      rwa [if_pos within] at byteThere
    · rename_i outside
      rw [if_neg outside] at byteThere
      exact keeps.held (here ▸ present) resident offset byte inside byteThere
  · exact absurd (marked rfl) (here ▸ clean)

end Pager

end DemandPaging
