import DemandPaging.Proofs.Backing
import DemandPaging.Proofs.SwapTraffic

/-!
# Why a page cannot be fetched

A page is missed for one of three reasons: its range cannot be read, or is not complete although it has to
be, or its slot cannot be read. That another page is evicted before is none of them. A page that lacks nothing
is filled from the store that stands behind it.
-/

namespace DemandPaging

/-! ## Reads that succeed -/

namespace FileTable

/-- Reads of one table of files succeed where those of another do, and the files are as long. -/
structure ReadsAs (table other : FileTable) : Prop where
  read : ∀ file offset length,
    (table.readAt file offset length).2.isSome = (other.readAt file offset length).2.isSome
  size : table.size = other.size

theorem ReadsAs.refl (table : FileTable) : table.ReadsAs table :=
  ⟨fun _ _ _ => rfl, rfl⟩

/-- A read succeeds if it reaches the file and the file reaches its offset, whatever its content is. -/
private theorem isSome_readBacking (backing : BackingFile) (offset length : Nat) :
    (backing.readAt offset length).2.isSome =
      (backing.reads.isOpen && match backing.store with
        | .memory _ => true
        | .host file => file.reaches offset) := by
  unfold BackingFile.readAt FileStore.readAt HostFile.readAt
  cases backing.reads.isOpen with
  | false => rfl
  | true =>
      cases backing.store with
      | memory file => rfl
      | host file => cases reached : file.reaches offset <;> simp [reached]

/-- Writing to a file leaves its schedule of reads and its reach alone. -/
private theorem isSome_readBacking_writeAt
    (backing : BackingFile) (start offset length : Nat) (bytes : Array UInt8) :
    ((backing.writeAt start bytes).1.readAt offset length).2.isSome =
      (backing.readAt offset length).2.isSome := by
  rw [isSome_readBacking, isSome_readBacking]
  unfold BackingFile.writeAt FileStore.writeAt HostFile.writeAt
  cases backing.writes.isOpen with
  | false => rfl
  | true =>
      cases store : backing.store with
      | memory file => rfl
      | host file =>
          simp only [if_true]
          split
          · rfl
          · split <;> rfl

theorem readsAs_writeAt (table : FileTable) (file : FileId) (start : Nat) (bytes : Array UInt8) :
    (table.writeAt file start bytes).1.ReadsAs table where
  read other offset length := by
    unfold writeAt
    cases found : table.get? file with
    | none => rfl
    | some backing =>
        have inside : file < table.files.size := (Array.getElem?_eq_some_iff.mp found).1
        unfold readAt
        simp only [get?, put, Array.getElem?_setIfInBounds] at found ⊢
        by_cases same : file = other
        · subst same
          rw [if_pos rfl, if_pos inside, found]
          exact isSome_readBacking_writeAt backing start offset length bytes
        · rw [if_neg same]
          cases table.files[other]? <;> rfl
  size := by
    funext other
    rw [size_eq, size_eq, content_writeAt]
    split
    · by_cases same : other = file
      · subst same
        rw [Function.update_self, size_overwritten]
      · rw [Function.update_of_ne same]
    · rfl

end FileTable

namespace PageKind

variable {kind : PageKind} {swap otherSwap : SwapSpace} {files otherFiles : FileTable} {image : Image}
  {transfers more : List Transfer}

/-- The range of a file that the content of a page is read from. -/
def source? : PageKind → Option FileRange
  | pending load => load.range?
  | anonymous _ => none
  | file range => some range

/-- What the content of a page lacks: its range cannot be read, or is longer than the rest of the file although
it has to be complete, or one of the transfers fails that read its slot. -/
inductive Lacks (kind : PageKind) (files : FileTable) (transfers : List Transfer) : Prop
  | unread {range : FileRange} (source : kind.source? = some range)
      (refused : (files.readAt range.file range.offset range.length).2 = none)
  | short {range : FileRange} (segment : kind = .pending (.segment range))
      (short : files.size range.file - range.offset < range.length)
  | broken {slot : Nat} {transfer : Transfer} (held : kind.slot? = some slot)
      (issued : transfer ∈ transfers) (reads : transfer.direction = .read)
      (within : SwapSpace.Contains slot transfer.sector) (failed : transfer.succeeded = false)

/-- A page of zeros lacks nothing. -/
theorem not_lacks_zero : ¬ (pending .zero).Lacks files transfers := by
  rintro (⟨source, _⟩ | ⟨segment, _⟩ | ⟨held, _⟩)
  · cases source
  · cases segment
  · cases held

/-- A page lacks nothing if its range can be read, lies inside the file as far as it has to, and no transfer
fails. -/
theorem not_lacks_of_served
    (read : ∀ range, kind.source? = some range →
      (files.readAt range.file range.offset range.length).2.isSome = true)
    (complete : ∀ range, kind = .pending (.segment range) →
      range.length ≤ files.size range.file - range.offset)
    (served : ∀ transfer ∈ transfers, transfer.succeeded = true) : ¬ kind.Lacks files transfers := by
  rintro (⟨source, refused⟩ | ⟨segment, short⟩ | ⟨_, issued, _, _, failed⟩)
  · have found := read _ source
    rw [refused] at found
    cases found
  · exact absurd short (Nat.not_lt.mpr (complete _ segment))
  · cases failed.symm.trans (served _ issued)

/-- It lacks what it lacks also where reads succeed as often, and where more was transferred. -/
theorem Lacks.mono (lacks : kind.Lacks files transfers) (reads : files.ReadsAs otherFiles)
    (fewer : ∀ transfer ∈ transfers, transfer ∈ more) : kind.Lacks otherFiles more := by
  cases lacks with
  | unread source refused =>
      refine .unread source ?_
      rw [← Option.not_isSome_iff_eq_none, ← reads.read, refused]
      exact Bool.false_ne_true
  | short segment short =>
      refine .short segment ?_
      rw [← reads.size]
      exact short
  | broken held issued read within failed => exact .broken held (fewer _ issued) read within failed

/-- What a fetch leaves of the device are the transfers that it made. -/
theorem transfers_fetch (kind : PageKind) (swap : SwapSpace) (files : FileTable) (image : Image) :
    (kind.fetch swap files image).swap.device.transfers =
      (kind.fetch swap files image).swap.transfersSince swap ++ swap.device.transfers := by
  cases slotFound : kind.slot? with
  | none =>
      rw [fetch_swap slotFound, SwapSpace.transfersSince, Nat.sub_self]
      rfl
  | some slot =>
      cases slot?_eq_some_iff.mp slotFound
      exact (Pager.notes_fetch rfl).1

/-- A fetch fails only for something that the content of the page lacks. -/
theorem lacks_of_fetch (failed : (kind.fetch swap files image).kind = none) :
    kind.Lacks files ((kind.fetch swap files image).swap.transfersSince swap) := by
  rcases kind with (_ | range | range) | (_ | slot) | range
  · cases failed
  · rcases read : files.readAt range.file range.offset range.length with ⟨after, _ | bytes⟩
    · exact .unread rfl (congrArg Prod.snd read)
    · refine .short rfl ?_
      simp only [fetch, read] at failed
      split at failed
      · cases failed
      · rename_i incomplete
        rw [FileTable.readAt_eq_some (congrArg Prod.snd read), Array.size_extract] at incomplete
        rw [FileTable.size_eq]
        omega
  · rcases read : files.readAt range.file range.offset range.length with ⟨after, _ | bytes⟩
    · exact .unread rfl (congrArg Prod.snd read)
    · simp only [fetch, read] at failed
      cases failed
  · cases failed
  · obtain ⟨_, _, _, issues⟩ := Pager.notes_fetch (Eq.refl ((anonymous (some slot)).fetch swap files image))
    have complete := issues.complete
    rw [failed, Option.isSome_none, List.all_eq_false] at complete
    obtain ⟨transfer, issued, failed⟩ := complete
    obtain ⟨read, within⟩ := issues.within transfer issued
    exact .broken rfl issued read within (Bool.eq_false_iff.mpr failed)
  · rcases read : files.readAt range.file range.offset range.length with ⟨after, _ | bytes⟩
    · exact .unread rfl (congrArg Prod.snd read)
    · simp only [fetch, read] at failed
      cases failed

/-- The store behind a page depends on its slot and on the contents of files only. -/
theorem backing_congr
    (slots : ∀ slot, kind.slot? = some slot → swap.slotImage slot = otherSwap.slotImage slot)
    (contents : files.content = otherFiles.content) :
    kind.backing swap files = kind.backing otherSwap otherFiles := by
  rcases kind with (_ | _ | _) | (_ | slot) | _
  case anonymous.some => exact slots slot rfl
  all_goals simp only [backing, contents]

end PageKind

/-! ## Turns that get a page or miss it -/

/-- The slot of another page is not touched when a frame is handed out. -/
theorem Ledger.Acquires.slotImages
    {ledger held : Ledger} {owner : Owner} {frame slot : Nat} (acquires : ledger.Acquires owner frame held)
    (used : ledger.used slot = true) : held.slotImages slot = ledger.slotImages slot := by
  cases acquires with
  | free first => rfl
  | evicted full present resident unpinned tracks unloads =>
      cases unloads with
      | toSlot anonymous clear inside =>
          refine Function.update_of_ne ?_ ..
          rintro rfl
          rw [clear] at used
          cases used
      | toFile file => rfl

/-- A page that gets a frame is what its load makes of it. -/
theorem Ledger.Arrives.settles
    {ledger after : Ledger} {owner : Owner} {page : Page} {frame : Nat} {image : Image}
    (arrives : ledger.Arrives owner page frame image after) :
    after.pages owner = some { page with frame := some frame, kind := page.kind.settled } := by
  cases arrives with
  | plain without => exact Function.update_self ..
  | fromSlot isHeld same =>
      rw [isHeld]
      exact Function.update_self ..

namespace Pager

variable {before held saved after : Pager} {owner : Owner} {page : Page} {frame : Nat}

theorem Saves.readsAs (saves : before.Saves owner page frame saved) :
    saved.files.ReadsAs before.files := by
  cases saves with
  | toSlot => exact .refl before.files
  | toFile file =>
      rw [files_writeBack]
      split
      · exact before.files.readsAs_writeAt ..
      · exact .refl before.files

/-- The page that is evicted may be written to its file, which keeps no other page from being read. -/
theorem Acquires.readsAs (acquires : before.Acquires owner frame held) :
    held.files.ReadsAs before.files := by
  cases acquires with
  | free taken => exact .refl before.files
  | evicted full chosen present resident saves =>
      rw [← before.files_selected]
      exact saves.readsAs

/-- A frame is given back after a fetch that failed. -/
theorem Returns.fetches
    (returns : held.Returns owner frame after) (present : held.ledger.pages owner = some page) :
    ∃ fetched, page.kind.fetch held.swap held.files (held.frames.image frame) = fetched ∧
      fetched.kind = none ∧ after.swap = fetched.swap ∧ after.files = fetched.files := by
  cases returns with
  | intro found presentThen absent installed fetch incomplete =>
      cases present.symm.trans presentThen
      exact ⟨_, fetch, incomplete, swap_putFetched .., files_putFetched ..⟩

/-- A page is missed for something that it lacks. -/
theorem Turn.lacks (turn : Turn (.missed owner) before after) (sound : before.ledger.Sound none) :
    ∃ page, before.ledger.pages owner = some page ∧ page.frame = none ∧
      page.kind.Lacks before.files (after.swap.transfersSince before.swap) := by
  cases turn with
  | missed present absent acquires returns =>
      rename_i held page frame
      obtain ⟨journal, traffic⟩ := acquires.traffic sound
      obtain ⟨_, rfl, incomplete, swap, _⟩ :=
        returns.fetches ((acquires.moves sound).sound sound present absent).2
      have transfers := page.kind.transfers_fetch held.swap held.files (held.frames.image frame)
      rw [traffic.issued, ← List.append_assoc, ← swap] at transfers
      refine ⟨page, present, absent, (PageKind.lacks_of_fetch incomplete).mono acquires.readsAs ?_⟩
      intro transfer issued
      rw [SwapSpace.transfersSince_eq transfers, swap]
      exact List.mem_append_left _ issued

/-- A page that gets a frame is what its load makes of it, with the content of the store behind it. -/
theorem Turn.brings (turn : Turn (.claimed owner) before after) (sound : before.ledger.Sound none) :
    ∃ page frame, before.ledger.pages owner = some page ∧ page.frame = none ∧
      after.ledger.pages owner = some { page with frame := some frame, kind := page.kind.settled } ∧
      after.ledger.images frame = page.kind.backing before.swap after.files := by
  cases turn with
  | claimed present absent acquires arrives =>
      rename_i held page frame
      have moves := acquires.moves sound
      obtain ⟨flying, presentThen⟩ := moves.sound sound present absent
      obtain ⟨image, _, arrived, ⟨filled, complete⟩, _⟩ := arrives.moves flying presentThen
      obtain ⟨kind, complete⟩ := Option.isSome_iff_exists.mp complete
      refine ⟨page, frame, present, absent, arrived.settles, ?_⟩
      rw [arrived.image, ← filled, PageKind.fetch_image complete]
      refine PageKind.backing_congr (fun slot slotFound => ?_) arrives.content.symm
      have anonymous := PageKind.slot?_eq_some_iff.mp slotFound
      exact moves.slotImages (sound.slots.slot_of_page owner page slot present anonymous).1

/-- What is left of a claim that brought a page into a frame: the page is what its load makes of it, its
translation leads to the frame, and the frame shows the store that stands behind the page. -/
structure Brought (before after : Pager) (owner : Owner) (page : Page) (frame : Nat) : Prop where
  present : after.pageOf owner = some { page with frame := some frame, kind := page.kind.settled }
  translated : after.translationOf owner = some ⟨frameBase frame, page.writable⟩
  image : after.frames.image frame = page.kind.backing before.swap after.files

theorem Claimed.brings
    (claimed : before.Claimed owner after) (sound : before.ledger.Sound none)
    (present : before.ledger.pages owner = some page) (absent : page.frame = none) :
    ∃ frame, before.Brought after owner page frame := by
  cases claimed with
  | resident presentToo resident =>
      cases present.symm.trans presentToo
      cases absent.symm.trans resident
  | fetched _ _ turn =>
      obtain ⟨_, frame, presentToo, _, presentThen, image⟩ := turn.brings sound
      cases present.symm.trans presentToo
      have translated := (turn.sound sound).frames.translation_of_page _ _ frame presentThen rfl
      exact ⟨frame, presentThen, translated, image⟩

/-- Only for want of its content is a page not brought in that is there. -/
theorem ClaimFails.misses
    {error : PagingError} (fails : before.ClaimFails owner error after)
    (present : before.ledger.pages owner = some page) :
    error = .io owner.va ∧ Turn (.missed owner) before after := by
  cases fails with
  | absent gone => cases present.symm.trans (pages_of_absent gone owner.va)
  | vacant _ vacant => cases present.symm.trans vacant
  | missed turn => exact ⟨rfl, turn⟩

theorem ClaimFails.lacks
    {error : PagingError} (fails : before.ClaimFails owner error after) (sound : before.ledger.Sound none)
    (present : before.ledger.pages owner = some page) :
    error = .io owner.va ∧ page.kind.Lacks before.files (after.swap.transfersSince before.swap) := by
  obtain ⟨isIo, turn⟩ := fails.misses present
  obtain ⟨_, presentToo, _, lacks⟩ := turn.lacks sound
  cases present.symm.trans presentToo
  exact ⟨isIo, lacks⟩

/-- How the call ends that claims a page. -/
theorem ends_call_claim (ready : before.Ready) (pid : Pid) (va : Nat) :
    (Call.claim pid va).perform.Meets before
      ⟨fun answer after => answer = .done ∧ before.Claimed ⟨pid, pageBase va⟩ after,
        fun error after => before.ClaimFails ⟨pid, pageBase va⟩ error after,
        fun reason after => before.ledger.free = [] ∧ after.Exhausted before.config.frameCount reason⟩ :=
  (PagerM.meets_bind ..).mpr ((ends_claim ready pid va).mono (fun _ _ claimed => ⟨rfl, claimed⟩)
    (fun _ _ fails => fails) fun _ _ ⟨full, exhausted, _⟩ => ⟨full, exhausted⟩)

end Pager

end DemandPaging
