import DemandPaging.Proofs.Faulting

/-!
# Reading and writing user memory

An access is made chunk by chunk. What a read answers with is the content of the pages, and what a write
leaves behind is the content with the bytes put over it, however the pages moved meanwhile.
-/

namespace DemandPaging

/-! ## Chunks -/

theorem checkedSum_eq_some {left right sum : Nat} (isWord : checkedSum left right = some sum) :
    sum = left + right := by
  unfold checkedSum at isWord
  split at isWord
  · cases isWord
    rfl
  · cases isWord

theorem pageBase_add {address more : Nat} (within : pageOffset address + more < pageSize) :
    pageBase (address + more) = pageBase address ∧
      pageOffset (address + more) = pageOffset address + more := by
  simp only [pageBase, pageOffset, pageSize] at within ⊢
  omega

theorem chunkLength_le (address left : Nat) :
    chunkLength address left ≤ left ∧ pageOffset address + chunkLength address left ≤ pageSize := by
  have below := pageOffset_lt address
  simp only [chunkLength]
  omega

theorem touchedPages_eq_zero {address left : Nat} : touchedPages address left = 0 ↔ left = 0 := by
  rw [touchedPages]
  split
  · simp [*]
  · simp [*]

/-- The next chunk is one of the pages that are touched. -/
theorem touchedPages_chunk {address left : Nat} (remaining : left ≠ 0) :
    touchedPages address left =
      touchedPages (address + chunkLength address left) (left - chunkLength address left) + 1 := by
  have below := pageOffset_lt address
  rw [touchedPages, if_neg remaining, touchedPages, chunkLength]
  by_cases last : left ≤ pageSize - pageOffset address
  · rw [Nat.min_eq_right last, Nat.sub_self, if_pos rfl,
      Nat.div_eq_of_lt (by omega)]
  · have more : pageSize - pageOffset address ≤ left := by omega
    have next : pageOffset (address + (pageSize - pageOffset address)) = 0 := by
      simp only [pageOffset, pageSize] at *
      omega
    rw [Nat.min_eq_left more, if_neg (by omega), next]
    simp only [pageSize] at *
    omega

theorem frameBase_div {frame offset : Nat} (below : offset < pageSize) :
    (frameBase frame + offset) / pageSize = frame := by
  simp only [frameBase, pageSize] at *
  omega

theorem frameBase_mod {frame offset : Nat} (below : offset < pageSize) :
    (frameBase frame + offset) % pageSize = offset := by
  simp only [frameBase, pageSize] at *
  omega

theorem Image.getElem?_slice
    (image : Image) {start length index : Nat} (fits : start + length ≤ pageSize)
    (inside : index < length) :
    (image.slice start length)[index]? = image[start + index]? := by
  rw [Image.slice, Array.getElem?_extract, Vector.size_toArray, if_pos (by omega),
    Vector.getElem?_toArray]

/-- Bytes that were put over a page are there, and the others are what they were. -/
theorem Image.getElem?_overlay
    (image : Image) (start : Nat) (bytes : Array UInt8) {index : Nat} (inside : index < pageSize) :
    (image.overlay start bytes)[index]? =
      if start ≤ index ∧ index < start + bytes.size then bytes[index - start]? else image[index]? := by
  rw [Vector.getElem?_eq_getElem inside, getElem_overlay _ _ _ inside, Vector.getElem?_eq_getElem inside,
    Array.getD_eq_getD_getElem?]
  by_cases started : start ≤ index
  · rw [if_pos started]
    by_cases ended : index < start + bytes.size
    · rw [if_pos ⟨started, ended⟩, Array.getElem?_eq_getElem (by omega), Option.getD_some]
    · rw [if_neg fun within => ended within.2, Array.getElem?_eq_none (by omega), Option.getD_none]
  · rw [if_neg started, if_neg fun within => started within.1]

theorem Image.size_slice
    (image : Image) {start length : Nat} (fits : start + length ≤ pageSize) :
    (image.slice start length).size = length := by
  rw [Image.slice, Array.size_extract, Vector.size_toArray]
  omega

/-- A resident page of anonymous memory has its content in its frame. -/
theorem Ledger.Sound.content_of_resident
    {ledger : Ledger} {owner : Owner} {page : Page} {frame : Nat} (sound : ledger.Sound none)
    (present : ledger.pages owner = some page) (resident : page.frame = some frame) :
    ledger.content owner =
      if page.type = .anonymous then some (ledger.images frame) else none := by
  rw [Ledger.content_of_page present]
  rcases kind : page.kind with load | held | range
  · exact absurd kind (sound.not_pending present resident load)
  · cases held with
    | none => simp [Ledger.pageContent, Page.type, PageKind.type, kind, resident]
    | some slot =>
        have without := sound.slot?_eq_none present resident
        rw [kind] at without
        cases without
  · simp [Ledger.pageContent, Page.type, PageKind.type, kind]

/-- The page that starts at `base` with those of the bytes in it that are written to addresses from
`va` on, without the first ones. -/
def Image.writtenFrom (image : Image) (base va : Nat) (bytes : Array UInt8) (first : Nat) : Image :=
  Vector.ofFn fun offset =>
    if va + first ≤ base + offset.val then
      bytes.getD (base + offset.val - va) (image.get offset)
    else image.get offset

namespace Image

theorem getElem_writtenFrom
    (image : Image) (base va : Nat) (bytes : Array UInt8) (first : Nat) {offset : Nat}
    (inside : offset < pageSize) :
    (image.writtenFrom base va bytes first)[offset] =
      if va + first ≤ base + offset then bytes.getD (base + offset - va) image[offset]
      else image[offset] := by
  simp only [writtenFrom, Vector.getElem_ofFn]
  rfl

theorem writtenFrom_size (image : Image) (base va : Nat) (bytes : Array UInt8) :
    image.writtenFrom base va bytes bytes.size = image := by
  apply Vector.ext
  intro offset inside
  rw [getElem_writtenFrom _ _ _ _ _ inside]
  split
  · rw [Array.getD_eq_getD_getElem?, Array.getElem?_eq_none (by omega), Option.getD_none]
  · rfl

/-- The chunk that is stored in its page and the bytes behind it are the bytes from the chunk on. -/
theorem writtenFrom_overlay
    (image : Image) {va done count : Nat} {bytes : Array UInt8}
    (inside : done + count ≤ bytes.size) :
    (image.overlay (pageOffset (va + done)) (bytes.extract done (done + count))).writtenFrom
        (pageBase (va + done)) va bytes (done + count) =
      image.writtenFrom (pageBase (va + done)) va bytes done := by
  have split := pageBase_add_pageOffset (va + done)
  apply Vector.ext
  intro offset bound
  rw [getElem_writtenFrom _ _ _ _ _ bound, getElem_writtenFrom _ _ _ _ _ bound,
    getElem_overlay _ _ _ bound]
  by_cases before : offset < pageOffset (va + done)
  · rw [if_neg (by omega), if_neg (by omega), if_neg (by omega)]
  · have started : pageOffset (va + done) ≤ offset := by omega
    rw [if_pos started, if_pos (show va + done ≤ _ by omega)]
    by_cases within : offset < pageOffset (va + done) + count
    · have position : pageBase (va + done) + offset - va =
          done + (offset - pageOffset (va + done)) := by omega
      rw [if_neg (by omega), position, Array.getD_eq_getD_getElem?, Array.getD_eq_getD_getElem?,
        Array.getElem?_extract, if_pos (by omega)]
    · have outside : (bytes.extract done (done + count)).getD
          (offset - pageOffset (va + done)) image[offset] = image[offset] := by
        rw [Array.getD_eq_getD_getElem?,
          Array.getElem?_eq_none (by rw [Array.size_extract]; omega), Option.getD_none]
      rw [if_pos (by omega), outside]

/-- A chunk does not reach into another page. -/
theorem writtenFrom_elsewhere
    (image : Image) {base va done count : Nat} (bytes : Array UInt8)
    (aligned : pageBase base = base) (apart : base ≠ pageBase (va + done))
    (fits : pageOffset (va + done) + count ≤ pageSize) :
    image.writtenFrom base va bytes (done + count) = image.writtenFrom base va bytes done := by
  apply Vector.ext
  intro offset bound
  rw [getElem_writtenFrom _ _ _ _ _ bound, getElem_writtenFrom _ _ _ _ _ bound]
  by_cases started : va + done ≤ base + offset
  · have behind : va + (done + count) ≤ base + offset := by
      by_contra inChunk
      have start : pageOffset base = 0 := by
        have split := pageBase_add_pageOffset base
        omega
      obtain ⟨here, _⟩ := @pageBase_add base offset (by omega)
      obtain ⟨there, _⟩ := @pageBase_add (va + done) (base + offset - (va + done)) (by omega)
      rw [Nat.add_sub_cancel' started, here, aligned] at there
      exact apart there
    rw [if_pos started, if_pos behind]
  · rw [if_neg started, if_neg (by omega)]

end Image

/-- A byte is what the page of an address holds there in its frame. -/
def Ledger.Holds (ledger : Ledger) (pid : Pid) (address : Nat) (byte : Option UInt8) : Prop :=
  ∃ page frame, ledger.pages ⟨pid, pageBase address⟩ = some page ∧ page.frame = some frame ∧
    byte = (ledger.images frame)[pageOffset address]?

/-- A byte is what the page of an address holds there, if the page is anonymous memory. -/
def Ledger.Shows (ledger : Ledger) (pid : Pid) (address : Nat) (byte : Option UInt8) : Prop :=
  ∃ page, ledger.pages ⟨pid, pageBase address⟩ = some page ∧
    (page.type = .anonymous → ∃ image, ledger.content ⟨pid, pageBase address⟩ = some image ∧
      byte = image[pageOffset address]?)

namespace Pager

open PagerM

variable {before : Pager} {pid : Pid}

theorem meets_checkPhysical_of_grants
    {address count frame : Nat} {isWrite : Bool} (sound : before.ledger.Sound none)
    (grants : before.ledger.Grants ⟨pid, pageBase address⟩ isWrite frame)
    (fits : pageOffset address + count ≤ pageSize) (ending : Ending Unit) :
    (checkPhysical (frameBase frame + pageOffset address) count).Meets before ending ↔
      ending.answers ⟨⟩ before := by
  have below := pageOffset_lt address
  obtain ⟨page, present, resident, _⟩ := grants
  apply meets_checkPhysical
  · rw [frameBase_mod below]
    exact fits
  · rw [frameBase_div below]
    exact sound.lt_frameCount (sound.owner_of_page present resident)

/-! ## Reading -/

/-- The chunk that starts at an address is part of what its page holds. -/
theorem load_of_grants
    {address count frame : Nat} {isWrite : Bool}
    (grants : before.ledger.Grants ⟨pid, pageBase address⟩ isWrite frame)
    (fits : pageOffset address + count ≤ pageSize) :
    (before.frames.load (frameBase frame + pageOffset address) count).size = count ∧
      ∀ index, index < count → before.ledger.Holds pid (address + index)
        (before.frames.load (frameBase frame + pageOffset address) count)[index]? := by
  have below := pageOffset_lt address
  rw [FramePool.load, frameBase_div below, frameBase_mod below]
  refine ⟨Image.size_slice _ fits, fun index inside => ?_⟩
  obtain ⟨samePage, sameOffset⟩ :=
    pageBase_add (Nat.lt_of_lt_of_le (Nat.add_lt_add_left inside _) fits)
  obtain ⟨page, present, resident, _⟩ := grants
  rw [Ledger.Holds, samePage, sameOffset]
  exact ⟨page, frame, present, resident, Image.getElem?_slice _ fits inside⟩

/-- A byte was found in the frame of its page in the course of faults of its process. -/
def Seen (pid : Pid) (address : Nat) (byte : Option UInt8) (before after : Pager) : Prop :=
  ∃ middle, Runs (Deed.Faults pid) before middle ∧ middle.ledger.Holds pid address byte ∧
    Runs (Deed.Faults pid) middle after

theorem meets_readChunks
    (ready : before.Ready) {va length chunks done : Nat} {bytes : Array UInt8}
    (started : done ≤ length) (sized : bytes.size = done)
    (enough : chunks = touchedPages (va + done) (length - done)) :
    (readChunks pid va length chunks done bytes).Meets before
      (Proceeds (fun deed => deed.Serves pid ∧ deed.Extends before.config) before
        (fun result after => result.size = length ∧
          (∀ index, index < done → result[index]? = bytes[index]?) ∧
          ∀ index, done ≤ index → index < length →
            Seen pid (va + index) result[index]? before after)
        fun error after => after.Bars pid error) := by
  induction chunks generalizing before done bytes with
  | zero =>
      have finished := touchedPages_eq_zero.mp enough.symm
      exact answers_here ⟨by omega, fun _ _ => rfl, fun index _ _ => by omega⟩
  | succ chunks inductionHypothesis =>
      have remaining : length - done ≠ 0 := by
        rw [ne_eq, ← @touchedPages_eq_zero (va + done), ← enough]
        exact Nat.succ_ne_zero chunks
      rw [touchedPages_chunk remaining, Nat.add_right_cancel_iff] at enough
      obtain ⟨inLength, inPage⟩ := chunkLength_le (va + done) (length - done)
      rw [readChunks, chunkAddress]
      cases sum : checkedSum va done with
      | none => exact fails_here id (Or.inl rfl)
      | some address =>
          rw [checkedSum_eq_some sum]
          simp only [pure_bind]
          generalize chunkLength (va + done) (length - done) = count at *
          apply (meets_physicalAddress ready pid (va + done) false).andThen _ fun _ _ _ => id
          rintro _ middle reaches ⟨frame, ⟨grants, _⟩, rfl⟩
          have middleReady := reaches.ready ready
          have sound := middleReady.sound
          obtain ⟨size, chunk⟩ := load_of_grants grants inPage
          have faults := reaches.runs.mono fun _ permitted => permitted.1.faults
          rw [meets_bind, meets_checkPhysical_of_grants sound grants inPage]
          dsimp only
          rw [meets_bind, meets_get]
          dsimp only
          rw [← reaches.runs.config]
          generalize middle.frames.load _ count = read at size chunk ⊢
          apply (inductionHypothesis middleReady (by omega)
            (by rw [Array.size_append, sized, size])
            (by rw [← Nat.add_assoc, ← Nat.sub_sub]; exact enough)).weaken (fun _ => id)
          · rintro result after later ⟨whole, earlier, rest⟩
            refine ⟨whole, fun index before => ?_, fun index start inside => ?_⟩
            · rw [earlier index (by omega), Array.getElem?_append_left (by omega)]
            · by_cases here : index < done + count
              · have position : va + done + (index - done) = va + index := by omega
                have held := chunk (index - done) (by omega)
                rw [position] at held
                rw [earlier index here, Array.getElem?_append_right (by omega), sized]
                exact ⟨middle, faults, held, later.runs.mono fun _ permitted => permitted.1.faults⟩
              · obtain ⟨there, further, held, onward⟩ := rest index (by omega) inside
                exact ⟨there, faults.trans further, held, onward⟩
          · exact fun _ _ _ => id

/-- A read answers with what the pages held when it came to them. -/
theorem meets_readUser (ready : before.Ready) (pid : Pid) (va length : Nat) :
    (readUser pid va length).Meets before
      (Proceeds (fun deed => (deed.Serves pid ∧ deed.Extends before.config) ∨ deed.Ends pid) before
        (fun result after =>
          Reaches (fun deed => deed.Serves pid ∧ deed.Extends before.config) before after ∧
            result.size = length ∧
              ∀ index, index < length → Seen pid (va + index) result[index]? before after)
        fun error after => ∃ middle,
          Reaches (fun deed => deed.Serves pid ∧ deed.Extends before.config) before middle ∧
            Killed pid error middle after) := by
  apply proceeds_killOnFatal ready
  apply (meets_readChunks ready (Nat.zero_le length) rfl rfl).weaken (fun _ => id)
  · rintro result after _ ⟨whole, _, rest⟩
    exact ⟨whole, fun index => rest index (Nat.zero_le index)⟩
  · exact fun _ _ _ => id

/-- What memory shows stays as long as nobody stores anything there. -/
theorem Runs.shows
    {allowed : Deed → Prop} {after : Pager} {address : Nat} {byte : Option UInt8}
    (runs : Runs allowed before after) (sound : before.ledger.Sound none)
    (kept : ∀ page, ¬ allowed (.discarded ⟨pid, pageBase address⟩ page))
    (unaltered : ∀ deed, allowed deed → ¬ deed.Alters ⟨pid, pageBase address⟩)
    (shows : before.ledger.Shows pid address byte) : after.ledger.Shows pid address byte := by
  obtain ⟨page, present, content⟩ := shows
  obtain ⟨new, presentThen, continues⟩ := runs.continues sound present fun new _ => kept new
  refine ⟨new, presentThen, fun anonymous => ?_⟩
  rw [continues.type] at anonymous
  obtain ⟨image, content, same⟩ := content anonymous
  have initialized (load : LazyLoad) : page.kind ≠ .pending load := by
    intro pending
    rw [Ledger.content_of_page present, Ledger.pageContent_of_pending pending] at content
    cases content
  have still := runs.content_kept sound present initialized (fun new _ => kept new) unaltered
  exact ⟨image, still.trans content, same⟩

/-- What was seen of anonymous memory it still shows. -/
theorem Seen.shows
    {after : Pager} {address : Nat} {byte : Option UInt8} (seen : Seen pid address byte before after)
    (sound : before.ledger.Sound none) : after.ledger.Shows pid address byte := by
  obtain ⟨middle, faults, ⟨page, frame, present, resident, same⟩, later⟩ := seen
  have middleSound := faults.sound sound
  apply later.shows middleSound (fun _ => id) fun _ faults => faults.uses.not_alters _
  refine ⟨page, present, fun anonymous => ⟨_, ?_, same⟩⟩
  rw [middleSound.content_of_resident present resident, if_pos anonymous]

/-! ## Writing -/

/-- A chunk is stored in the content of its page and nowhere else. -/
theorem store_of_grants
    {address frame : Nat} (sound : before.ledger.Sound none)
    (resolved : before.Resolved pid address true frame) (bytes : Array UInt8) :
    ∃ after, after = (before.modifyFrames fun frames =>
        frames.store (frameBase frame + pageOffset address) bytes) ∧
      Turn (.stored ⟨pid, pageBase address⟩) before after ∧ after.journal = before.journal ∧
      (∀ owner, owner ≠ ⟨pid, pageBase address⟩ →
        after.ledger.content owner = before.ledger.content owner) ∧
      after.ledger.content ⟨pid, pageBase address⟩ =
        (before.ledger.content ⟨pid, pageBase address⟩).map fun image =>
          image.overlay (pageOffset address) bytes := by
  have below := pageOffset_lt address
  obtain ⟨⟨page, present, resident, _⟩, marked⟩ := resolved
  have turn : Turn (.stored ⟨pid, pageBase address⟩) before (before.modifyFrames fun frames =>
      frames.store (frameBase frame + pageOffset address) bytes) :=
    .stored present (by rw [frameBase_div below]; exact resident) (marked rfl) bytes
  have shown := @ledger_store before (frameBase frame + pageOffset address)
    (by rw [frameBase_div below]; exact sound.lt_frameCount (sound.owner_of_page present resident))
    bytes
  refine ⟨_, rfl, turn, rfl, fun owner apart => ?_, ?_⟩
  · apply (turn.step sound).content_untouched sound
    simpa [Deed.Touches, Deed.Alters, eq_comm] using apart
  · have after := turn.sound sound
    rw [shown] at after ⊢
    rw [frameBase_div below, frameBase_mod below] at after ⊢
    have presentThen : (before.ledger.setImage frame ((before.ledger.images frame).overlay
        (pageOffset address) bytes)).pages ⟨pid, pageBase address⟩ = some page := present
    rw [after.content_of_resident presentThen resident, sound.content_of_resident present resident]
    split
    · simp [Ledger.setImage]
    · rfl

/-- The contents of a process are what they would be without a write, with the bytes from index `first`
on put over them. -/
structure Written (journal : List Activity) (pid : Pid) (va : Nat) (bytes : Array UInt8) (first : Nat)
    (before after : Pager) : Prop where
  accounts : Accounts journal (Deed.Writes pid) before after
  content : ∀ base, after.ledger.content ⟨pid, base⟩ =
    (Activity.replay journal ⟨pid, base⟩ (before.ledger.content ⟨pid, base⟩)).map fun image =>
      image.writtenFrom base va bytes first

/-- A page that is not anonymous memory goes on without a content. -/
theorem Runs.content_eq_none
    {allowed : Deed → Prop} {after : Pager} {owner : Owner} {page : Page} {frame : Nat}
    (runs : Runs allowed before after) (sound : before.ledger.Sound none)
    (present : before.ledger.pages owner = some page) (resident : page.frame = some frame)
    (kept : ∀ page, ¬ allowed (.discarded owner page)) (none : before.ledger.content owner = none) :
    after.ledger.content owner = Option.none := by
  rw [sound.content_of_resident present resident] at none
  split at none
  · cases none
  · rename_i other
    obtain ⟨new, presentThen, continues⟩ := runs.continues sound present fun new _ => kept new
    rw [Ledger.content_of_page presentThen]
    rw [← continues.type] at other
    rcases kind : new.kind with load | held | range
    · exact Ledger.pageContent_of_pending kind
    · exact absurd (by simp [Page.type, PageKind.type, kind]) other
    · exact Ledger.pageContent_of_file kind

/-- A chunk is stored after pages moved and before the rest is written. -/
theorem Written.cons
    {middle stored after : Pager} {earlier later : List Activity} {va done count : Nat}
    {bytes : Array UInt8} {frame : Nat} (sound : middle.ledger.Sound none)
    (grants : middle.ledger.Grants ⟨pid, pageBase (va + done)⟩ true frame)
    (fits : pageOffset (va + done) + count ≤ pageSize) (inside : done + count ≤ bytes.size)
    (moved : Accounts earlier (Deed.Faults pid) before middle)
    (stores : Accounts [] (Deed.Writes pid) middle stored)
    (elsewhere : ∀ owner, owner ≠ ⟨pid, pageBase (va + done)⟩ →
      stored.ledger.content owner = middle.ledger.content owner)
    (here : stored.ledger.content ⟨pid, pageBase (va + done)⟩ =
      (middle.ledger.content ⟨pid, pageBase (va + done)⟩).map fun image =>
        image.overlay (pageOffset (va + done)) (bytes.extract done (done + count)))
    (runs : Runs (Deed.Writes pid) middle after)
    (rest : Written later pid va bytes (done + count) stored after) :
    Written (later ++ earlier) pid va bytes done before after := by
  have accounts : Accounts (later ++ [] ++ earlier) (Deed.Writes pid) before after := by
    have first := moved.mono fun _ => Deed.Faults.writes
    rw [List.append_assoc]
    exact (first.trans stores).trans rest.accounts
  rw [List.append_nil] at accounts
  refine ⟨accounts, fun base => ?_⟩
  rw [Activity.replay_append,
    ← moved.content ⟨pid, base⟩ fun _ faults => faults.uses.not_alters _, rest.content base]
  by_cases same : base = pageBase (va + done)
  · subst same
    rw [here]
    cases content : middle.ledger.content ⟨pid, pageBase (va + done)⟩ with
    | some image =>
        rw [Option.map_some, rest.accounts.kept _ _ fun _ => id, rest.accounts.kept _ _ fun _ => id,
          Option.map_some, Option.map_some, Image.writtenFrom_overlay _ inside]
    | none =>
        obtain ⟨page, present, resident, _⟩ := grants
        have gone := runs.content_eq_none sound present resident (fun _ => id) content
        rw [content, Option.map_none] at here
        have forgotten := rest.accounts.replay_eq_none gone
        rw [here] at forgotten
        simp only [Option.map_none, forgotten]
  · have unmoved := elsewhere ⟨pid, base⟩ (by simpa using same)
    have told := rest.content base
    rw [unmoved] at told ⊢
    cases remembered : Activity.replay later ⟨pid, base⟩
        (middle.ledger.content ⟨pid, base⟩) with
    | none => simp only [Option.map_none]
    | some image =>
        rw [remembered, Option.map_some] at told
        have aligned : pageBase base = base := by
          obtain ⟨page, present, _⟩ := Option.bind_eq_some_iff.mp told
          exact ((runs.sound sound).placed _ page present).aligned
        rw [Option.map_some, Option.map_some,
          Image.writtenFrom_elsewhere image bytes aligned same fits]

/-- The bytes of a write from one index on up to another are stored chunk by chunk, each after faults by
which its page may be written, and more faults may follow. -/
inductive Stores (pid : Pid) (va : Nat) (bytes : Array UInt8) : Nat → Nat → Pager → Pager → Prop
  | rest {done : Nat} {before after : Pager} (faults : Reaches (Deed.Faults pid) before after) :
      Stores pid va bytes done done before after
  | chunk {done count stop frame : Nat} {before middle after : Pager}
      (faults : Reaches (Deed.Faults pid) before middle)
      (resolved : middle.Resolved pid (va + done) true frame)
      (fits : pageOffset (va + done) + count ≤ pageSize) (inside : done + count ≤ bytes.size)
      (later : Stores pid va bytes (done + count) stop
        (middle.modifyFrames fun frames => frames.store (frameBase frame + pageOffset (va + done))
          (bytes.extract done (done + count))) after) :
      Stores pid va bytes done stop before after

/-- Storing bytes is writing the memory of the process. -/
theorem Stores.writes
    {va done stop : Nat} {bytes : Array UInt8} {after : Pager}
    (stores : Stores pid va bytes done stop before after) (sound : before.ledger.Sound none) :
    Reaches (Deed.Writes pid) before after := by
  induction stores with
  | rest faults => exact faults.mono fun _ => Deed.Faults.writes
  | chunk faults resolved fits inside later inductionHypothesis =>
      have middleSound := faults.runs.sound sound
      obtain ⟨_, same, turn, _⟩ := store_of_grants middleSound resolved (bytes.extract _ _)
      subst same
      have stored : Reaches (Deed.Writes pid) _ _ := .turn turn middleSound rfl (by simp)
      exact (faults.mono fun _ => Deed.Faults.writes).trans
        (stored.trans (inductionHypothesis (stored.runs.sound middleSound)))

/-- When all bytes are stored they are written. -/
theorem Stores.written
    {va done : Nat} {bytes : Array UInt8} {after : Pager}
    (stores : Stores pid va bytes done bytes.size before after) (sound : before.ledger.Sound none) :
    ∃ journal, Written journal pid va bytes done before after := by
  generalize whole : bytes.size = stop at stores
  induction stores with
  | rest faults =>
      subst whole
      obtain ⟨journal, accounts⟩ := faults.runs.accounts sound
      refine ⟨journal, accounts.mono fun _ => Deed.Faults.writes, fun base => ?_⟩
      simp only [Image.writtenFrom_size, Option.map_id']
      exact accounts.content _ fun _ faults => faults.uses.not_alters _
  | chunk faults resolved fits inside later inductionHypothesis =>
      have middleSound := faults.runs.sound sound
      obtain ⟨_, same, turn, noted, elsewhere, here⟩ :=
        store_of_grants middleSound resolved (bytes.extract _ _)
      subst same
      have stored : Reaches (Deed.Writes pid) _ _ := .turn turn middleSound rfl (by simp)
      have storedSound := stored.runs.sound middleSound
      obtain ⟨journal, rest⟩ := inductionHypothesis storedSound whole
      obtain ⟨earlier, moved⟩ := faults.runs.accounts sound
      obtain ⟨between, accounts⟩ := stored.runs.accounts middleSound
      have unnoted : between = [] := by
        have journal := accounts.noted
        rw [noted] at journal
        exact List.self_eq_append_left.mp journal
      subst unnoted
      exact ⟨journal ++ earlier, .cons middleSound resolved.grants fits inside moved accounts
        elsewhere here (stored.runs.trans (later.writes storedSound).runs) rest⟩

theorem meets_writeChunks
    (ready : before.Ready) {va chunks done : Nat} {bytes : Array UInt8}
    (started : done ≤ bytes.size)
    (enough : chunks = touchedPages (va + done) (bytes.size - done)) :
    (writeChunks pid va bytes chunks done).Meets before
      (Proceeds (fun deed => deed.Amends pid ∧ deed.Extends before.config) before
        (fun _ after => Stores pid va bytes done bytes.size before after)
        fun error after => after.Bars pid error ∧
          ∃ stop, Stores pid va bytes done stop before after) := by
  induction chunks generalizing before done with
  | zero =>
      have finished : done = bytes.size := by
        have finished := touchedPages_eq_zero.mp enough.symm
        omega
      subst finished
      exact answers_here (.rest (.refl before))
  | succ chunks inductionHypothesis =>
      have remaining : bytes.size - done ≠ 0 := by
        rw [ne_eq, ← @touchedPages_eq_zero (va + done), ← enough]
        exact Nat.succ_ne_zero chunks
      rw [touchedPages_chunk remaining, Nat.add_right_cancel_iff] at enough
      obtain ⟨inBytes, inPage⟩ := chunkLength_le (va + done) (bytes.size - done)
      rw [writeChunks, chunkAddress]
      cases sum : checkedSum va done with
      | none => exact fails_here id ⟨Or.inl rfl, done, .rest (.refl before)⟩
      | some address =>
          rw [checkedSum_eq_some sum]
          simp only [pure_bind]
          generalize chunkLength (va + done) (bytes.size - done) = count at *
          apply ((meets_physicalAddress ready pid (va + done) true).weaken
            (fun _ => And.imp_left Deed.Serves.amends)
              (fun _ _ serves => And.intro (serves.mono fun _ permitted => permitted.1.faults))
                fun _ _ serves => And.intro (serves.mono fun _ permitted => permitted.1.faults)).andThen _
              fun _ _ _ ⟨faults, bars⟩ => ⟨bars, done, .rest faults⟩
          rintro _ middle reaches ⟨faults, frame, resolved, rfl⟩
          have middleReady := reaches.ready ready
          have sound := middleReady.sound
          rw [meets_bind, meets_checkPhysical_of_grants sound resolved.grants inPage]
          obtain ⟨_, same, turn, _⟩ :=
            store_of_grants sound resolved (bytes.extract done (done + count))
          subst same
          have stored : Reaches (fun deed => deed.Amends pid ∧ deed.Extends before.config) middle _ :=
            .turn turn sound ⟨rfl, trivial⟩ (by simp)
          apply Meets.afterChange stored
          rw [← reaches.runs.config]
          apply (inductionHypothesis (stored.ready middleReady) (by omega)
            (by rw [← Nat.add_assoc, ← Nat.sub_sub]; exact enough)).weaken (fun _ => id)
          · exact fun _ after _ later => .chunk faults resolved inPage (by omega) later
          · exact fun _ after _ ⟨bars, stop, later⟩ =>
              ⟨bars, stop, .chunk faults resolved inPage (by omega) later⟩

/-- A write stores its bytes, or the process ends when some of them are stored. -/
theorem meets_writeUser (ready : before.Ready) (pid : Pid) (va : Nat) (bytes : Array UInt8) :
    (writeUser pid va bytes).Meets before
      (Proceeds (fun deed => (deed.Amends pid ∧ deed.Extends before.config) ∨ deed.Ends pid) before
        (fun _ after => Reaches (fun deed => deed.Amends pid ∧ deed.Extends before.config) before after ∧
          Stores pid va bytes 0 bytes.size before after)
        fun error after => ∃ middle,
          Reaches (fun deed => deed.Amends pid ∧ deed.Extends before.config) before middle ∧
            (∃ stop, Stores pid va bytes 0 stop before middle) ∧ Killed pid error middle after) :=
  meets_killOnFatal ready (meets_writeChunks ready (Nat.zero_le bytes.size) rfl)

end Pager

end DemandPaging
