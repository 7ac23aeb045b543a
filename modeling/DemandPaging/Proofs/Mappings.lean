import DemandPaging.Proofs.Coherence

/-!
# Mappings of files

A mapping promises at each position of its region the byte that its process last wrote there, or else the
byte that the file had when it was mapped, and zeros behind the part that the file backs. Each page of the
region keeps its part of the promise, as long as no other page may write the backed bytes and the pages are
not discarded.
-/

namespace DemandPaging

/-- A file that was mapped by a process, with the bytes it had then. -/
structure Mapping where
  pid : Pid
  base : Nat
  length : Nat
  writable : Bool
  file : FileId
  offset : Nat
  content : Array UInt8

namespace Mapping

/-- The call by which the file was mapped. -/
def call (mapping : Mapping) : Call :=
  .map mapping.pid mapping.base mapping.length mapping.writable mapping.file mapping.offset

def region (mapping : Mapping) : Region :=
  ⟨mapping.base, roundedLength mapping.length, mapping.file, mapping.offset⟩

/-- The number of bytes that the file backs: those below the requested length and the end of the file. -/
def backed (mapping : Mapping) : Nat :=
  min mapping.length (mapping.content.size - mapping.offset)

/-- The page of the region with an index. -/
def page (mapping : Mapping) (index : Nat) : MappedPage where
  owner := ⟨mapping.pid, mapping.base + index * pageSize⟩
  first := mapping.region.page mapping.length mapping.content.size mapping.writable index
  range :=
    { file := mapping.file
      offset := mapping.offset + index * pageSize
      length := min pageSize
        (min (mapping.length - index * pageSize)
          (mapping.content.size - (mapping.offset + index * pageSize))) }
  mapped := rfl

/-- Whether a page lies in the region. -/
def Contains (mapping : Mapping) (owner : Owner) : Prop :=
  owner.pid = mapping.pid ∧ mapping.base ≤ owner.va ∧
    owner.va < mapping.base + mapping.region.length

/-- Whether no page outside the region may write the bytes of the file that back it. -/
def Alone (mapping : Mapping) (pager : Pager) : Prop :=
  ∀ owner page range index, pager.pageOf owner = some page → page.kind.mapped? = some range →
    page.writable = true → range.Covers mapping.file index → mapping.offset ≤ index →
      index < mapping.offset + mapping.backed → mapping.Contains owner

/-- The byte that is promised at a position of the region, given what was last written at addresses. -/
def promised (mapping : Mapping) (written : Nat → Option UInt8) (position : Nat) : Option UInt8 :=
  if position < mapping.backed then
    (written (mapping.base + position)).or mapping.content[mapping.offset + position]?
  else if (written (mapping.base + position)).isNone then some 0
  else none

variable {mapping : Mapping} {written : Nat → Option UInt8} {index offset position : Nat}
  {owner : Owner} {file : FileId}

/-! ## Positions and pages -/

theorem lt_backed_iff (inside : offset < pageSize) :
    offset < (mapping.page index).range.length ↔ index * pageSize + offset < mapping.backed := by
  simp only [page, backed, pageSize] at *
  omega

theorem owner_page_zero : (mapping.page 0).owner = ⟨mapping.pid, mapping.base⟩ := by
  simp [page]

theorem length_page_le : (mapping.page index).range.length ≤ pageSize :=
  Nat.min_le_left ..

theorem promised_behind
    {byte : UInt8} (behind : (mapping.page index).range.length ≤ offset) (inside : offset < pageSize)
    (promises : mapping.promised written (index * pageSize + offset) = some byte) : byte = 0 := by
  have beyond : ¬ index * pageSize + offset < mapping.backed := by
    rw [← lt_backed_iff inside]
    omega
  rw [promised, if_neg beyond] at promises
  split at promises
  · exact (Option.some.inj promises).symm
  · cases promises

/-- What is promised at a position depends on what was written there. -/
theorem promised_congr
    {other : Nat → Option UInt8}
    (same : written (mapping.base + position) = other (mapping.base + position)) :
    mapping.promised written position = mapping.promised other position := by
  rw [promised, promised, same]

/-- Of a byte that was written nothing else is promised. -/
theorem eq_of_promised
    {old byte : UInt8} (wrote : written (mapping.base + position) = some old)
    (promises : mapping.promised written position = some byte) : old = byte := by
  rw [promised, wrote] at promises
  split at promises
  · exact Option.some.inj promises
  · cases promises

/-- What a page of the region may write backs the region. -/
theorem backed_of_covers (covers : (mapping.page index).range.Covers file position) :
    mapping.file = file ∧ mapping.offset ≤ position ∧
      position < mapping.offset + mapping.backed := by
  obtain ⟨same, above, below⟩ := covers
  refine ⟨same, ?_⟩
  simp only [page, backed, pageSize] at above below ⊢
  omega

/-- Different pages of the region are backed by different bytes. -/
theorem apart_pages {other : Nat} (apart : index ≠ other) :
    (mapping.page index).range.Apart (mapping.page other).range := by
  rintro file position ⟨_, above, below⟩ ⟨_, aboveToo, belowToo⟩
  simp only [page, pageSize] at *
  omega

theorem contains_page (inside : index < mapping.region.pageCount) :
    mapping.Contains (mapping.page index).owner := by
  refine ⟨rfl, Nat.le_add_right .., Nat.add_lt_add_left ?_ _⟩
  exact Nat.lt_of_lt_of_le (Nat.mul_lt_mul_of_pos_right inside (by decide)) (Nat.div_mul_le_self ..)

/-- The page of an address in the region is one of its pages. -/
theorem page_of_position
    (aligned : pageAligned mapping.base = true) (inside : position < mapping.region.length) :
    position / pageSize < mapping.region.pageCount ∧
      (mapping.page (position / pageSize)).owner =
        ⟨mapping.pid, pageBase (mapping.base + position)⟩ ∧
      pageOffset (mapping.base + position) = position % pageSize := by
  simp only [pageAligned, pageOffset, beq_iff_eq] at aligned
  simp only [page, region, Region.pageCount, roundedLength, pageBase, pageOffset, pageSize,
    Owner.mk.injEq, true_and] at *
  omega

theorem page_of_contains
    (aligned : pageAligned mapping.base = true) (contains : mapping.Contains owner)
    (ownerAligned : pageBase owner.va = owner.va) :
    ∃ index < mapping.region.pageCount, owner = (mapping.page index).owner := by
  obtain ⟨samePid, above, below⟩ := contains
  obtain ⟨inside, same, _⟩ := @page_of_position mapping (owner.va - mapping.base) aligned (by omega)
  refine ⟨_, inside, ?_⟩
  rw [same, Nat.add_sub_cancel' above, ownerAligned, ← samePid]

/-! ## Deeds that spare a mapping -/

/-- Whether a deed leaves the record of the mapping and the pages of its region alone. -/
def IsSparedBy (mapping : Mapping) : Deed → Prop
  | .discarded owner page =>
      (∃ index < mapping.region.pageCount, owner = (mapping.page index).owner) →
        page.region ≠ some mapping.base
  | .stored owner | .copied owner => owner.pid ≠ mapping.pid
  | .removed pid => pid ≠ mapping.pid
  | .relaid pid reach => pid = mapping.pid → ¬ reach.Includes mapping.base
  | _ => True

theorem IsSparedBy.not_alters {deed : Deed} (spared : mapping.IsSparedBy deed) (index : Nat) :
    ¬ deed.Alters (mapping.page index).owner := by
  rintro (rfl | rfl) <;> exact spared rfl

theorem spared_of_faults {deed : Deed} {pid : Pid} (faults : deed.Faults pid) :
    mapping.IsSparedBy deed := by
  cases deed <;> first | exact trivial | exact absurd faults id

theorem spared_of_lays {deed : Deed} {pid : Pid} {laid : Page → Prop} (lays : deed.Lays pid laid) :
    mapping.IsSparedBy deed := by
  cases deed <;> first | exact trivial | exact absurd lays id

/-- The end of another process spares the mapping. -/
theorem spared_of_ends
    {deed : Deed} {pid : Pid} (ends : deed.Ends pid) (other : pid ≠ mapping.pid) :
    mapping.IsSparedBy deed := by
  cases deed with
  | discarded owner page =>
      rintro ⟨index, _, rfl⟩
      exact absurd ends.symm other
  | removed removed => exact ends ▸ other
  | closed => trivial
  | _ => exact absurd ends id

end Mapping

/-! ## Held mappings -/

/-- A mapping is recorded, its pages are there, and each keeps its part of the promise. -/
structure Mapping.Held (mapping : Mapping) (written : Nat → Option UInt8) (pager : Pager) : Prop where
  occupied : 0 < mapping.region.pageCount
  aligned : pageAligned mapping.base = true
  recorded : pager.region? mapping.pid mapping.base = some mapping.region
  present : ∀ {index}, index < mapping.region.pageCount →
    ∃ page, pager.ledger.pages (mapping.page index).owner = some page
  keeps : ∀ {index}, index < mapping.region.pageCount →
    pager.Keeps (mapping.page index) fun offset => mapping.promised written (index * pageSize + offset)

/-- The bytes of a write from one index on up to another, over what was written before. -/
def put (written : Nat → Option UInt8) (va : Nat) (bytes : Array UInt8) (first stop address : Nat) :
    Option UInt8 :=
  (if va + first ≤ address ∧ address < va + stop then bytes[address - va]? else none).or
    (written address)

namespace Mapping.Held

open Pager

variable {mapping : Mapping} {written : Nat → Option UInt8} {before middle after : Pager}
  {allowed : Deed → Prop} {call : Call}

/-- A page of the region that is backed by a file is backed as the mapping has it. -/
theorem range_of_contains
    {owner : Owner} {page : Page} {range : FileRange} (held : mapping.Held written before)
    (sound : before.ledger.Sound none) (present : before.ledger.pages owner = some page)
    (mapped : page.kind.mapped? = some range) (contains : mapping.Contains owner) :
    ∃ index, owner = (mapping.page index).owner ∧ range = (mapping.page index).range := by
  obtain ⟨index, inside, rfl⟩ :=
    page_of_contains held.aligned contains (sound.placed _ page present).aligned
  refine ⟨index, rfl, Option.some.inj ?_⟩
  rw [← mapped, ((held.keeps inside).alike present).mapped]
  exact (mapping.page index).mapped

/-- No page in a frame during a call reaches the range of a page of the region but the page itself. -/
theorem spares
    (held : mapping.Held written before) (sound : before.ledger.Sound none)
    (alone : mapping.Alone before)
    (unforked : ∀ parent child, call = .fork parent child → parent ≠ mapping.pid)
    (runs : Runs (call.Permits before) before middle) (index : Nat) :
    middle.Spares (mapping.page index) := by
  intro owner page range frame loaded writable apart file position covers own
  obtain ⟨sameFile, above, below⟩ := backed_of_covers own
  subst sameFile
  obtain ⟨source, old, present, alike, origin⟩ := runs.origin_of_loaded sound loaded writable
  have mapped : old.kind.mapped? = some range := by
    rw [← alike.mapped, loaded.file]
    rfl
  have contains := alone source old range position present mapped
    (alike.writable.symm.trans writable) covers above below
  rcases origin with rfl | ⟨parent, forks, rfl⟩
  · obtain ⟨other, rfl, rfl⟩ := held.range_of_contains sound present mapped contains
    exact apart_pages (fun same => apart (by rw [same])) _ _ covers own
  · exact unforked parent owner.pid forks contains.1

/-- Deeds that spare a mapping keep it. -/
theorem of_runs
    (held : mapping.Held written before) (runs : Runs allowed before after)
    (sound : before.ledger.Sound none) (tidy : before.Tidy)
    (spared : ∀ deed, allowed deed → mapping.IsSparedBy deed)
    (spares : ∀ {middle}, Runs allowed before middle → ∀ index, middle.Spares (mapping.page index))
    (saves : SavesAll mapping.file before after) : mapping.Held written after := by
  have stays {middle : Pager} (runs : Runs allowed before middle) {index : Nat}
      (inside : index < mapping.region.pageCount) :
      ∃ page, middle.ledger.pages (mapping.page index).owner = some page := by
    obtain ⟨page, present⟩ := held.present inside
    obtain ⟨new, presentThen, _⟩ := runs.continues sound present fun other continues permitted => by
      have alike := continues.toAlike.trans ((held.keeps inside).alike present)
      exact spared _ permitted ⟨index, inside, rfl⟩ alike.region
    exact ⟨new, presentThen⟩
  refine ⟨held.occupied, held.aligned, ?_, fun inside => stays runs inside,
    fun {index} inside => ?_⟩
  · exact (runs.region? (fun removed => spared _ removed rfl)
      fun reach relaid => spared _ relaid rfl).trans held.recorded
  · apply runs.keeps sound tidy (held.keeps inside) saves (fun runs => spares runs index)
    · intro middle runs
      obtain ⟨page, present⟩ := stays runs inside
      exact Or.inl (by rw [present]; exact nofun)
    · exact fun deed permitted => (spared deed permitted).not_alters index

/-- In the page of a chunk the bytes of the chunk are put over what was written. -/
theorem put_of_chunk
    {va done count offset : Nat} {bytes : Array UInt8} (inside : done + count ≤ bytes.size) :
    put written va bytes done (done + count) (pageBase (va + done) + offset) =
      if pageOffset (va + done) ≤ offset ∧ offset < pageOffset (va + done) + count then
        (bytes.extract done (done + count))[offset - pageOffset (va + done)]?
      else written (pageBase (va + done) + offset) := by
  have split := pageBase_add_pageOffset (va + done)
  rw [put]
  by_cases inChunk : pageOffset (va + done) ≤ offset ∧ offset < pageOffset (va + done) + count
  · have bound : done + (offset - pageOffset (va + done)) < bytes.size := by omega
    have position : pageBase (va + done) + offset - va =
        done + (offset - pageOffset (va + done)) := by omega
    rw [if_pos inChunk, if_pos (by omega), position, Array.getElem?_extract, if_pos (by omega),
      Array.getElem?_eq_getElem bound, Option.some_or]
  · rw [if_neg inChunk, if_neg (by omega), Option.none_or]

/-- In another page nothing is put. -/
theorem put_of_apart
    {va done count start offset : Nat} {bytes : Array UInt8} (aligned : pageBase start = start)
    (apart : start ≠ pageBase (va + done)) (inPage : offset < pageSize)
    (fits : pageOffset (va + done) + count ≤ pageSize) :
    put written va bytes done (done + count) (start + offset) = written (start + offset) := by
  rw [put, if_neg, Option.none_or]
  intro inChunk
  simp only [pageBase, pageOffset, pageSize] at *
  omega

/-- A chunk that is stored is promised from then on. -/
theorem store
    {va done count frame : Nat} {bytes : Array UInt8} (held : mapping.Held written before)
    (sound : before.ledger.Sound none) (tidy : before.Tidy)
    (resolved : before.Resolved mapping.pid (va + done) true frame)
    (fits : pageOffset (va + done) + count ≤ pageSize) (inside : done + count ≤ bytes.size)
    (spares : ∀ index, before.Spares (mapping.page index)) :
    mapping.Held (put written va bytes done (done + count))
      (before.modifyFrames fun frames => frames.store (frameBase frame + pageOffset (va + done))
        (bytes.extract done (done + count))) := by
  obtain ⟨_, same, turn, noted, _⟩ := store_of_grants sound resolved (bytes.extract done (done + count))
  subst same
  have size : (bytes.extract done (done + count)).size = count := by
    rw [Array.size_extract]
    omega
  refine ⟨held.occupied, held.aligned, held.recorded, fun within => ?_, fun {index} within => ?_⟩
  · obtain ⟨page, present⟩ := held.present within
    exact ⟨page, (turn.step sound).unmoved present (by simp) (by simp)⟩
  · by_cases here : (mapping.page index).owner = ⟨mapping.pid, pageBase (va + done)⟩
    · have base : mapping.base + index * pageSize = pageBase (va + done) := congrArg Owner.va here
      apply (held.keeps within).store sound resolved here
      · intro offset byte inPage promises
        have written := @put_of_chunk written va done count offset bytes inside
        rw [← base, Nat.add_assoc] at written
        rw [size]
        split at written
        · rename_i inChunk
          have bound : offset - pageOffset (va + done) < (bytes.extract done (done + count)).size := by
            omega
          rw [Array.getElem?_eq_getElem bound] at written
          rw [if_pos inChunk, Array.getElem?_eq_getElem bound, eq_of_promised written promises]
        · rename_i outside
          rw [if_neg outside, ← promised_congr written]
          exact promises
      · exact fun offset byte outside inPage promises => promised_behind outside inPage promises
    · have saves : SavesAll mapping.file before _ := fun later same owner range _ member => by
        rw [List.self_eq_append_left.mp (noted.symm.trans same)] at member
        cases member
      have apart : mapping.base + index * pageSize ≠ pageBase (va + done) := fun same =>
        here (congrArg (Owner.mk mapping.pid) same)
      have aligned : pageBase (mapping.base + index * pageSize) = mapping.base + index * pageSize :=
        pageBase_of_pageAligned (pageAligned_add held.aligned)
      have kept := turn.keeps sound tidy (held.keeps within) (fun loaded => spares index loaded) saves
        (by simp) (by simpa [Deed.Alters] using Ne.symm here)
      refine kept.weaken (fun offset byte inPage promises => ?_) length_page_le
      have unwritten := @put_of_apart written va done count _ offset bytes aligned apart inPage fits
      rw [Nat.add_assoc] at unwritten
      rw [← promised_congr unwritten]
      exact promises

theorem put_empty (va : Nat) (bytes : Array UInt8) (first : Nat) :
    put written va bytes first first = written :=
  funext fun _ => by rw [put, if_neg (by omega), Option.none_or]

theorem put_put {va first next stop : Nat} {bytes : Array UInt8} (ahead : first ≤ next)
    (behind : next ≤ stop) :
    put (put written va bytes first next) va bytes next stop = put written va bytes first stop := by
  funext address
  simp only [put, ← Option.or_assoc]
  congr 1
  by_cases late : va + next ≤ address
  · rw [if_neg (show ¬ (va + first ≤ address ∧ address < va + next) by omega), Option.or_none]
    by_cases inside : address < va + stop
    · rw [if_pos ⟨late, inside⟩, if_pos (by omega)]
    · rw [if_neg (by omega), if_neg (by omega)]
  · rw [if_neg (show ¬ (va + next ≤ address ∧ address < va + stop) by omega), Option.none_or]
    by_cases inside : va + first ≤ address
    · rw [if_pos (by omega), if_pos (by omega)]
    · rw [if_neg (by omega), if_neg (by omega)]

/-- What is stored chunk by chunk is promised from then on. -/
theorem of_stores
    {va done stop : Nat} {bytes : Array UInt8} (held : mapping.Held written before)
    (stores : Stores mapping.pid va bytes done stop before after) (sound : before.ledger.Sound none)
    (tidy : before.Tidy)
    (spares : ∀ {middle}, Runs (Deed.Writes mapping.pid) before middle →
      ∀ index, middle.Spares (mapping.page index))
    (saves : SavesAll mapping.file before after) :
    done ≤ stop ∧ mapping.Held (put written va bytes done stop) after := by
  have faulted {written : Nat → Option UInt8} {before middle : Pager}
      (held : mapping.Held written before)
      (sound : before.ledger.Sound none) (tidy : before.Tidy)
      (faults : Reaches (Deed.Faults mapping.pid) before middle)
      (spares : ∀ {middle}, Runs (Deed.Writes mapping.pid) before middle →
        ∀ index, middle.Spares (mapping.page index))
      (saves : SavesAll mapping.file before middle) : mapping.Held written middle :=
    held.of_runs faults.runs sound tidy (fun _ => spared_of_faults)
      (fun runs => spares (runs.mono fun _ => Deed.Faults.writes)) saves
  induction stores generalizing written with
  | rest faults =>
      rw [put_empty]
      exact ⟨Nat.le_refl _, faulted held sound tidy faults spares saves⟩
  | chunk faults resolved fits inside later inductionHypothesis =>
      have middleSound := faults.runs.sound sound
      have middleTidy := faults.runs.tidy sound tidy
      obtain ⟨_, same, turn, _⟩ := store_of_grants middleSound resolved (bytes.extract _ _)
      subst same
      have fault := faults.runs.mono fun _ => Deed.Faults.writes
      have reaches : Reaches (Deed.Writes mapping.pid) _ _ := .turn turn middleSound rfl (by simp)
      have stored := reaches.runs
      have storedSound := stored.sound middleSound
      have rest := (later.writes storedSound).runs
      obtain ⟨first, second⟩ := saves.split (fault.journal sound)
        ((stored.trans rest).journal middleSound)
      obtain ⟨_, third⟩ := second.split (stored.journal middleSound) (rest.journal storedSound)
      have heldThen := (faulted held sound tidy faults spares first).store middleSound middleTidy
        resolved fits inside (spares fault)
      obtain ⟨behind, heldAfter⟩ := inductionHypothesis heldThen storedSound
        (stored.tidy middleSound middleTidy)
        (fun runs => spares (fault.trans (stored.trans runs))) third
      rw [put_put (Nat.le_add_right ..) behind] at heldAfter
      exact ⟨Nat.le_of_add_right_le behind, heldAfter⟩

end Mapping.Held

end DemandPaging
