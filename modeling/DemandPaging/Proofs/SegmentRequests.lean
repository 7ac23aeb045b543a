import DemandPaging.Proofs.Additions
import DemandPaging.Proofs.History

/-!
# Requests for segments

A segment is reserved page by page, and every page gets its load when it is reserved. A request is granted
exactly if its size and its addresses are words, all of them aligned, and each of its pages is accepted. The
place in the file is added up without a check, also behind the last page: a build that checks its sums halts
where it comes to the end of the words, and any other goes on at the start of the file.
-/

namespace DemandPaging

theorem checkedSum_eq_some_iff {left right sum : Nat} :
    checkedSum left right = some sum ↔ left + right = sum ∧ left + right < wordLimit := by
  simp [checkedSum, and_comm]

theorem checkedSum_eq_none_iff {left right : Nat} :
    checkedSum left right = none ↔ wordLimit ≤ left + right := by
  simp [checkedSum]

/-! ## The pages of a segment -/

namespace Segment

variable {segment : Segment} {file : FileId} {index made : Nat}

/-- The number of bytes that a segment takes. -/
def size (segment : Segment) : Nat :=
  segment.readBytes + segment.zeroBytes

def pageCount (segment : Segment) : Nat :=
  segment.size / pageSize

/-- The number of pages that begin with bytes of the file. -/
def filePages (segment : Segment) : Nat :=
  roundedLength segment.readBytes / pageSize

/-- The number of bytes of the file that the page with an index begins with. -/
def backed (segment : Segment) (index : Nat) : Nat :=
  min (segment.readBytes - index * pageSize) pageSize

/-- How the page with an index gets its content. -/
def load (segment : Segment) (file : FileId) (index : Nat) : LazyLoad :=
  if segment.backed index = 0 then .zero
  else .segment
    { file := file
      offset := (segment.offset + index * pageSize) % wordLimit
      length := segment.backed index }

/-- The page of a segment with an index, before it is touched. -/
def page (segment : Segment) (file : FileId) (index : Nat) : Page where
  va := segment.va + index * pageSize
  writable := segment.writable
  kind := .pending (segment.load file index)

theorem va_page (segment : Segment) (file : FileId) (index : Nat) :
    (segment.page file index).va = segment.va + index * pageSize :=
  rfl

/-- The first pages of a segment. -/
def firstPages (segment : Segment) (file : FileId) (made : Nat) : List Page :=
  (List.range made).map (segment.page file)

theorem firstPages_succ (segment : Segment) (file : FileId) (made : Nat) :
    segment.firstPages file (made + 1) = segment.firstPages file made ++ [segment.page file made] := by
  rw [firstPages, List.range_succ, List.map_append]
  rfl

theorem backed_pos_iff : 0 < segment.backed index ↔ index < segment.filePages := by
  simp only [backed, filePages, roundedLength, pageSize]
  omega

theorem backed_eq_zero_iff : segment.backed index = 0 ↔ segment.filePages ≤ index := by
  have positive := @backed_pos_iff segment index
  omega

theorem readLength_load_le : (PageKind.pending (segment.load file index)).readLength ≤ pageSize := by
  unfold load
  split
  · exact Nat.zero_le pageSize
  · exact Nat.min_le_right _ pageSize

/-- The addresses of different pages are different. -/
theorem va_ne_of_mem_firstPages {page : Page} (member : page ∈ segment.firstPages file made) :
    page.va ≠ segment.va + made * pageSize := by
  obtain ⟨index, inside, rfl⟩ := List.mem_map.mp member
  have below := List.mem_range.mp inside
  simp only [Segment.page, pageSize]
  omega

/-- The place in the file behind what the pages before the one with an index read. -/
def place (segment : Segment) (index : Nat) : Nat :=
  segment.offset + min segment.readBytes (index * pageSize)

/-- Whether the places of the first pages are words, where the build checks that. -/
def Placed (segment : Segment) (arithmetic : Arithmetic) (made : Nat) : Prop :=
  arithmetic = .checked → ∀ index < made, segment.place index < wordLimit

variable {arithmetic : Arithmetic}

theorem placed_one (word : segment.offset < wordLimit) : segment.Placed arithmetic 1 := by
  intro _ index first
  obtain rfl : index = 0 := by omega
  rw [place, Nat.zero_mul, Nat.min_zero, Nat.add_zero]
  exact word

theorem Placed.mono {fewer : Nat} (placed : segment.Placed arithmetic made) (below : fewer ≤ made) :
    segment.Placed arithmetic fewer :=
  fun checked index inside => placed checked index (Nat.lt_of_lt_of_le inside below)

theorem Placed.succ
    (placed : segment.Placed arithmetic made)
    (word : arithmetic = .checked → segment.place made < wordLimit) : segment.Placed arithmetic (made + 1) := by
  intro checked index inside
  rcases Nat.eq_or_lt_of_le (Nat.le_of_lt_succ inside) with rfl | below
  · exact word checked
  · exact placed checked index below

/-- The place of a page that reads is as many pages behind that of the segment. -/
theorem place_of_backed (reads : 0 < segment.backed index) :
    segment.place index = segment.offset + index * pageSize := by
  simp only [backed, pageSize] at reads
  simp only [place, pageSize]
  omega

theorem place_succ (segment : Segment) (index : Nat) :
    segment.place (index + 1) = segment.place index + segment.backed index := by
  simp only [place, backed, pageSize]
  omega

theorem place_le (segment : Segment) (index : Nat) :
    segment.place index ≤ segment.offset + segment.readBytes :=
  Nat.add_le_add_left (Nat.min_le_left ..) segment.offset

theorem place_pageCount (whole : pageAligned segment.size = true) :
    segment.place segment.pageCount = segment.offset + segment.readBytes := by
  have below : segment.readBytes ≤ segment.size := Nat.le_add_right ..
  rw [pageAligned, beq_iff_eq] at whole
  rw [place, pageCount, Nat.div_mul_cancel (Nat.dvd_of_mod_eq_zero whole), Nat.min_eq_left below]

/-- A page whose place in the file is a word has the place that it should have. -/
theorem offset_of_load
    {range : FileRange} (loads : segment.load file index = .segment range) :
    range.offset = (segment.offset + index * pageSize) % wordLimit ∧
      (segment.place index < wordLimit → range.offset = segment.offset + index * pageSize) := by
  unfold load at loads
  split at loads
  · cases loads
  · rename_i reads
    cases loads
    refine ⟨rfl, fun word => Nat.mod_eq_of_lt ?_⟩
    rw [place_of_backed (Nat.pos_of_ne_zero reads)] at word
    exact word

/-- Where the range of a segment ends in the words, all places are words at which something is read. -/
theorem place_lt_of_load
    {range : FileRange} (loads : segment.load file index = .segment range)
    (fits : segment.offset + segment.readBytes ≤ wordLimit) : segment.place index < wordLimit := by
  unfold load at loads
  split at loads
  · cases loads
  · rename_i reads
    have beyond := segment.place_le (index + 1)
    rw [place_succ] at beyond
    omega

end Segment

namespace Pager

open PagerM

variable {before middle after : Pager} {pid : Pid} {segment : Segment} {file : FileId} {made : Nat}

/-! ## Page by page -/

/-- Some pages of a segment were reserved, the first ones, with a handle for each that reads from the file. -/
def Begins (before after : Pager) (pid : Pid) (segment : Segment) (file : FileId) (made : Nat) : Prop :=
  Adds before after pid (segment.firstPages file made) none file (min made segment.filePages)

/-- Some pages of a segment were reserved, the first ones, at most as many as given, and their places in the
file are words where the build checks that. -/
def BeginsWithin (before after : Pager) (pid : Pid) (segment : Segment) (file : FileId) (bound : Nat) : Prop :=
  ∃ made ≤ bound, before.Begins after pid segment file made ∧ segment.Placed before.config.arithmetic made

/-- The build checks its sums, and the range of a segment does not end with a word. -/
structure Overruns (pager : Pager) (segment : Segment) (reason : Halt) : Prop where
  isSum : reason = .sumTooLarge
  checked : pager.config.arithmetic = .checked
  beyond : wordLimit ≤ segment.offset + segment.readBytes

/-- Why the pages of a segment from one on could not be reserved, if all handles can be opened: one is not
accepted, or they reach behind the last word. -/
def Obstructs (pager : Pager) (pid : Pid) (segment : Segment) (first pages : Nat) : Prop :=
  (∃ index, first ≤ index ∧ index < first + pages ∧ ¬ pager.Accepts pid (segment.va + index * pageSize)) ∨
    (0 < pages ∧ wordLimit ≤ segment.va + (first + pages) * pageSize)

/-- A page that is accepted and ends with a word obstructs nothing. -/
theorem obstructs_succ
    {first pages : Nat} (accepts : before.Accepts pid (segment.va + first * pageSize))
    (fits : segment.va + (first + 1) * pageSize < wordLimit) :
    before.Obstructs pid segment first (pages + 1) ↔ before.Obstructs pid segment (first + 1) pages := by
  have shifted : first + (pages + 1) = first + 1 + pages := by omega
  constructor
  · intro obstructs
    rcases obstructs with ⟨index, above, below, refused⟩ | ⟨_, beyond⟩
    · have apart : index ≠ first := by
        intro same
        rw [same] at refused
        exact refused accepts
      exact Or.inl ⟨index, by omega, by omega, refused⟩
    · rw [shifted] at beyond
      refine Or.inr ⟨Nat.pos_of_ne_zero fun none => ?_, beyond⟩
      rw [none, Nat.add_zero] at beyond
      exact absurd fits (Nat.not_lt.mpr beyond)
  · intro obstructs
    rcases obstructs with ⟨index, above, below, refused⟩ | ⟨_, beyond⟩
    · exact Or.inl ⟨index, by omega, by omega, refused⟩
    · exact Or.inr ⟨Nat.succ_pos pages, by rw [shifted]; exact beyond⟩

theorem meets_segmentLoad_of_empty (va offset : Nat) (ending : Ending LazyLoad) :
    (segmentLoad file va offset 0).Meets before ending ↔ ending.answers .zero before := by
  rw [segmentLoad, if_pos rfl, meets_pure]

theorem meets_segmentLoad_of_left {left : Nat} (some : left ≠ 0) (va offset : Nat) (ending : Ending LazyLoad) :
    (segmentLoad file va offset left).Meets before ending ↔
      if (before.files.reopen file).2 then
        ending.answers (.segment ⟨file, offset, min left pageSize⟩)
          { before with files := (before.files.reopen file).1 }
      else ending.fails (.io va) { before with files := (before.files.reopen file).1 } := by
  rw [segmentLoad, if_neg some, meets_bind, meets_reopenFile]
  dsimp only
  cases (before.files.reopen file).2 <;> rfl

/-- The load of the next page is the one that the page should have, with a handle of its own if it reads from
the file. -/
theorem meets_segmentLoad_next
    {offset left : Nat} (begins : before.Begins middle pid segment file made)
    (isLeft : left = segment.readBytes - made * pageSize)
    (isOffset : offset = segment.place made % wordLimit) (va : Nat) :
    (segmentLoad file va offset left).Meets middle
      { answers := fun load after => load = segment.load file made ∧
          Adds before after pid (segment.firstPages file made) none file (min (made + 1) segment.filePages) ∧
            (middle.files.Opens file (segment.filePages - made) →
              after.files.Opens file (segment.filePages - (made + 1)))
        fails := fun _ after => before.Begins after pid segment file made ∧
          ¬ middle.files.Opens file (segment.filePages - made)
        halts := fun _ _ => False } := by
  have backed : segment.backed made = min left pageSize := by rw [Segment.backed, isLeft]
  by_cases empty : left = 0
  · subst empty
    have nothing : segment.backed made = 0 := by rw [backed, Nat.zero_min]
    have past := Segment.backed_eq_zero_iff.mp nothing
    rw [meets_segmentLoad_of_empty]
    refine ⟨?_, ?_, fun opens => opens.mono (by omega)⟩
    · rw [Segment.load, if_pos nothing]
    · rw [Nat.min_eq_right (by omega)]
      rw [Begins, Nat.min_eq_right past] at begins
      exact begins
  · have positive : 0 < segment.backed made := by
      rw [backed]
      simp only [pageSize]
      omega
    have inside := Segment.backed_pos_iff.mp positive
    have handles : min made segment.filePages = made := Nat.min_eq_left (Nat.le_of_lt inside)
    have rest : segment.filePages - made = segment.filePages - (made + 1) + 1 := by omega
    rw [Begins, handles] at begins
    rw [meets_segmentLoad_of_left empty]
    split
    · rename_i opened
      refine ⟨?_, ?_, fun opens => ?_⟩
      · rw [Segment.load, if_neg (Nat.ne_of_gt positive), isOffset, Segment.place_of_backed positive, backed]
      · rw [Nat.min_eq_left inside]
        exact begins.opened opened
      · rw [rest] at opens
        exact (FileTable.opens_succ.mp opens).2
    · rename_i refused
      rw [Bool.not_eq_true] at refused
      refine ⟨?_, fun opens => ?_⟩
      · rw [Begins, handles]
        exact begins.refused refused
      · rw [rest] at opens
        rw [(FileTable.opens_succ.mp opens).1] at refused
        cases refused

/-- A page of a segment that is not accepted gives its handle back. -/
theorem begins_closeHandle
    (adds : Adds before middle pid (segment.firstPages file made) none file (min (made + 1) segment.filePages)) :
    before.Begins (middle.closeHandle (segment.page file made)) pid segment file made := by
  unfold Begins
  by_cases reads : segment.backed made = 0
  · have past := Segment.backed_eq_zero_iff.mp reads
    have without : (segment.page file made).kind.handle? = none := by
      simp [Segment.page, Segment.load, reads, PageKind.handle?, LazyLoad.range?]
    rw [closeHandle, without]
    rw [Nat.min_eq_right (by omega)] at adds
    rw [Nat.min_eq_right past]
    exact adds
  · have inside := Segment.backed_pos_iff.mp (Nat.pos_of_ne_zero reads)
    have holds : (segment.page file made).kind.handle? = some file := by
      simp [Segment.page, Segment.load, reads, PageKind.handle?, LazyLoad.range?]
    rw [closeHandle, holds]
    rw [Nat.min_eq_left (by omega)] at adds
    rw [Nat.min_eq_left (by omega)]
    exact adds.close

/-- The place in the file is added up: it stays a word, or the build halts. -/
theorem meets_addPlace
    {offset left : Nat} (begins : before.Begins middle pid segment file (made + 1))
    (placed : segment.Placed before.config.arithmetic (made + 1))
    (isLeft : left = segment.readBytes - made * pageSize) (isOffset : offset = segment.place made % wordLimit) :
    (addWords offset (min left pageSize)).Meets middle
      { answers := fun behind after => after = middle ∧ behind = segment.place (made + 1) % wordLimit ∧
          segment.Placed before.config.arithmetic (made + 2)
        fails := fun _ _ => False
        halts := fun reason after => before.BeginsWithin after pid segment file (made + 1) ∧
          before.Overruns segment reason } := by
  have advanced : segment.place (made + 1) = segment.place made + min left pageSize := by
    rw [Segment.place_succ, Segment.backed, ← isLeft]
  have exact_of_checked (checked : before.config.arithmetic = .checked) :
      offset + min left pageSize = segment.place (made + 1) := by
    rw [isOffset, Nat.mod_eq_of_lt (placed checked made (Nat.lt_succ_self made)), advanced]
  rw [meets_addWords, begins.config]
  split
  · rename_i overflows
    obtain ⟨checked, beyond⟩ := overflows
    rw [exact_of_checked checked] at beyond
    exact ⟨⟨made + 1, Nat.le_refl _, begins, placed⟩, rfl, checked, beyond.trans (segment.place_le _)⟩
  · rename_i sums
    refine ⟨rfl, ?_, placed.succ fun checked => ?_⟩
    · rw [isOffset, Nat.mod_add_mod, advanced]
    · rw [← exact_of_checked checked]
      exact Nat.not_le.mp fun beyond => sums ⟨checked, beyond⟩

/-- The pages of a segment are reserved from one on, up to the first that cannot be. -/
theorem begins_reserveSegment
    {pages va offset left : Nat} (begins : before.Begins middle pid segment file made)
    (placed : segment.Placed before.config.arithmetic (made + 1))
    (aligned : pageAligned segment.va = true) (isVa : va = segment.va + made * pageSize)
    (isLeft : left = segment.readBytes - made * pageSize) (isOffset : offset = segment.place made % wordLimit) :
    (reserveSegment pid file segment.writable pages va offset left).Meets middle
      { answers := fun _ after => before.Begins after pid segment file (made + pages) ∧
          segment.Placed before.config.arithmetic (made + pages + 1) ∧ ¬ before.Obstructs pid segment made pages
        fails := fun _ after => before.BeginsWithin after pid segment file (made + pages) ∧
          (middle.files.Opens file (segment.filePages - made) → before.Obstructs pid segment made pages)
        halts := fun reason after => before.BeginsWithin after pid segment file (made + pages) ∧
          before.Overruns segment reason } := by
  induction pages generalizing middle made va offset left with
  | zero =>
      refine ⟨begins, placed, ?_⟩
      rintro (⟨index, above, below, _⟩ | ⟨positive, _⟩)
      · exact absurd above (Nat.not_le.mpr below)
      · exact absurd positive (Nat.lt_irrefl 0)
  | succ pages inductionHypothesis =>
      have shifted : made + (pages + 1) = made + 1 + pages := by omega
      refine (meets_bind ..).mpr ((meets_segmentLoad_next begins isLeft isOffset va).mono ?_ ?_
        fun _ _ => False.elim)
      · rintro load opening ⟨rfl, adds, opens⟩
        dsimp only
        have same : ({ va := va, writable := segment.writable, kind := .pending (segment.load file made) } : Page) =
            segment.page file made := by rw [isVa]; rfl
        have vaAligned : pageAligned (segment.page file made).va = true := by
          rw [Segment.va_page]
          exact pageAligned_add aligned
        have accepts := adds.accepts_iff fun page member => Segment.va_ne_of_mem_firstPages member
        rw [same, meets_bind]
        by_cases accepted : opening.Accepts pid (segment.va + made * pageSize)
        · rw [meets_reservePage_of_accepted accepted vaAligned Segment.readLength_load_le]
          have laid : before.Begins (opening.laid pid (segment.page file made)) pid segment file (made + 1) := by
            rw [Begins, Segment.firstPages_succ]
            exact adds.lay accepted
          refine (meets_bind ..).mpr ((meets_addPlace laid placed isLeft isOffset).mono ?_
            (fun _ _ => False.elim) ?_)
          · intro behind after answered
            have same := answered.1
            have isBehind := answered.2.1
            have placedThen := answered.2.2
            rw [same]
            cases summed : checkedSum va pageSize with
            | none =>
                have beyond := checkedSum_eq_none_iff.mp summed
                refine ⟨⟨made + 1, by omega, laid, placed⟩, fun _ => Or.inr ⟨Nat.succ_pos pages, ?_⟩⟩
                simp only [isVa, pageSize] at beyond ⊢
                omega
            | some next =>
                obtain ⟨isNext, fits⟩ := checkedSum_eq_some_iff.mp summed
                rw [@obstructs_succ before pid segment made pages (accepts.mp accepted) (by
                  simp only [isVa, pageSize] at fits ⊢
                  omega), shifted]
                refine (inductionHypothesis laid placedThen ?isVa ?isLeft isBehind).mono (fun _ _ => id)
                  ?fails fun _ _ => id
                case isVa => rw [← isNext, isVa, Nat.add_one_mul, Nat.add_assoc]
                case isLeft =>
                  simp only [isLeft, pageSize]
                  omega
                case fails => exact fun _ _ failed => ⟨failed.1, fun opened => failed.2 (opens opened)⟩
          · rintro reason after ⟨⟨more, below, begun⟩, overruns⟩
            exact ⟨⟨more, by omega, begun⟩, overruns⟩
        · refine meets_reservePage_of_refused accepted vaAligned Segment.readLength_load_le fun _ => ?_
          refine ⟨⟨made, by omega, begins_closeHandle adds, placed.mono (Nat.le_succ made)⟩,
            fun _ => Or.inl ⟨made, Nat.le_refl made, by omega, ?_⟩⟩
          exact fun granted => accepted (accepts.mpr granted)
      · rintro _ after ⟨still, refused⟩
        exact ⟨⟨made, by omega, still, placed.mono (Nat.le_succ made)⟩, fun opens => absurd opens refused⟩

/-! ## The whole segment -/

/-- Where a segment can be reserved: its size and its addresses are words and aligned, each of its pages is
accepted, and its range of the file ends with a word if the build checks that. -/
structure HasPlaceFor (pager : Pager) (pid : Pid) (segment : Segment) : Prop where
  sized : segment.size < wordLimit
  whole : pageAligned segment.size = true
  aligned : pageAligned segment.va = true
  offset : pageAligned segment.offset = true
  ends : segment.va + segment.size < wordLimit
  reads : pager.config.arithmetic = .checked → segment.offset + segment.readBytes < wordLimit
  accepts : ∀ index < segment.pageCount, pager.Accepts pid (segment.va + index * pageSize)

/-- A segment that has a place is not obstructed, and it has a place if nothing obstructs it and all places of
its pages in the file are words. -/
theorem hasPlaceFor_iff
    (word : segment.va < wordLimit) (sized : segment.size < wordLimit) (whole : pageAligned segment.size = true)
    (aligned : pageAligned segment.va = true) (offset : pageAligned segment.offset = true) :
    before.HasPlaceFor pid segment ↔ ¬ before.Obstructs pid segment 0 segment.pageCount ∧
      (before.config.arithmetic = .checked → segment.offset + segment.readBytes < wordLimit) := by
  have size : segment.pageCount * pageSize = segment.size := by
    rw [pageAligned, beq_iff_eq] at whole
    exact Nat.div_mul_cancel (Nat.dvd_of_mod_eq_zero whole)
  constructor
  · intro place
    refine ⟨fun obstructs => ?_, place.reads⟩
    rcases obstructs with ⟨index, _, below, refused⟩ | ⟨_, beyond⟩
    · rw [Nat.zero_add] at below
      exact refused (place.accepts index below)
    · rw [Nat.zero_add, size] at beyond
      exact absurd place.ends (Nat.not_lt.mpr beyond)
  · rintro ⟨free, reads⟩
    refine ⟨sized, whole, aligned, offset, ?_, reads, fun index below => ?_⟩
    · by_contra beyond
      refine free (Or.inr ⟨?_, ?_⟩)
      · refine Nat.pos_of_ne_zero fun none => ?_
        rw [none, Nat.zero_mul] at size
        omega
      · rw [Nat.zero_add, size]
        exact Nat.not_lt.mp beyond
    · by_contra refused
      exact free (Or.inl ⟨index, Nat.zero_le index, by omega, refused⟩)

/-- A request is granted where the segment can be reserved, with all its pages; else the first ones of them may
have been reserved. -/
theorem begins_loadSegment
    (word : segment.va < wordLimit) (offsetWord : segment.offset < wordLimit) :
    (loadSegment pid file segment).Meets before
      { answers := fun _ after => before.Begins after pid segment file segment.pageCount ∧
          segment.Placed before.config.arithmetic segment.pageCount ∧ before.HasPlaceFor pid segment
        fails := fun _ after => before.BeginsWithin after pid segment file segment.pageCount ∧
          (before.files.Opens file segment.filePages → ¬ before.HasPlaceFor pid segment)
        halts := fun reason after => before.BeginsWithin after pid segment file segment.pageCount ∧
          before.Overruns segment reason } := by
  have placed : segment.Placed before.config.arithmetic 1 := Segment.placed_one offsetWord
  have nothing : before.Begins before pid segment file 0 := by
    rw [Begins, Nat.zero_min]
    exact .refl before pid file
  have unchanged (refused : ¬ before.HasPlaceFor pid segment) :
      before.BeginsWithin before pid segment file segment.pageCount ∧
        (before.files.Opens file segment.filePages → ¬ before.HasPlaceFor pid segment) :=
    ⟨⟨0, Nat.zero_le _, nothing, placed.mono (Nat.zero_le 1)⟩, fun _ => refused⟩
  unfold loadSegment
  cases summed : checkedSum segment.readBytes segment.zeroBytes with
  | none =>
      refine unchanged fun place => ?_
      exact absurd place.sized (Nat.not_lt.mpr (checkedSum_eq_none_iff.mp summed))
  | some size =>
      obtain ⟨rfl, sized⟩ : segment.size = size ∧ segment.size < wordLimit := checkedSum_eq_some_iff.mp summed
      dsimp only
      split
      · rename_i uneven
        refine unchanged fun place => ?_
        rw [place.whole] at uneven
        cases uneven
      · rename_i whole
        split
        · rename_i unaligned
          refine unchanged fun place => ?_
          rw [place.aligned] at unaligned
          cases unaligned
        · rename_i aligned
          split
          · rename_i unaligned
            refine unchanged fun place => ?_
            rw [place.offset] at unaligned
            cases unaligned
          · rename_i offset
            simp only [Bool.not_eq_true, Bool.not_eq_false'] at whole aligned offset
            have place := @hasPlaceFor_iff before pid segment word sized whole aligned offset
            have reserved := @begins_reserveSegment before before pid segment file 0 segment.pageCount
              segment.va segment.offset segment.readBytes nothing placed aligned (by omega) (by omega)
              (by rw [Segment.place, Nat.zero_mul, Nat.min_zero, Nat.add_zero, Nat.mod_eq_of_lt offsetWord])
            rw [Nat.zero_add] at reserved
            refine reserved.mono (fun _ after answered => ?_) (fun _ after failed => ?_) fun _ _ => id
            · obtain ⟨begins, placedAll, free⟩ := answered
              refine ⟨begins, placedAll.mono (Nat.le_succ _), place.mpr ⟨free, fun checked => ?_⟩⟩
              rw [← Segment.place_pageCount whole]
              exact placedAll checked _ (Nat.lt_succ_self _)
            · exact ⟨failed.1, fun opens => fun has => (place.mp has).1 (failed.2 opens)⟩

end Pager

open Pager

section Laws

variable {before : Pager} {pid : Pid} {segment : Segment} {file : FileId}

/-- A segment is granted exactly where it can be reserved, if the file can be opened for each page that reads
from it. Nothing changes but by its pages, all of them if it is granted and the first ones if not, and by a
handle for each that reads. The page with an index gets the place in the file that many pages behind that of the
segment, whether the segment is granted or not: a build that checks its sums halts before it could reserve
another one, and no other build has to where the range of the file ends in the words. -/
theorem segment_reserved_exactly
    (word : segment.va < wordLimit) (offsetWord : segment.offset < wordLimit) :
    (before.files.Opens file segment.filePages →
      ((∃ after, (Call.loadSegment pid file segment).perform before = .ok .done after) ↔
        before.HasPlaceFor pid segment)) ∧
    (∀ halt after, (Call.loadSegment pid file segment).perform before = .error (.halted halt) after →
      before.Overruns segment halt) ∧
    ∃ made ≤ segment.pageCount,
      before.Begins ((Call.loadSegment pid file segment).perform.leaves before) pid segment file made ∧
      (∀ answer after, (Call.loadSegment pid file segment).perform before = .ok answer after →
        made = segment.pageCount) ∧
      ∀ index < made, ∀ range, (segment.page file index).kind = .pending (.segment range) →
        range.offset = (segment.offset + index * pageSize) % wordLimit ∧
          (before.config.arithmetic = .checked ∨ segment.offset + segment.readBytes ≤ wordLimit →
            range.offset = segment.offset + index * pageSize) := by
  have offsets {made index : Nat} (placed : segment.Placed before.config.arithmetic made) (inside : index < made)
      (range : FileRange) (reads : (segment.page file index).kind = .pending (.segment range)) :
      range.offset = (segment.offset + index * pageSize) % wordLimit ∧
        (before.config.arithmetic = .checked ∨ segment.offset + segment.readBytes ≤ wordLimit →
          range.offset = segment.offset + index * pageSize) := by
    have loads : segment.load file index = .segment range := PageKind.pending.inj reads
    obtain ⟨asWord, exactly⟩ := Segment.offset_of_load loads
    refine ⟨asWord, fun cause => exactly ?_⟩
    rcases cause with checked | fits
    · exact placed checked index inside
    · exact Segment.place_lt_of_load loads fits
  have ends : (Call.loadSegment pid file segment).perform.Meets before
      { answers := fun answer after => answer = .done ∧
          before.Begins after pid segment file segment.pageCount ∧
            segment.Placed before.config.arithmetic segment.pageCount ∧ before.HasPlaceFor pid segment
        fails := fun _ after => before.BeginsWithin after pid segment file segment.pageCount ∧
          (before.files.Opens file segment.filePages → ¬ before.HasPlaceFor pid segment)
        halts := fun reason after => before.BeginsWithin after pid segment file segment.pageCount ∧
          before.Overruns segment reason } := by
    rw [Call.perform, PagerM.meets_bind]
    exact (begins_loadSegment word offsetWord).mono (fun _ _ answered => ⟨rfl, answered⟩) (fun _ _ => id)
      fun _ _ => id
  rw [PagerM.leaves]
  rcases ends.outcome with
    ⟨answer, after, run, rfl, begins, placed, place⟩ |
      ⟨error, after, run, ⟨made, below, begins, placed⟩, refused⟩ |
      ⟨halt, after, run, ⟨made, below, begins, placed⟩, overruns⟩
  · rw [run]
    refine ⟨fun _ => ⟨fun _ => place, fun _ => ⟨after, rfl⟩⟩, fun _ _ never => (by cases never),
      segment.pageCount, Nat.le_refl _, begins, fun _ _ _ => rfl, fun _ inside => offsets placed inside⟩
  · rw [run]
    refine ⟨fun opens => ⟨fun granted => ?_, fun place => absurd place (refused opens)⟩,
      fun _ _ never => (by cases never), made, below, begins, fun _ _ never => (by cases never),
      fun _ inside => offsets placed inside⟩
    obtain ⟨_, never⟩ := granted
    cases never
  · rw [run]
    refine ⟨fun _ => ⟨fun granted => ?_, fun place => ?_⟩, fun _ _ halted => ?_, made, below, begins,
      fun _ _ never => (by cases never), fun _ inside => offsets placed inside⟩
    · obtain ⟨_, never⟩ := granted
      cases never
    · exact absurd (place.reads overruns.checked) (Nat.not_lt.mpr overruns.beyond)
    · cases halted
      exact overruns

/-- A segment of two pages, of which the second one reads a byte. -/
def shortSegment : Segment :=
  { va := 4096, offset := 4096, readBytes := 4097, zeroBytes := 4095, writable := true }

/-- A segment of one page that ends with the last byte that a file can have. -/
def outermostSegment : Segment :=
  { va := 4096, offset := wordLimit - 4096, readBytes := 4096, zeroBytes := 0, writable := true }

/-- A file with one byte. -/
def smallFile : FileTable :=
  ⟨#[.create .memory #[7]]⟩

/-- The segment of two pages is granted, also if the file does not hold them. -/
theorem segment_reserved_exactly_of_short_segment :
    ∃ before after, (Call.loadSegment 1 0 shortSegment).perform before = .ok .done after ∧
      before.HasPlaceFor 1 shortSegment ∧ before.Begins after 1 shortSegment 0 2 := by
  have ended : (((Pager.create { frameCount := 1 } .fifo (Device.blank .memory 0) smallFile).play []
      [.createProcess 1]).any fun result =>
        decide (result.2.files.Opens 0 shortSegment.filePages) &&
          result.2.comesTo (.loadSegment 1 0 shortSegment) fun outcome _ => decide (outcome = .ok .done)) =
            true := by
    decide +kernel
  obtain ⟨⟨events, before⟩, played, known⟩ := (Option.any_eq_true ..).mp ended
  rw [Bool.and_eq_true, decide_eq_true_eq] at known
  obtain ⟨outcome, after, attempted, answered⟩ := exists_run_of_comesTo known.2
  cases of_decide_eq_true answered
  have run := PagerM.ok_of_attempt attempted
  obtain ⟨granted, _, made, _, begins, whole, _⟩ :=
    @segment_reserved_exactly before 1 shortSegment 0 (by decide) (by decide)
  obtain rfl := whole _ _ run
  rw [PagerM.leaves, run] at begins
  exact ⟨before, after, run, (granted known.1).mp ⟨after, run⟩, begins⟩

/-- A segment that ends with the last byte that a file can have is not granted: the build halts where it adds up
the place behind that byte, at which nothing is read. -/
theorem outermost_segment_halts :
    ¬ ∀ (config : Config) (kind : PolicyKind) (device : Device) (files : FileTable) (events : List Event)
      (before : Pager) (pid : Pid) (segment : Segment) (file : FileId),
      History config kind device files events before →
        segment.va < wordLimit → segment.offset < wordLimit → before.files.Opens file segment.filePages →
        segment.size < wordLimit → pageAligned segment.size = true → pageAligned segment.va = true →
        pageAligned segment.offset = true → segment.offset + segment.readBytes ≤ wordLimit →
        segment.va + segment.size ≤ wordLimit →
        (∀ index < segment.pageCount, before.Accepts pid (segment.va + index * pageSize)) →
          ∃ after, (Call.loadSegment pid file segment).perform before = .ok .done after := by
  intro claim
  have ended : (((Pager.create { frameCount := 1 } .fifo (Device.blank .memory 0) smallFile).play []
      [.createProcess 1]).any fun result =>
        decide (result.2.files.Opens 0 outermostSegment.filePages) && (result.2.space? 1).isSome &&
          (result.2.pageOf ⟨1, 4096⟩).isNone && decide (4096 < result.2.config.kernelBase) &&
            match (Call.loadSegment 1 0 outermostSegment).perform result.2 with
            | .error (.halted .sumTooLarge) _ => true
            | _ => false) = true := by
    decide +kernel
  obtain ⟨⟨events, before⟩, played, known⟩ := (Option.any_eq_true ..).mp ended
  simp only [Bool.and_eq_true, decide_eq_true_eq, Option.isSome_iff_ne_none, Option.isNone_iff_eq_none] at known
  obtain ⟨⟨⟨⟨opens, alive⟩, vacant⟩, user⟩, halts⟩ := known
  obtain ⟨after, granted⟩ := claim _ _ _ _ events before 1 outermostSegment 0 (History.start.play played)
    (by decide) (by decide) opens (by decide) (by decide) (by decide) (by decide) (by decide) (by decide)
    fun index below => by
      obtain rfl : index = 0 := Nat.lt_one_iff.mp below
      exact ⟨alive, by decide, user, vacant⟩
  rw [granted] at halts
  cases halts

end Laws

end DemandPaging
