import DemandPaging.Proofs.Regions
import DemandPaging.Proofs.Withdrawing

/-!
# Requests for mappings

A request for a mapping is granted exactly if its arguments are valid, no page of the process is in its way, and
the file can be opened for the region and for each of its pages. It is granted as a whole: if it is not, nothing
is left of it.
-/

namespace DemandPaging

namespace Pager

open PagerM

variable {before middle after : Pager} {pid : Pid} {base length offset made : Nat} {file : FileId}
  {region : Region} {fileSize : Nat} {writable : Bool}

/-! ## Arguments -/

/-- The arguments of a mapping that are valid for any process: whole pages of user memory that start behind the
null page, and a range of a file that has bytes, which ends in the words. -/
structure ValidMapping (pager : Pager) (base length : Nat) (file : FileId) (offset : Nat) : Prop where
  nonnull : base ≠ 0
  user : base < pager.config.kernelBase
  aligned : pageAligned base = true
  nonempty : length ≠ 0
  alignedOffset : pageAligned offset = true
  filled : pager.files.size file ≠ 0
  below : base + roundedLength length ≤ pager.config.kernelBase
  fits : offset + roundedLength length < wordLimit

theorem meets_checkMapping_iff (base length : Nat) (file : FileId) (offset : Nat) :
    (checkMapping base length file offset).Meets before
      { answers := fun mapped after => after = before ∧ mapped = roundedLength length ∧
          before.ValidMapping base length file offset
        fails := fun _ after => after = before ∧
          (before.config.kernelBase < wordLimit → ¬ before.ValidMapping base length file offset)
        halts := fun _ _ => False } := by
  simp only [checkMapping, meets_bind, meets_checkUserAddress, meets_get]
  split
  · rename_i null
    exact ⟨trivial, fun _ valid => valid.nonnull null⟩
  · rename_i nonnull
    split
    · rename_i kernel
      exact ⟨trivial, fun _ valid => absurd valid.user (Nat.not_lt.mpr kernel)⟩
    · rename_i user
      split
      · rename_i unaligned
        refine ⟨rfl, fun _ valid => ?_⟩
        rw [valid.aligned] at unaligned
        cases unaligned
      · rename_i aligned
        split
        · rename_i empty
          exact ⟨rfl, fun _ valid => valid.nonempty empty⟩
        · rename_i nonempty
          split
          · rename_i unaligned
            refine ⟨rfl, fun _ valid => ?_⟩
            rw [valid.alignedOffset] at unaligned
            cases unaligned
          · rename_i alignedOffset
            split
            · rename_i unfilled
              exact ⟨rfl, fun _ valid => valid.filled unfilled⟩
            · rename_i filled
              split
              · rename_i beyond
                refine ⟨rfl, fun word valid => ?_⟩
                have below := valid.below
                simp only [Bool.or_eq_true, decide_eq_true_eq] at beyond
                omega
              · rename_i below
                simp only [Bool.or_eq_true, decide_eq_true_eq, not_or, Nat.not_le, Nat.not_lt] at below
                split
                · rename_i large
                  exact ⟨rfl, fun _ valid => absurd valid.fits (Nat.not_lt.mpr large)⟩
                · rename_i fits
                  simp only [Bool.not_eq_true, Bool.not_eq_false'] at aligned alignedOffset
                  exact ⟨rfl, rfl, nonnull, Nat.not_le.mp user, aligned, nonempty, alignedOffset, filled, below.2,
                    Nat.not_le.mp fits⟩

theorem overlaps_iff {space : AddressSpace} {stop : Nat} (found : before.space? pid = some space) :
    space.overlaps base stop = true ↔ ∃ va, base ≤ va ∧ va < stop ∧ before.pageOf ⟨pid, va⟩ ≠ none := by
  have present (va : Nat) : va ∈ space.pages.keys ↔ before.pageOf ⟨pid, va⟩ ≠ none := by
    rw [Std.ExtTreeMap.mem_keys, Std.ExtTreeMap.mem_iff_isSome_getElem?, pages_of_space found,
      Option.isSome_iff_ne_none]
    rfl
  simp only [AddressSpace.overlaps, List.any_eq_true, Bool.and_eq_true, decide_eq_true_eq, present]
  constructor
  · intro overlaps
    obtain ⟨va, there, above, below⟩ := overlaps
    exact ⟨va, above, below, there⟩
  · intro overlaps
    obtain ⟨va, above, below, there⟩ := overlaps
    exact ⟨va, there, above, below⟩

/-! ## Page by page -/

/-- The region of a mapping and the first of its pages were added, with a handle for each. -/
def BeginsMapping (before after : Pager) (pid : Pid) (region : Region) (length fileSize : Nat) (writable : Bool)
    (made : Nat) : Prop :=
  Adds before after pid ((List.range made).map (region.page length fileSize writable)) (some region) region.file
    (made + 1)

/-- The pages of a region are made if the file can be opened for each, and else the handles that were opened
are closed. -/
theorem adds_makePages
    {added : List Page} {region? : Option Region} {pages index handles : Nat}
    (adds : Adds before middle pid added region? region.file handles)
    (whole : region.length = roundedLength length) (word : region.length < wordLimit)
    (inside : index + pages ≤ region.pageCount) :
    (makePages region length fileSize writable pages index).Meets middle
      { answers := fun made after =>
          made = (List.range' index pages).map (region.page length fileSize writable) ∧
            Adds before after pid added region? region.file (handles + pages) ∧
              middle.files.Opens region.file pages
        fails := fun _ after =>
          Adds before after pid added region? region.file handles ∧ ¬ middle.files.Opens region.file pages
        halts := fun _ _ => False } := by
  induction pages generalizing middle index handles with
  | zero => exact ⟨rfl, adds, middle.files.opens_zero region.file⟩
  | succ pages inductionHypothesis =>
      rw [makePages, meets_bind, meets_mappingLeft whole word (by omega)]
      simp only [region.mappedPage_eq]
      rw [meets_bind, meets_reopenFile]
      dsimp only
      cases opened : (middle.files.reopen region.file).2 with
      | false =>
          refine ⟨adds.refused opened, fun opens => ?_⟩
          rw [(FileTable.opens_succ.mp opens).1] at opened
          cases opened
      | true =>
          have rest : middle.files.Opens region.file (pages + 1) ↔
              ({ middle with files := (middle.files.reopen region.file).1 } : Pager).files.Opens region.file pages :=
            FileTable.opens_succ.trans (and_iff_right opened)
          have makes := @inductionHypothesis _ (index + 1) _ (adds.opened opened) (by omega)
          refine (meets_bind ..).mpr ((meets_attempt ..).mpr (makes.mono ?made ?failed fun _ _ => id))
          case made =>
            rintro _ after ⟨rfl, lent, opens⟩
            rw [Nat.add_assoc, Nat.add_comm 1 pages] at lent
            exact ⟨rfl, lent, rest.mpr opens⟩
          case failed =>
            rintro error after ⟨lent, refused⟩
            exact ⟨lent.close, fun opens => refused (rest.mp opens)⟩

/-- Pages that are accepted and do not lie in the way of each other are all reserved. -/
theorem adds_reservePages
    {added pages : List Page} {region? : Option Region} {handles : Nat}
    (adds : Adds before middle pid added region? file handles) (fresh : ∀ page ∈ pages, page.IsFresh)
    (accepts : ∀ page ∈ pages, before.Accepts pid page.va)
    (apart : (added ++ pages).Pairwise fun page other => page.va ≠ other.va) :
    (reservePages pid pages).Meets middle
      { answers := fun _ after => Adds before after pid (added ++ pages) region? file handles
        fails := fun _ _ => False
        halts := fun _ _ => False } := by
  induction pages generalizing middle added with
  | nil =>
      rw [List.append_nil]
      exact adds
  | cons page rest inductionHypothesis =>
      obtain ⟨first, others⟩ := List.forall_mem_cons.mp fresh
      obtain ⟨acceptsFirst, acceptsOthers⟩ := List.forall_mem_cons.mp accepts
      have elsewhere (other : Page) (member : other ∈ added) : other.va ≠ page.va :=
        (List.pairwise_append.mp apart).2.2 other member page List.mem_cons_self
      have accepted := (adds.accepts_iff elsewhere).mpr acceptsFirst
      have reserves := @meets_reservePage_of_accepted middle pid page accepted first.aligned first.fits
      rw [List.append_cons] at apart ⊢
      rw [reservePages]
      refine (meets_bind ..).mpr ((meets_attempt ..).mpr ((reserves _).mpr ?_))
      exact inductionHypothesis (adds.lay accepted) others acceptsOthers apart

/-- The pages of a region lie apart from each other. -/
theorem pairwise_pages (region : Region) (length fileSize : Nat) (writable : Bool) (count : Nat) :
    ((List.range count).map (region.page length fileSize writable)).Pairwise
      fun page other => page.va ≠ other.va := by
  refine List.pairwise_map.mpr (List.nodup_range.imp fun {index other} different => ?_)
  simp only [Region.page, pageSize]
  omega

/-! ## The region and its pages -/

theorem layout?_insertRegion (pager : Pager) (pid : Pid) (region : Region) (other : Pid) :
    (pager.insertRegion pid region).layout? other =
      (pager.layout? other).map fun layout =>
        if other = pid then layout.recording (some region) else layout := by
  rw [layout?, insertRegion, space?_modifySpace, layout?]
  by_cases here : other = pid
  · subst here
    simp only [if_true, Option.map_map]
    rfl
  · simp only [if_neg here, if_neg (Ne.symm here), Option.map_id']

namespace Adds

variable {added : List Page} {handles : Nat}

theorem record (adds : Adds before after pid added none file handles) (region : Region) :
    Adds before (after.insertRegion pid region) pid added (some region) file handles where
  config := adds.config
  frames := adds.frames
  swap := adds.swap
  counters := adds.counters
  files := adds.files
  pages := by
    rw [← adds.pages]
    exact after.shown_modifySpace_of_same pid fun _ _ => rfl
  tables other := by
    rw [← adds.tables]
    apply table_modifySpace
    intro space
    rfl
  layouts other := by
    rw [layout?_insertRegion, adds.layouts, Option.map_map]
    congr 1
    funext layout
    by_cases here : other = pid
    · simp only [Function.comp_apply, if_pos here]
      rfl
    · simp only [Function.comp_apply, if_neg here]

theorem recorded
    (adds : Adds before after pid added (some region) file handles) (alive : before.space? pid ≠ none) :
    after.region? pid region.base = some region := by
  obtain ⟨space, found⟩ := Option.ne_none_iff_exists'.mp alive
  rw [region?, adds.layouts, layout?, found]
  simp [Layout.recording]

end Adds

/-- The pages of a region are reserved if the file can be opened for each, and else none of them is. -/
theorem begins_mapPages
    (begins : before.BeginsMapping middle pid region length fileSize writable 0)
    (alive : before.space? pid ≠ none) (aligned : pageAligned region.base = true)
    (whole : region.length = roundedLength length) (word : region.length < wordLimit)
    (accepts : ∀ index < region.pageCount, before.Accepts pid (region.base + index * pageSize)) :
    (mapPages pid region.base length fileSize writable).Meets middle
      { answers := fun _ after =>
          before.BeginsMapping after pid region length fileSize writable region.pageCount ∧
            middle.files.Opens region.file region.pageCount
        fails := fun _ after => before.BeginsMapping after pid region length fileSize writable 0 ∧
          ¬ middle.files.Opens region.file region.pageCount
        halts := fun _ _ => False } := by
  have recorded := begins.recorded alive
  rw [mapPages, meets_bind, meets_requireSpace]
  cases found : middle.space? pid with
  | none =>
      rw [region?_of_absent found] at recorded
      cases recorded
  | some space =>
      rw [region?_of_space found] at recorded
      simp only [recorded]
      have makes := @adds_makePages before middle pid length region fileSize writable [] (some region) _ 0 1
        begins whole word (Nat.zero_add _).le
      refine (meets_bind ..).mpr (makes.mono ?made (fun _ _ => id) fun _ _ => id)
      rintro _ opening ⟨rfl, lent, opens⟩
      rw [← List.range_eq_range', Nat.add_comm 1] at *
      have reserves := adds_reservePages lent
        (List.forall_mem_map.mpr fun index _ => region.isFresh_page aligned length fileSize writable index)
        (List.forall_mem_map.mpr fun index below => accepts index (List.mem_range.mp below))
        (pairwise_pages region length fileSize writable region.pageCount)
      exact reserves.mono (fun _ _ begun => ⟨begun, opens⟩) (fun _ _ => False.elim) fun _ _ => False.elim

/-- A region for which the file was opened is recorded and its pages are made, or else it is removed again. -/
theorem begins_mapRegion
    {opening : Pager} (adds : Adds before opening pid [] none region.file 1) (sound : opening.ledger.Sound none)
    (alive : before.space? pid ≠ none) (aligned : pageAligned region.base = true)
    (whole : region.length = roundedLength length) (word : region.length < wordLimit)
    (blank : before.region? pid region.base = none)
    (accepts : ∀ index < region.pageCount, before.Accepts pid (region.base + index * pageSize)) :
    (mapRegion pid region length fileSize writable).Meets opening
      { answers := fun _ after =>
          before.BeginsMapping after pid region length fileSize writable region.pageCount ∧
            opening.files.Opens region.file region.pageCount
        fails := fun _ after => before.Restores after ∧ ¬ opening.files.Opens region.file region.pageCount
        halts := fun _ _ => False } := by
  have begins : before.BeginsMapping (opening.insertRegion pid region) pid region length fileSize writable 0 :=
    adds.record region
  have mappingSound := (turn_insertRegion opening pid region).sound sound
  have mapped := (begins_mapPages begins alive aligned whole word accepts).and
    (meets_mapPages mappingSound aligned rfl whole word (begins.recorded alive))
  rw [mapRegion, meets_bind, meets_modify]
  refine (meets_bind ..).mpr ((meets_attempt ..).mpr (mapped.mono ?made ?failed ?halted))
  case halted => exact fun _ _ never => never.1.elim
  case made => exact fun _ _ made => made.1
  case failed =>
    rintro error last ⟨⟨begun, refused⟩, reaches, _⟩
    have unmaps := @meets_unmap_of_region last pid region (reaches.runs.sound mappingSound) (begun.recorded alive)
    refine (meets_bind ..).mpr ((unmaps _).mpr ⟨?_, refused⟩)
    exact begun.restores_unmapped aligned (Nat.zero_le _) blank fun index below => (accepts index below).vacant

/-! ## The request -/

/-- Whether a range of a file can be mapped for a process: no page lies in the way, and the file can be opened
for the region and for each of its pages. -/
structure Mappable (pager : Pager) (pid : Pid) (base length : Nat) (file : FileId) (offset : Nat) : Prop
    extends pager.ValidMapping base length file offset where
  alive : pager.space? pid ≠ none
  vacant : ∀ va, base ≤ va → va < base + roundedLength length → pager.pageOf ⟨pid, va⟩ = none
  opens : pager.files.Opens file (roundedLength length / pageSize + 1)

theorem ValidMapping.pageCount_pos (valid : before.ValidMapping base length file offset) :
    0 < roundedLength length / pageSize := by
  have nonempty := valid.nonempty
  simp only [roundedLength, pageSize]
  omega

/-- The pages of a mapping are accepted where no page lies in the way. -/
theorem ValidMapping.accepts
    (valid : before.ValidMapping base length file offset) (alive : before.space? pid ≠ none)
    (vacant : ∀ va, base ≤ va → va < base + roundedLength length → before.pageOf ⟨pid, va⟩ = none)
    {index : Nat} (inside : index < roundedLength length / pageSize) :
    before.Accepts pid (base + index * pageSize) := by
  have nonnull := valid.nonnull
  have below := valid.below
  have within : index * pageSize < roundedLength length := by
    simp only [pageSize] at inside ⊢
    omega
  exact ⟨alive, by omega, by omega, vacant _ (Nat.le_add_right ..) (by omega)⟩

/-- A mapping is made as a whole where it can be, and else nothing is left of it. -/
theorem begins_map
    (sound : before.ledger.Sound none) (agrees : before.RegionAgrees pid base) :
    (map pid base length writable file offset).Meets before
      { answers := fun address after => address = base ∧ before.Mappable pid base length file offset ∧
          before.BeginsMapping after pid ⟨base, roundedLength length, file, offset⟩ length
            (before.files.size file) writable (roundedLength length / pageSize)
        fails := fun _ after => before.Restores after ∧
          (before.config.kernelBase < wordLimit → ¬ before.Mappable pid base length file offset)
        halts := fun _ _ => False } := by
  have unchanged := (Adds.refl before pid file).restores
  rw [Pager.map]
  refine (meets_bind ..).mpr ((meets_checkMapping_iff base length file offset).mono ?valid ?invalid fun _ _ => id)
  case invalid =>
    rintro _ after ⟨rfl, invalid⟩
    exact ⟨unchanged, fun word mappable => invalid word mappable.toValidMapping⟩
  case valid =>
    rintro mapped after ⟨rfl, rfl, valid⟩
    dsimp only
    rw [meets_bind, meets_requireSpace]
    dsimp only
    cases found : after.space? pid with
    | none => exact ⟨unchanged, fun _ mappable => mappable.alive found⟩
    | some space =>
        have alive : after.space? pid ≠ none := by rw [found]; exact Option.some_ne_none space
        dsimp only
        split
        · rename_i overlaps
          obtain ⟨va, above, below, there⟩ := (overlaps_iff found).mp overlaps
          exact ⟨unchanged, fun _ mappable => there (mappable.vacant va above below)⟩
        · rename_i apart
          have vacant (va : Nat) (above : base ≤ va) (below : va < base + roundedLength length) :
              after.pageOf ⟨pid, va⟩ = none := by
            by_contra there
            exact apart ((overlaps_iff found).mpr ⟨va, above, below, there⟩)
          have accepts (index : Nat) (inside : index < roundedLength length / pageSize) :=
            valid.accepts alive vacant inside
          have blank := (agrees.blank (by simpa using (accepts 0 (valid.pageCount_pos)).vacant)).1
          rw [meets_bind, meets_reopenFile]
          dsimp only
          cases opened : (after.files.reopen file).2 with
          | false =>
              refine ⟨((Adds.refl after pid file).refused opened).restores, fun _ mappable => ?_⟩
              rw [(FileTable.opens_succ.mp mappable.opens).1] at opened
              cases opened
          | true =>
              have adds := (Adds.refl after pid file).opened opened
              have rest : after.files.Opens file (roundedLength length / pageSize + 1) ↔
                  ({ after with files := (after.files.reopen file).1 } : Pager).files.Opens file
                    (roundedLength length / pageSize) :=
                FileTable.opens_succ.trans (and_iff_right opened)
              have size := after.files.size_reopen file file
              have openingSound := (Turn.reopened after file).sound sound
              simp only [if_true]
              rw [meets_bind, meets_get]
              dsimp only
              rw [size]
              generalize ({ after with files := (after.files.reopen file).1 } : Pager) = opening at adds rest openingSound ⊢
              have word := (Nat.le_add_left (roundedLength length) offset).trans_lt valid.fits
              have maps := @begins_mapRegion after pid length ⟨base, roundedLength length, file, offset⟩
                (after.files.size file) writable opening adds openingSound alive valid.aligned rfl word blank accepts
              refine (meets_bind ..).mpr (maps.mono ?made ?failed fun _ _ => id)
              case made =>
                rintro _ final ⟨begun, opens⟩
                exact ⟨rfl, ⟨valid, alive, vacant, rest.mpr opens⟩, begun⟩
              case failed =>
                rintro _ last ⟨restores, refused⟩
                exact ⟨restores, fun _ mappable => refused (rest.mp mappable.opens)⟩

end Pager

open Pager

section Laws

variable {config : Config} {kind : PolicyKind} {device : Device} {files : FileTable} {events : List Event}
  {before : Pager}

/-- A request for a mapping in a state of a history is granted exactly if its arguments are valid, the process
exists, no page of it lies in the way, and the file can be opened for the region and for each page. If it is
granted, the region and its pages are added with a handle for each, and the parts of the file that the pages
have are inside the words and the bytes that are mapped. If it is not, everything is as it was. -/
theorem mapping_made_exactly_or_not_at_all
    (history : History config kind device files events before) (word : config.kernelBase < wordLimit)
    (pid : Pid) (base length : Nat) (writable : Bool) (file : FileId) (offset : Nat) :
    ∃ outcome after,
      PagerM.attempt (Call.map pid base length writable file offset).perform before = .ok outcome after ∧
      (outcome = .ok (.address base) ∧ before.Mappable pid base length file offset ∧
          before.BeginsMapping after pid ⟨base, roundedLength length, file, offset⟩ length
            (before.files.size file) writable (roundedLength length / pageSize) ∧
          (∀ index < roundedLength length / pageSize, index * pageSize < length ∧
            base + index * pageSize < wordLimit ∧ offset + index * pageSize < wordLimit) ∨
        (∃ error, outcome = .error error) ∧ ¬ before.Mappable pid base length file offset ∧
          before.Restores after) := by
  obtain rfl := history.orderly.config
  have sound := history.orderly.sound
  have agrees := history.regionAgrees pid base
  have meets : (PagerM.attempt (Call.map pid base length writable file offset).perform).Meets before
      { answers := fun outcome after =>
          outcome = .ok (.address base) ∧ before.Mappable pid base length file offset ∧
              before.BeginsMapping after pid ⟨base, roundedLength length, file, offset⟩ length
                (before.files.size file) writable (roundedLength length / pageSize) ∨
            (∃ error, outcome = .error error) ∧ ¬ before.Mappable pid base length file offset ∧
              before.Restores after
        fails := fun _ _ => False
        halts := fun _ _ => False } := by
    rw [PagerM.meets_attempt, Call.perform, PagerM.meets_bind]
    refine (begins_map sound agrees).mono (fun address after made => ?_) (fun error after failed => ?_)
      fun _ _ => id
    · exact Or.inl ⟨by rw [made.1], made.2⟩
    · exact Or.inr ⟨⟨error, rfl⟩, failed.2 word, failed.1⟩
  rcases meets.outcome with ⟨outcome, after, run, ended⟩ | ⟨_, _, _, never⟩ | ⟨_, _, _, never⟩
  · refine ⟨outcome, after, run, ended.imp (fun made => ?_) id⟩
    obtain ⟨granted, mappable, begun⟩ := made
    refine ⟨granted, mappable, begun, fun index inside => ?_⟩
    have below := mappable.below
    have fits := mappable.fits
    simp only [roundedLength, pageSize] at inside below fits ⊢
    omega
  · exact never.elim
  · exact never.elim

/-- A file with one byte of which two more handles can be opened. -/
def twiceOpenedFile : FileTable :=
  ⟨#[{ BackingFile.create .memory #[7] with reopens := .budget 2 }]⟩

/-- One page of the file can be mapped. Two pages cannot, and the region and the first page, for which the file
was opened, are removed again. -/
theorem mapping_made_exactly_or_not_at_all_of_scarce_handles :
    ∃ before : Pager, before.Mappable 1 4096 1 0 0 ∧ ∃ after error,
      PagerM.attempt (Call.map 1 4096 4097 true 0 0).perform before = .ok (.error error) after ∧
        ¬ before.Mappable 1 4096 4097 0 0 ∧ before.Restores after := by
  have ended : (((Pager.create { frameCount := 1 } .fifo (Device.blank .memory 0) twiceOpenedFile).play []
      [.createProcess 1]).any fun result =>
        (result.2.comesTo (.map 1 4096 1 true 0 0) fun outcome _ => outcome.isOk) &&
          result.2.comesTo (.map 1 4096 4097 true 0 0) fun outcome _ => !outcome.isOk) = true := by
    decide +kernel
  obtain ⟨⟨events, before⟩, played, known⟩ := (Option.any_eq_true ..).mp ended
  rw [Bool.and_eq_true] at known
  have history := History.start.play played
  have word : ({ frameCount := 1 } : Config).kernelBase < wordLimit := by decide
  refine ⟨before, ?_, ?_⟩
  · obtain ⟨outcome, after, run, answered⟩ := exists_run_of_comesTo known.1
    obtain ⟨outcome', after', run', ends⟩ := mapping_made_exactly_or_not_at_all history word 1 4096 1 true 0 0
    cases run.symm.trans run'
    rcases ends with ⟨_, mappable, _⟩ | ⟨⟨error, failed⟩, _⟩
    · exact mappable
    · rw [failed] at answered
      cases answered
  · obtain ⟨outcome, after, run, refused⟩ := exists_run_of_comesTo known.2
    obtain ⟨outcome', after', run', ends⟩ :=
      mapping_made_exactly_or_not_at_all history word 1 4096 4097 true 0 0
    cases run.symm.trans run'
    rcases ends with ⟨granted, _⟩ | ⟨⟨error, failed⟩, unmappable, restores⟩
    · rw [granted] at refused
      cases refused
    · exact ⟨after, error, failed ▸ run, unmappable, restores⟩

end Laws

end DemandPaging
