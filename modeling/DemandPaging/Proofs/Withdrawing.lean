import DemandPaging.Proofs.Additions

/-!
# Removing mappings

Removing a mapping cannot fail, so what it leaves is a function of the state: the region is forgotten, the
pages that belong to it are withdrawn one by one, and its handle is closed. Where a mapping was just made, or
begun, removing it takes away all that was added.
-/

namespace DemandPaging

namespace Layout

/-- The layout without the region that starts at an address. -/
def forgetting (layout : Layout) (base : Nat) : Layout :=
  { layout with regions := layout.regions.erase base }

/-- A region that is recorded where there is none can be forgotten. -/
theorem forgetting_recording
    {layout : Layout} {region : Region} (blank : layout.regions[region.base]? = none) :
    (layout.recording (some region)).forgetting region.base = layout := by
  have same : (layout.regions.insert region.base region).erase region.base = layout.regions := by
    apply Std.ExtTreeMap.ext_getElem?
    intro base
    rw [Std.ExtTreeMap.getElem?_erase, Std.ExtTreeMap.getElem?_insert]
    by_cases here : region.base = base
    · subst here
      simp [blank]
    · simp [here]
  rw [recording, forgetting, same]

end Layout

namespace Pager

open PagerM

variable {before after pager : Pager} {pid : Pid} {region : Region} {index : Nat} {page : Page}

/-! ## What removing a mapping leaves -/

/-- The pager after the page with an index was discarded, if it belongs to the region. -/
def withdrawn (pid : Pid) (region : Region) (pager : Pager) (index : Nat) : Pager :=
  match pager.page? pid (region.base + index * pageSize) with
  | some page =>
      if page.region = some region.base then pager.discarded ⟨pid, page.va⟩ page else pager
  | none => pager

/-- The pager after a mapping was removed. -/
def unmapped (pager : Pager) (pid : Pid) (region : Region) : Pager :=
  ((List.range region.pageCount).foldl (withdrawn pid region)
    (pager.eraseRegion pid region.base)).closeFile region.file

theorem withdrawn_of_vacant (aligned : pageAligned region.base = true)
    (vacant : pager.pageOf ⟨pid, region.base + index * pageSize⟩ = none) :
    withdrawn pid region pager index = pager := by
  have nothing : pager.page? pid (region.base + index * pageSize) = none := by
    rw [page?_eq, pageBase_of_pageAligned (pageAligned_add aligned)]
    exact vacant
  rw [withdrawn, nothing]

theorem withdrawn_of_belongs (aligned : pageAligned region.base = true)
    (present : pager.pageOf ⟨pid, region.base + index * pageSize⟩ = some page)
    (belongs : page.region = some region.base) :
    withdrawn pid region pager index = pager.discarded ⟨pid, page.va⟩ page := by
  have found : pager.page? pid (region.base + index * pageSize) = some page := by
    rw [page?_eq, pageBase_of_pageAligned (pageAligned_add aligned)]
    exact present
  rw [withdrawn, found]
  exact if_pos belongs

/-- The pages with the given indices are withdrawn, and nothing else can happen. -/
theorem meets_discardMapped_iff
    {indices : List Nat} (sound : before.ledger.Sound none) (ending : Ending Unit) :
    (discardMapped pid region indices).Meets before ending ↔
      ending.answers ⟨⟩ (indices.foldl (withdrawn pid region) before) := by
  induction indices generalizing before with
  | nil => exact meets_pure ..
  | cons index rest inductionHypothesis =>
      rw [List.foldl_cons, withdrawn, discardMapped, meets_bind, meets_get]
      dsimp only
      have same := before.page?_eq pid (region.base + index * pageSize)
      cases found : before.page? pid (region.base + index * pageSize) with
      | none => exact inductionHypothesis sound
      | some page =>
          rw [found] at same
          have present : before.ledger.pages ⟨pid, page.va⟩ = some page := by
            rw [(sound.placed _ page same.symm).va]
            exact same.symm
          dsimp only
          split
          · rw [meets_bind, meets_discardPage sound present]
            exact inductionHypothesis ((Turn.discarded present).sound sound)
          · exact inductionHypothesis sound

theorem meets_unmap_of_region
    (sound : before.ledger.Sound none) (recorded : before.region? pid region.base = some region)
    (ending : Ending Unit) :
    (unmap pid region.base).Meets before ending ↔ ending.answers ⟨⟩ (before.unmapped pid region) := by
  rw [unmap, meets_bind, meets_requireSpace]
  cases found : before.space? pid with
  | none =>
      rw [region?_of_absent found] at recorded
      cases recorded
  | some space =>
      rw [region?_of_space found] at recorded
      have erasedSound := (turn_eraseRegion before pid region.base).sound sound
      simp only [recorded, meets_bind, meets_modify, meets_discardMapped_iff erasedSound]
      rfl

/-- Where no region starts there is nothing to remove. -/
theorem meets_unmap_of_none
    {base : Nat} (alive : before.space? pid ≠ none) (unrecorded : before.region? pid base = none)
    (ending : Ending Unit) : (unmap pid base).Meets before ending ↔ ending.answers ⟨⟩ before := by
  obtain ⟨space, found⟩ := Option.ne_none_iff_exists'.mp alive
  rw [region?_of_space found] at unrecorded
  rw [unmap, meets_bind, meets_requireSpace, found]
  simp only [unrecorded, meets_pure]

/-! ## Removing what was added -/

theorem layout?_eraseRegion (pager : Pager) (pid : Pid) (base : Nat) (other : Pid) :
    (pager.eraseRegion pid base).layout? other =
      (pager.layout? other).map fun layout => if other = pid then layout.forgetting base else layout := by
  rw [layout?, eraseRegion, space?_modifySpace, layout?]
  by_cases here : other = pid
  · subst here
    simp only [if_true, Option.map_map]
    rfl
  · simp only [if_neg here, if_neg (Ne.symm here), Option.map_id']

/-- The region that was added is forgotten. -/
theorem Adds.forget
    {added : List Page} {file : FileId} {handles : Nat}
    (adds : Adds before after pid added (some region) file handles)
    (blank : before.region? pid region.base = none) :
    Adds before (after.eraseRegion pid region.base) pid added none file handles where
  config := adds.config
  frames := adds.frames
  swap := adds.swap
  counters := adds.counters
  files := adds.files
  pages := by
    rw [← adds.pages]
    exact after.shown_modifySpace_of_same pid fun _ _ => rfl
  tables other := by
    rw [← adds.tables]
    apply table_modifySpace
    intro space
    rfl
  layouts other := by
    rw [layout?_eraseRegion, adds.layouts, Option.map_map]
    cases known : before.layout? other with
    | none => rfl
    | some layout =>
        simp only [Option.map_some, Function.comp_apply]
        by_cases here : other = pid
        · subst here
          rw [region?, known] at blank
          simp only [if_true, Layout.forgetting_recording blank]
          rfl
        · simp only [if_neg here]

variable {length fileSize : Nat} {writable : Bool}

/-- The first of the pages that were added for a region is withdrawn. -/
theorem Adds.withdraw
    {added : List Page} {handles : Nat}
    (adds : Adds before after pid (region.page length fileSize writable index :: added) none region.file
      (handles + 1))
    (aligned : pageAligned region.base = true)
    (vacant : before.pageOf ⟨pid, region.base + index * pageSize⟩ = none)
    (apart : ∀ other ∈ added, other.va ≠ region.base + index * pageSize) :
    Adds before (withdrawn pid region after index) pid added none region.file handles := by
  have present : after.pageOf ⟨pid, region.base + index * pageSize⟩ =
      some (region.page length fileSize writable index) := by
    simp [adds.pages, pagesWith, Region.page]
  obtain ⟨activity, discarded⟩ := @discarded_of_waiting (region.page length fileSize writable index)
    ⟨pid, region.base + index * pageSize⟩ _ rfl rfl after
  rw [withdrawn_of_belongs aligned present rfl]
  refine (congrArg (fun state => Adds before state pid added none region.file handles) discarded).mpr ?_
  exact (adds.note activity).close.erase vacant apart

/-- The first pages of a region, from one of its pages on, are withdrawn with those that were not made. -/
theorem Adds.withdraw_all
    {first made count : Nat}
    (adds : Adds before after pid ((List.range' first made).map (region.page length fileSize writable)) none
      region.file (made + 1))
    (aligned : pageAligned region.base = true) (inside : made ≤ count)
    (vacant : ∀ index, first ≤ index → index < first + count →
      before.pageOf ⟨pid, region.base + index * pageSize⟩ = none) :
    Adds before ((List.range' first count).foldl (withdrawn pid region) after) pid [] none region.file 1 := by
  induction count generalizing first made after with
  | zero =>
      obtain rfl := Nat.le_zero.mp inside
      exact adds
  | succ count inductionHypothesis =>
      have here := vacant first (Nat.le_refl first) (by omega)
      have later (index : Nat) (above : first + 1 ≤ index) (below : index < first + 1 + count) :=
        vacant index (by omega) (by omega)
      rw [List.range'_succ, List.foldl_cons]
      cases made with
      | zero =>
          have nothing : after.pageOf ⟨pid, region.base + first * pageSize⟩ = none := by
            rw [adds.pages, List.range'_zero, List.map_nil, pagesWith_nil]
            exact here
          rw [withdrawn_of_vacant aligned nothing]
          exact @inductionHypothesis after (first + 1) 0 adds (Nat.zero_le count) later
      | succ made =>
          rw [List.range'_succ, List.map_cons] at adds
          refine inductionHypothesis (adds.withdraw aligned here ?_) (Nat.le_of_succ_le_succ inside) later
          intro other member
          obtain ⟨index, listed, rfl⟩ := List.mem_map.mp member
          have above := (List.mem_range'_1.mp listed).1
          simp only [Region.page, pageSize]
          omega

/-- Removing a mapping that was made, or begun, takes away all that was added. -/
theorem Adds.restores_unmapped
    {made : Nat}
    (adds : Adds before after pid ((List.range made).map (region.page length fileSize writable)) (some region)
      region.file (made + 1))
    (aligned : pageAligned region.base = true) (inside : made ≤ region.pageCount)
    (blank : before.region? pid region.base = none)
    (vacant : ∀ index < region.pageCount, before.pageOf ⟨pid, region.base + index * pageSize⟩ = none) :
    before.Restores (after.unmapped pid region) := by
  have forgotten := adds.forget blank
  rw [List.range_eq_range'] at forgotten
  have withdrawn := forgotten.withdraw_all aligned inside fun index _ below =>
    vacant index (by rwa [Nat.zero_add] at below)
  rw [← List.range_eq_range'] at withdrawn
  exact withdrawn.close.restores

end Pager

end DemandPaging
