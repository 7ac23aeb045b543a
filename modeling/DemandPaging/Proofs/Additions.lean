import DemandPaging.Proofs.HandleBalance
import DemandPaging.Proofs.Reserving

/-!
# What reservations add

Reserving pages changes nothing but the pages of one process and the handles of one file. What was added is
kept as a list, to which a reservation that is accepted adds a page, and from which discarding takes one. When
the list is empty again everything is as it was, but for the notes and for the schedule by which the file is
opened.
-/

namespace DemandPaging

/-! ## Handles that are lent -/

namespace BackingFile

/-- A file but for the schedule by which it is opened. -/
def unscheduled (file : BackingFile) : BackingFile :=
  { file with reopens := Gate.always }

/-- A file with some more handles open, but for the schedule by which it is opened. -/
def lent (file : BackingFile) (count : Nat) : BackingFile :=
  { file.unscheduled with handles := file.handles + count }

end BackingFile

namespace FileTable

variable {table other : FileTable} {file : FileId} {count : Nat}

/-- The table after a number of attempts to open one more handle of a file. -/
def reopened (table : FileTable) (file : FileId) : Nat → FileTable
  | 0 => table
  | count + 1 => (table.reopen file).1.reopened file count

/-- Whether the next attempts to open one more handle of a file succeed, as many as are counted. -/
def Opens (table : FileTable) (file : FileId) (count : Nat) : Prop :=
  ∀ index < count, ((table.reopened file index).reopen file).2 = true

instance (table : FileTable) (file : FileId) (count : Nat) : Decidable (table.Opens file count) :=
  inferInstanceAs (Decidable (∀ index < count, _))

theorem opens_zero (table : FileTable) (file : FileId) : table.Opens file 0 := by
  intro index below
  exact absurd below (Nat.not_lt_zero index)

theorem opens_succ :
    table.Opens file (count + 1) ↔
      (table.reopen file).2 = true ∧ (table.reopen file).1.Opens file count := by
  constructor
  · intro opens
    exact ⟨opens 0 (Nat.succ_pos count), fun index below => opens (index + 1) (Nat.succ_lt_succ below)⟩
  · intro opens index below
    cases index with
    | zero => exact opens.1
    | succ index => exact opens.2 index (Nat.lt_of_succ_lt_succ below)

theorem Opens.mono {fewer : Nat} (opens : table.Opens file count) (below : fewer ≤ count) :
    table.Opens file fewer :=
  fun index inside => opens index (Nat.lt_of_lt_of_le inside below)

theorem get?_put {old : BackingFile} (found : table.get? file = some old) (backing : BackingFile)
    (index : FileId) :
    (table.put file backing).get? index = if index = file then some backing else table.get? index := by
  have inside : file < table.files.size := (Array.getElem?_eq_some_iff.mp found).1
  simp only [get?, put, Array.getElem?_setIfInBounds]
  by_cases same : index = file
  · subst same
    rw [if_pos rfl, if_pos rfl, if_pos inside]
  · rw [if_neg (Ne.symm same), if_neg same]

/-- Whether another table has the same files, with some more handles of one of them and another schedule to
open it. -/
def Lends (table other : FileTable) (file : FileId) (count : Nat) : Prop :=
  ∀ index, (other.get? index).map BackingFile.unscheduled =
    (table.get? index).map fun backing => if index = file then backing.lent count else backing.unscheduled

theorem Lends.refl (table : FileTable) (file : FileId) : table.Lends table file 0 := by
  intro index
  cases table.get? index with
  | none => rfl
  | some backing =>
      simp only [Option.map_some]
      split <;> rfl

/-- Putting another state of the file for which handles are lent. -/
private theorem Lends.put
    {old new : BackingFile} {more : Nat} (lends : table.Lends other file count)
    (found : other.get? file = some old)
    (changes : ∀ backing : BackingFile, old.unscheduled = backing.lent count →
      new.unscheduled = backing.lent more) :
    table.Lends (other.put file new) file more := by
  intro index
  have here := lends index
  rw [get?_put found]
  by_cases same : index = file
  · subst same
    rw [found] at here
    cases known : table.get? index with
    | none =>
        rw [known] at here
        cases here
    | some backing =>
        rw [known] at here
        simp only [Option.map_some, if_true, Option.some.injEq] at here ⊢
        exact changes backing here
  · simp only [if_neg same] at here ⊢
    exact here

/-- A file that is lent differs in its handles and in the schedule by which it is opened. -/
private theorem eq_of_lent {old backing : BackingFile} (same : old.unscheduled = backing.lent count) :
    ∃ reopens, old = { backing with handles := backing.handles + count, reopens := reopens } := by
  cases old
  cases backing
  simp only [BackingFile.lent, BackingFile.unscheduled, BackingFile.mk.injEq] at same
  simp [same]

/-- An attempt that succeeds lends one more handle. -/
theorem Lends.opened (lends : table.Lends other file count) (opened : (other.reopen file).2 = true) :
    table.Lends (other.reopen file).1 file (count + 1) := by
  unfold FileTable.reopen at opened ⊢
  cases found : other.get? file with
  | none =>
      rw [found] at opened
      cases opened
  | some old =>
      rw [found] at opened
      have opens : old.opens = true := opened
      refine lends.put found fun backing same => ?_
      obtain ⟨reopens, rfl⟩ := eq_of_lent same
      simp [BackingFile.unscheduled, BackingFile.lent, BackingFile.reopen, opens, Nat.add_assoc]

/-- An attempt that is refused lends none. -/
theorem Lends.refused (lends : table.Lends other file count) (refused : (other.reopen file).2 = false) :
    table.Lends (other.reopen file).1 file count := by
  unfold FileTable.reopen at refused ⊢
  cases found : other.get? file with
  | none => exact lends
  | some old =>
      rw [found] at refused
      have closed : old.opens = false := refused
      refine lends.put found fun backing same => ?_
      obtain ⟨reopens, rfl⟩ := eq_of_lent same
      simp [BackingFile.unscheduled, BackingFile.lent, BackingFile.reopen, closed]

/-- A handle that is closed is given back. -/
theorem Lends.close (lends : table.Lends other file (count + 1)) :
    table.Lends (other.close file) file count := by
  unfold FileTable.close
  cases found : other.get? file with
  | some old =>
      refine lends.put found fun backing same => ?_
      obtain ⟨reopens, rfl⟩ := eq_of_lent same
      simp [BackingFile.unscheduled, BackingFile.lent, BackingFile.close]
  | none =>
      intro index
      have here := lends index
      by_cases same : index = file
      · subst same
        rw [found] at here ⊢
        cases known : table.get? index with
        | none => rfl
        | some backing =>
            rw [known] at here
            cases here
      · simpa only [if_neg same] using here

/-- What is seen of files without their handles and schedules does not change by lending. -/
private theorem Lends.seen {α : Type} (lends : table.Lends other file count) (view : BackingFile → α)
    (same : ∀ backing count, view (BackingFile.lent backing count) = view backing)
    (sameUnscheduled : ∀ backing, view (BackingFile.unscheduled backing) = view backing) (index : FileId) :
    (other.get? index).map view = (table.get? index).map view := by
  have here := congrArg (Option.map view) (lends index)
  rw [Option.map_map, Option.map_map] at here
  have left : view ∘ BackingFile.unscheduled = view := funext sameUnscheduled
  rw [left] at here
  rw [here]
  congr 1
  funext backing
  rw [Function.comp_apply]
  split
  · exact same backing count
  · exact sameUnscheduled backing

theorem Lends.content (lends : table.Lends other file count) : other.content = table.content := by
  funext index
  have same := lends.seen (fun backing => backing.store.content) (fun _ _ => rfl) (fun _ => rfl) index
  unfold FileTable.content
  cases found : other.get? index <;> cases known : table.get? index <;> simp_all

theorem Lends.size (lends : table.Lends other file count) (index : FileId) :
    other.size index = table.size index := by
  rw [size_eq, size_eq, lends.content]

end FileTable

/-! ## What was added -/

namespace Layout

/-- The layout with one more region, if there is one. -/
def recording (layout : Layout) : Option Region → Layout
  | none => layout
  | some region => { layout with regions := layout.regions.insert region.base region }

end Layout

namespace Pager

open PagerM

/-- The pages of all processes, if some pages are added to one process. -/
def pagesWith (pager : Pager) (pid : Pid) (added : List Page) (owner : Owner) : Option Page :=
  if owner.pid = pid then (added.find? fun page => page.va == owner.va).or (pager.pageOf owner)
  else pager.pageOf owner

/-- A pager differs from an earlier one only by pages and perhaps a region that one process has besides, by
handles that are lent, and by notes. -/
structure Adds (before after : Pager) (pid : Pid) (added : List Page) (region? : Option Region)
    (file : FileId) (handles : Nat) : Prop where
  config : after.config = before.config
  frames : after.frames = before.frames
  swap : after.swap = before.swap
  counters : after.counters = before.counters
  files : before.files.Lends after.files file handles
  pages : after.pageOf = before.pagesWith pid added
  tables : ∀ other, after.table other = before.table other
  layouts : ∀ other, after.layout? other =
    (before.layout? other).map fun layout => if other = pid then layout.recording region? else layout

/-- A pager is as it was but for notes and the schedule by which a file is opened. -/
structure Restores (before after : Pager) : Prop where
  config : after.config = before.config
  frames : after.frames = before.frames
  swap : after.swap = before.swap
  counters : after.counters = before.counters
  spaces : after.spaces = before.spaces
  files : ∀ file, (after.files.get? file).map BackingFile.unscheduled =
    (before.files.get? file).map BackingFile.unscheduled

variable {before middle after : Pager} {pid : Pid} {page : Page} {added : List Page}
  {region? : Option Region} {file : FileId} {handles : Nat}

theorem pagesWith_nil (pager : Pager) (pid : Pid) : pager.pagesWith pid [] = pager.pageOf := by
  funext owner
  simp [pagesWith]

namespace Adds

theorem refl (pager : Pager) (pid : Pid) (file : FileId) : Adds pager pager pid [] none file 0 where
  config := rfl
  frames := rfl
  swap := rfl
  counters := rfl
  files := .refl pager.files file
  pages := (pagesWith_nil pager pid).symm
  tables _ := rfl
  layouts other := by
    cases pager.layout? other with
    | none => rfl
    | some layout =>
        simp only [Option.map_some, Layout.recording]
        split <;> rfl

theorem alive (adds : Adds before after pid added region? file handles) (other : Pid) :
    after.space? other = none ↔ before.space? other = none := by
  rw [← layout?_eq_none_iff, ← layout?_eq_none_iff, adds.layouts, Option.map_eq_none_iff]

end Adds

/-! ## Nothing was added -/

/-- Address spaces are what their pages, their page tables and their layouts are. -/
theorem spaces_eq
    (pages : after.pageOf = before.pageOf) (tables : ∀ other, after.table other = before.table other)
    (layouts : after.layout? = before.layout?) : after.spaces = before.spaces := by
  apply Std.ExtTreeMap.ext_getElem?
  intro pid
  have layout := congrFun layouts pid
  have table := tables pid
  have pageAt (va : Nat) := congrFun pages ⟨pid, va⟩
  simp only [layout?, Pager.table, pageOf, shown, space?] at layout table pageAt
  cases found : before.spaces[pid]? with
  | none =>
      rw [found] at layout
      exact Option.map_eq_none_iff.mp layout
  | some space =>
      rw [found] at layout table
      obtain ⟨new, foundNew, laid⟩ := Option.map_eq_some_iff.mp layout
      rw [foundNew] at table ⊢
      have samePages : new.pages = space.pages := by
        apply Std.ExtTreeMap.ext_getElem?
        intro va
        have here := pageAt va
        rw [found, foundNew] at here
        exact here
      have sameRegions : new.regions = space.regions := congrArg Layout.regions laid
      have samePointer : new.stackPointer = space.stackPointer := congrArg Layout.stackPointer laid
      cases new
      cases space
      simp_all

theorem Adds.restores (adds : Adds before after pid [] none file 0) : before.Restores after where
  config := adds.config
  frames := adds.frames
  swap := adds.swap
  counters := adds.counters
  spaces := by
    refine spaces_eq ?_ adds.tables (funext fun other => ?_)
    · rw [adds.pages, pagesWith_nil]
    · rw [adds.layouts]
      cases before.layout? other with
      | none => rfl
      | some layout =>
          simp only [Option.map_some, Layout.recording]
          split <;> rfl
  files index := by
    rw [adds.files index]
    congr 1
    funext backing
    split <;> rfl

/-! ## Reserving one more page -/

/-- Whether a page may be added to a process at an address: in user memory, where it has none. -/
structure Accepts (pager : Pager) (pid : Pid) (va : Nat) : Prop where
  alive : pager.space? pid ≠ none
  nonnull : va ≠ 0
  user : va < pager.config.kernelBase
  vacant : pager.pageOf ⟨pid, va⟩ = none

/-- The pager after a page was added to a process. -/
def laid (pager : Pager) (pid : Pid) (page : Page) : Pager :=
  pager.modifySpace pid fun space => { space with pages := space.pages.insert page.va page }

/-- A page is reserved where it is accepted, and nothing else happens. -/
theorem meets_reservePage_of_accepted
    (accepts : before.Accepts pid page.va) (aligned : pageAligned page.va = true)
    (fits : page.kind.readLength ≤ pageSize) (ending : Ending Unit) :
    (reservePage pid page).Meets before ending ↔ ending.answers ⟨⟩ (before.laid pid page) := by
  obtain ⟨space, found⟩ := Option.ne_none_iff_exists'.mp accepts.alive
  have vacant : space.pages.contains page.va = false := by
    have none := accepts.vacant
    rw [pageOf, shown, found, Option.bind_some] at none
    rw [Std.ExtTreeMap.contains_eq_isSome_getElem?, none]
    rfl
  rw [reservePage, meets_insist_bind aligned, meets_insist_bind (decide_eq_true fits), meets_bind,
    meets_attempt]
  simp only [insertPage, meets_bind, meets_checkUserAddress, if_neg accepts.nonnull,
    if_neg (Nat.not_le.mpr accepts.user), meets_requireSpace, found, vacant, Bool.false_eq_true, if_false,
    meets_modify, meets_pure]
  rfl

/-- A page that is not accepted gives its handle back, and nothing else happens. -/
theorem meets_reservePage_of_refused
    (refused : ¬ before.Accepts pid page.va) (aligned : pageAligned page.va = true)
    (fits : page.kind.readLength ≤ pageSize) {ending : Ending Unit}
    (fails : ∀ error, ending.fails error (before.closeHandle page)) :
    (reservePage pid page).Meets before ending := by
  rw [reservePage, meets_insist_bind aligned, meets_insist_bind (decide_eq_true fits), meets_bind,
    meets_attempt]
  simp only [insertPage, meets_bind, meets_checkUserAddress]
  split
  · exact fails _
  · rename_i nonnull
    split
    · exact fails _
    · rename_i user
      simp only [meets_requireSpace]
      cases found : before.space? pid with
      | none => exact fails _
      | some space =>
          dsimp only
          split
          · exact fails _
          · rename_i free
            have vacant : before.pageOf ⟨pid, page.va⟩ = none := by
              rw [pageOf, shown, found, Option.bind_some]
              simpa using free
            exact absurd ⟨by simp [found], nonnull, Nat.not_le.mp user, vacant⟩ refused

theorem pageOf_laid (alive : before.space? pid ≠ none) (page : Page) :
    (before.laid pid page).pageOf = Function.update before.pageOf ⟨pid, page.va⟩ (some page) := by
  obtain ⟨space, found⟩ := Option.ne_none_iff_exists'.mp alive
  exact congrArg Ledger.pages (ledger_insertPage before pid found page)

theorem table_modifySpace
    {change : AddressSpace → AddressSpace} (same : ∀ space, (change space).table = space.table) (other : Pid) :
    (before.modifySpace pid change).table other = before.table other := by
  simp only [Pager.table, space?_modifySpace]
  by_cases here : pid = other
  · rw [if_pos here]
    cases before.space? other with
    | none => rfl
    | some space => exact same space
  · rw [if_neg here]

theorem table_laid (pager : Pager) (pid : Pid) (page : Page) (other : Pid) :
    (pager.laid pid page).table other = pager.table other := by
  apply table_modifySpace
  intro space
  rfl

theorem layout?_laid (pager : Pager) (pid : Pid) (page : Page) :
    (pager.laid pid page).layout? = pager.layout? :=
  layout?_modifySpace fun _ => rfl

namespace Adds

/-- What was added elsewhere does not matter to whether a page is accepted. -/
theorem accepts_iff
    {va : Nat} (adds : Adds before after pid added region? file handles)
    (apart : ∀ page ∈ added, page.va ≠ va) : after.Accepts pid va ↔ before.Accepts pid va := by
  have vacant : after.pageOf ⟨pid, va⟩ = before.pageOf ⟨pid, va⟩ := by
    have none : added.find? (fun page => page.va == va) = none := by simpa using apart
    rw [adds.pages, pagesWith, if_pos rfl, none, Option.none_or]
  have alive := not_congr (adds.alive pid)
  constructor
  · intro accepts
    exact ⟨alive.mp accepts.alive, accepts.nonnull, adds.config ▸ accepts.user, vacant ▸ accepts.vacant⟩
  · intro accepts
    exact ⟨alive.mpr accepts.alive, accepts.nonnull, adds.config ▸ accepts.user, vacant ▸ accepts.vacant⟩

theorem lay
    (adds : Adds before after pid added region? file handles) (accepts : after.Accepts pid page.va) :
    Adds before (after.laid pid page) pid (added ++ [page]) region? file handles where
  config := adds.config
  frames := adds.frames
  swap := adds.swap
  counters := adds.counters
  files := adds.files
  pages := by
    rw [pageOf_laid accepts.alive]
    funext owner
    have vacant := accepts.vacant
    rw [adds.pages] at vacant ⊢
    by_cases here : owner = ⟨pid, page.va⟩
    · subst here
      rw [pagesWith, if_pos rfl, Option.or_eq_none_iff] at vacant
      rw [Function.update_self, pagesWith, if_pos rfl, List.find?_append, vacant.1]
      simp
    · rw [Function.update_of_ne here, pagesWith, pagesWith]
      split
      · rename_i samePid
        have apart : page.va ≠ owner.va := fun sameVa => here (by rw [← samePid, sameVa])
        simp [List.find?_append, apart]
      · rfl
  tables other := (table_laid after pid page other).trans (adds.tables other)
  layouts other := by rw [layout?_laid, adds.layouts]

/-- Another handle is lent. -/
theorem opened
    (adds : Adds before after pid added region? file handles)
    (opened : (after.files.reopen file).2 = true) :
    Adds before { after with files := (after.files.reopen file).1 } pid added region? file (handles + 1) :=
  ⟨adds.config, adds.frames, adds.swap, adds.counters, adds.files.opened opened, adds.pages, adds.tables,
    adds.layouts⟩

/-- No handle is lent if opening is refused. -/
theorem refused
    (adds : Adds before after pid added region? file handles)
    (refused : (after.files.reopen file).2 = false) :
    Adds before { after with files := (after.files.reopen file).1 } pid added region? file handles :=
  ⟨adds.config, adds.frames, adds.swap, adds.counters, adds.files.refused refused, adds.pages, adds.tables,
    adds.layouts⟩

theorem close (adds : Adds before after pid added region? file (handles + 1)) :
    Adds before (after.closeFile file) pid added region? file handles :=
  ⟨adds.config, adds.frames, adds.swap, adds.counters, adds.files.close, adds.pages, adds.tables,
    adds.layouts⟩

/-- What is noted is not counted. -/
theorem note (adds : Adds before after pid added region? file handles) (activity : Activity) :
    Adds before (after.note activity) pid added region? file handles :=
  ⟨adds.config, adds.frames, adds.swap, adds.counters, adds.files, adds.pages, adds.tables, adds.layouts⟩

end Adds

/-! ## Discarding what was added -/

/-- A page that was not touched holds nothing but its handle. -/
theorem discarded_of_waiting
    {owner : Owner} {load : LazyLoad} (waiting : page.kind = .pending load) (absent : page.frame = none)
    (pager : Pager) :
    ∃ activity, pager.discarded owner page = ((pager.note activity).closeHandle page).erasePage owner := by
  refine ⟨.discarded owner page ((pager.table owner.pid).isDirty owner.va), ?_⟩
  simp only [discarded, discardSaved, discardSlot, discardFrame, waiting, absent, PageKind.slot?]

theorem pageOf_erasePage (pager : Pager) (owner : Owner) :
    (pager.erasePage owner).pageOf = Function.update pager.pageOf owner none :=
  congrArg Ledger.pages (ledger_erasePage pager owner)

theorem table_erasePage (pager : Pager) (owner : Owner) (other : Pid) :
    (pager.erasePage owner).table other = pager.table other := by
  apply table_modifySpace
  intro space
  rfl

namespace Adds

/-- The first of the pages that were added is taken away again. -/
theorem erase
    (adds : Adds before after pid (page :: added) region? file handles)
    (vacant : before.pageOf ⟨pid, page.va⟩ = none) (apart : ∀ other ∈ added, other.va ≠ page.va) :
    Adds before (after.erasePage ⟨pid, page.va⟩) pid added region? file handles where
  config := adds.config
  frames := adds.frames
  swap := adds.swap
  counters := adds.counters
  files := adds.files
  pages := by
    rw [pageOf_erasePage, adds.pages]
    funext owner
    by_cases here : owner = ⟨pid, page.va⟩
    · subst here
      have none : added.find? (fun other => other.va == page.va) = none := by
        simpa using apart
      rw [Function.update_self, pagesWith, if_pos rfl, none, vacant]
      rfl
    · rw [Function.update_of_ne here, pagesWith, pagesWith]
      split
      · rename_i samePid
        have different : page.va ≠ owner.va := fun sameVa => here (by rw [← samePid, sameVa])
        rw [List.find?_cons_of_neg (by simpa using different)]
      · rfl
  tables other := (table_erasePage after _ other).trans (adds.tables other)
  layouts other := by rw [layout?_erasePage, adds.layouts]

end Adds

end Pager

end DemandPaging
