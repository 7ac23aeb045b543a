import DemandPaging.Proofs.Transit

/-!
# Dirty bits and layouts

The ledger leaves out which pages were changed since they got their frames, and where the regions and
the stack pointer of a process are. Only page tables hold dirty bits, and moving pages leaves the layout
of every process alone.
-/

namespace DemandPaging

namespace PageTable

variable {table : PageTable} {va other : Nat}

/-- The dirty bit of the page that starts at an address, if it has an entry. -/
def dirty? (table : PageTable) (va : Nat) : Option Bool :=
  (table.entries[va]?).map PageEntry.dirty

theorem isDirty_eq (table : PageTable) (va : Nat) :
    table.isDirty va = (table.dirty? (pageBase va)).getD false := by
  unfold isDirty dirty? find?
  cases table.entries[pageBase va]? <;> rfl

theorem isSome_dirty? (table : PageTable) (va : Nat) :
    (table.dirty? va).isSome = (table.translation? va).isSome := by
  simp only [dirty?, translation?, Option.isSome_map]

theorem dirty?_clear :
    (table.clear va).dirty? other = if pageBase va = other then none else table.dirty? other := by
  simp only [dirty?, clear, Std.ExtTreeMap.getElem?_erase, Std.LawfulEqCmp.compare_eq_iff_eq]
  split <;> rfl

theorem dirty?_install {installed : PageTable} {base : Nat} {writable : Bool}
    (done : table.install? va base writable = some installed) (other : Nat) :
    installed.dirty? other = if pageBase va = other then some false else table.dirty? other := by
  unfold install? at done
  split at done
  · cases done
  · cases done
    simp only [dirty?, Std.ExtTreeMap.getElem?_insert, Std.LawfulEqCmp.compare_eq_iff_eq]
    split <;> rfl

theorem dirty?_setDirty (on : Bool) :
    (table.setDirty va on).dirty? other =
      if pageBase va = other then (table.dirty? other).map fun _ => on else table.dirty? other := by
  simp only [dirty?, setDirty, Std.ExtTreeMap.getElem?_modify, Std.LawfulEqCmp.compare_eq_iff_eq]
  split
  · rename_i here
    rw [here, Option.map_map, Option.map_map]
    rfl
  · rfl

theorem dirty?_setAccessed (on : Bool) :
    (table.setAccessed va on).dirty? other = table.dirty? other := by
  simp only [dirty?, setAccessed, Std.ExtTreeMap.getElem?_modify, Std.LawfulEqCmp.compare_eq_iff_eq]
  split
  · rename_i here
    rw [here, Option.map_map]
    rfl
  · rfl

end PageTable

/-- Where the regions and the stack pointer of a process are. -/
structure Layout where
  stackPointer : Nat
  regions : Std.ExtTreeMap Nat Region

/-- Every region is recorded where it starts. -/
def Layout.IsKeyed (layout : Layout) : Prop :=
  ∀ (base : Nat) (region : Region), layout.regions[base]? = some region → region.base = base

def AddressSpace.layout (space : AddressSpace) : Layout where
  stackPointer := space.stackPointer
  regions := space.regions

namespace Pager

/-- Whether the page of a process that starts at an address was changed since it got its frame. -/
def dirtyOf (pager : Pager) : Owner → Option Bool :=
  pager.shown fun space va => space.table.dirty? va

/-- The layout of a process. -/
def layout? (pager : Pager) (pid : Pid) : Option Layout :=
  (pager.space? pid).map AddressSpace.layout

/-- The region of a process that starts at an address. -/
def region? (pager : Pager) (pid : Pid) (base : Nat) : Option Region :=
  (pager.layout? pid).bind fun layout => layout.regions[base]?

variable {pager : Pager} {pid : Pid} {owner : Owner} {frame : Nat}

theorem layout?_eq_none_iff : pager.layout? pid = none ↔ pager.space? pid = none :=
  Option.map_eq_none_iff

theorem region?_of_space {space : AddressSpace} (found : pager.space? pid = some space) (base : Nat) :
    pager.region? pid base = space.regions[base]? := by
  rw [region?, layout?, found]
  rfl

theorem region?_of_absent (absent : pager.space? pid = none) (base : Nat) :
    pager.region? pid base = none := by
  rw [region?, layout?, absent]
  rfl

theorem isDirty_eq (aligned : pageBase owner.va = owner.va) :
    (pager.table owner.pid).isDirty owner.va = (pager.dirtyOf owner).getD false := by
  rw [PageTable.isDirty_eq, aligned, table, dirtyOf, shown]
  cases pager.space? owner.pid with
  | none => simp [PageTable.empty, PageTable.dirty?]
  | some space => rfl

theorem isDirty_iff (aligned : pageBase owner.va = owner.va) :
    (pager.table owner.pid).isDirty owner.va = true ↔ pager.dirtyOf owner = some true := by
  rw [isDirty_eq aligned]
  cases pager.dirtyOf owner <;> simp

theorem isSome_dirtyOf : (pager.dirtyOf owner).isSome = (pager.ledger.translations owner).isSome := by
  simp only [dirtyOf, ledger, translationOf, shown]
  cases pager.space? owner.pid with
  | none => rfl
  | some space => exact space.table.isSome_dirty? owner.va

/-! ## Changes of one process -/

theorem layout?_modifySpace
    {change : AddressSpace → AddressSpace} (same : ∀ space, (change space).layout = space.layout) :
    (pager.modifySpace pid change).layout? = pager.layout? := by
  funext other
  rw [layout?, space?_modifySpace]
  split
  · rw [Option.map_map]
    exact congrArg (Option.map · _) (funext same)
  · rfl

@[simp]
theorem layout?_modifyTable (change : PageTable → PageTable) :
    (pager.modifyTable pid change).layout? = pager.layout? :=
  layout?_modifySpace fun _ => rfl

@[simp]
theorem layout?_modifyPage (va : Nat) (change : Page → Page) :
    (pager.modifyPage pid va change).layout? = pager.layout? :=
  layout?_modifySpace fun _ => rfl

@[simp]
theorem dirtyOf_modifyPage (va : Nat) (change : Page → Page) :
    (pager.modifyPage pid va change).dirtyOf = pager.dirtyOf :=
  pager.shown_modifySpace_of_same pid fun _ _ => rfl

@[simp]
theorem layout?_erasePage : (pager.erasePage owner).layout? = pager.layout? :=
  layout?_modifySpace fun _ => rfl

@[simp]
theorem dirtyOf_erasePage : (pager.erasePage owner).dirtyOf = pager.dirtyOf :=
  pager.shown_modifySpace_of_same owner.pid fun _ _ => rfl

theorem dirtyOf_setAccessed (va : Nat) (on : Bool) :
    (pager.modifyTable pid fun table => table.setAccessed va on).dirtyOf = pager.dirtyOf :=
  pager.shown_modifySpace_of_same pid fun _ _ => PageTable.dirty?_setAccessed on

theorem dirtyOf_setDirty (va : Nat) (on : Bool) :
    (pager.modifyTable pid fun table => table.setDirty va on).dirtyOf =
      Function.update pager.dirtyOf ⟨pid, pageBase va⟩
        ((pager.dirtyOf ⟨pid, pageBase va⟩).map fun _ => on) := by
  apply shown_modifySpace_update
  · intro space found
    rw [PageTable.dirty?_setDirty, if_pos rfl, dirtyOf, shown, found]
    rfl
  · intro missing
    rw [dirtyOf, shown, missing]
    rfl
  · intro space _ other apart
    rw [PageTable.dirty?_setDirty, if_neg apart]

theorem dirtyOf_clear (va : Nat) :
    (pager.modifyTable pid fun table => table.clear va).dirtyOf =
      Function.update pager.dirtyOf ⟨pid, pageBase va⟩ none := by
  apply shown_modifySpace_update
  · intro space _
    rw [PageTable.dirty?_clear, if_pos rfl]
  · exact fun _ => rfl
  · intro space _ other apart
    rw [PageTable.dirty?_clear, if_neg apart]

theorem dirtyOf_install
    {space : AddressSpace} (found : pager.space? pid = some space)
    {table : PageTable} {va base : Nat} {writable : Bool}
    (done : space.table.install? va base writable = some table) :
    (pager.modifyTable pid fun _ => table).dirtyOf =
      Function.update pager.dirtyOf ⟨pid, pageBase va⟩ (some false) := by
  apply shown_modifySpace_update
  · intro space _
    rw [PageTable.dirty?_install done, if_pos rfl]
  · intro missing
    rw [missing] at found
    cases found
  · intro other same va apart
    rw [found] at same
    cases same
    rw [PageTable.dirty?_install done, if_neg apart]

/-! ## Moves -/

theorem layout?_clearTaken (before after : Candidates) :
    (pager.clearTaken before after).layout? = pager.layout? := by
  unfold clearTaken
  induction List.range before.size generalizing pager with
  | nil => rfl
  | cons frame rest inductionHypothesis =>
      rw [List.foldl_cons, inductionHypothesis]
      split
      · unfold clearAccessed
        split
        · rfl
        · exact layout?_modifyTable _
      · rfl

theorem dirtyOf_clearTaken (before after : Candidates) :
    (pager.clearTaken before after).dirtyOf = pager.dirtyOf := by
  unfold clearTaken
  induction List.range before.size generalizing pager with
  | nil => rfl
  | cons frame rest inductionHypothesis =>
      rw [List.foldl_cons, inductionHypothesis]
      split
      · unfold clearAccessed
        split
        · rfl
        · exact dirtyOf_setAccessed _ false
      · rfl

theorem files_selected (pager : Pager) : pager.selected.files = pager.files := by
  obtain ⟨spaces, same⟩ := pager.clearTaken_eq pager.candidates
    (pager.frames.policy.select pager.candidates).2.1
  rw [selected, same]
  rfl

theorem swap_selected (pager : Pager) : pager.selected.swap = pager.swap := by
  obtain ⟨spaces, same⟩ := pager.clearTaken_eq pager.candidates
    (pager.frames.policy.select pager.candidates).2.1
  rw [selected, same]
  rfl

theorem layout?_selected (pager : Pager) : pager.selected.layout? = pager.layout? :=
  layout?_clearTaken ..

theorem dirtyOf_selected (pager : Pager) : pager.selected.dirtyOf = pager.dirtyOf :=
  dirtyOf_clearTaken ..

/-- What is written of a page of a file. -/
def written (pager : Pager) (range : FileRange) (frame : Nat) : FileTable × Option Nat :=
  pager.files.writeAt range.file range.offset ((pager.frames.image frame).slice 0 range.length)

theorem writeBack_of_dirty
    {range : FileRange} (dirty : (pager.table owner.pid).isDirty owner.va = true) :
    pager.writeBack owner range frame =
      { (pager.modifyTable owner.pid fun table => table.setDirty owner.va false) with
        files := (pager.written range frame).1
        counters :=
          { pager.counters with
            writeBacks :=
              if (pager.written range frame).2.isSome then pager.counters.writeBacks + 1
              else pager.counters.writeBacks }
        journal :=
          .wroteBack owner range (pager.written range frame).2.isSome :: pager.journal } := by
  rw [writeBack, if_pos dirty]
  rfl

theorem writeBack_of_clean
    {range : FileRange} (clean : (pager.table owner.pid).isDirty owner.va = false) :
    pager.writeBack owner range frame = pager := by
  rw [writeBack, clean, if_neg Bool.false_ne_true]

theorem files_writeBack (range : FileRange) :
    (pager.writeBack owner range frame).files =
      if (pager.table owner.pid).isDirty owner.va then (pager.written range frame).1
      else pager.files := by
  cases dirty : (pager.table owner.pid).isDirty owner.va with
  | false => rw [writeBack_of_clean dirty, if_neg Bool.false_ne_true]
  | true => rw [writeBack_of_dirty dirty, if_pos rfl]

theorem layout?_writeBack (range : FileRange) :
    (pager.writeBack owner range frame).layout? = pager.layout? := by
  cases dirty : (pager.table owner.pid).isDirty owner.va with
  | false => rw [writeBack_of_clean dirty]
  | true =>
      rw [writeBack_of_dirty dirty]
      exact @layout?_modifyTable pager owner.pid fun table => table.setDirty owner.va false

/-- A page that was written back is clean. -/
theorem dirtyOf_writeBack (aligned : pageBase owner.va = owner.va) (range : FileRange) :
    (pager.writeBack owner range frame).dirtyOf =
      Function.update pager.dirtyOf owner ((pager.dirtyOf owner).map fun _ => false) := by
  cases dirty : (pager.table owner.pid).isDirty owner.va with
  | true =>
      have cleaned := @dirtyOf_setDirty pager owner.pid owner.va false
      rw [aligned] at cleaned
      rw [writeBack_of_dirty dirty]
      exact cleaned
  | false =>
      rw [writeBack_of_clean dirty]
      rw [isDirty_eq aligned] at dirty
      have same : (pager.dirtyOf owner).map (fun _ => false) = pager.dirtyOf owner := by
        cases bit : pager.dirtyOf owner with
        | none => rfl
        | some changed =>
            rw [bit] at dirty
            exact congrArg some dirty.symm
      rw [same, Function.update_eq_self]

@[simp]
theorem layout?_detached : (pager.detached owner).layout? = pager.layout? :=
  (layout?_modifyPage ..).trans (layout?_modifyTable _)

theorem dirtyOf_detached (aligned : pageBase owner.va = owner.va) :
    (pager.detached owner).dirtyOf = Function.update pager.dirtyOf owner none := by
  have cleared := @dirtyOf_clear pager owner.pid owner.va
  rw [aligned] at cleared
  exact (dirtyOf_modifyPage ..).trans cleared

@[simp]
theorem layout?_attached (table : PageTable) :
    (pager.attached owner frame table).layout? = pager.layout? :=
  (layout?_modifyPage ..).trans (layout?_modifyTable _)

theorem dirtyOf_attached
    (aligned : pageBase owner.va = owner.va) {space : AddressSpace}
    (found : pager.space? owner.pid = some space) {table : PageTable} {writable : Bool}
    (installed : space.table.install? owner.va (frameBase frame) writable = some table) :
    (pager.attached owner frame table).dirtyOf =
      Function.update pager.dirtyOf owner (some false) := by
  have entered := dirtyOf_install found installed
  rw [aligned] at entered
  exact (dirtyOf_modifyPage ..).trans entered

theorem spaces_putFetched (kind : PageKind) (fetched : Fetched) :
    (pager.putFetched owner kind frame fetched).spaces = pager.spaces := by
  unfold putFetched noteTransfers noteLoad
  dsimp only
  split <;> split <;> rfl

theorem files_putFetched (kind : PageKind) (fetched : Fetched) :
    (pager.putFetched owner kind frame fetched).files = fetched.files := by
  unfold putFetched noteTransfers noteLoad
  dsimp only
  split <;> split <;> rfl

theorem swap_putFetched (kind : PageKind) (fetched : Fetched) :
    (pager.putFetched owner kind frame fetched).swap = fetched.swap := by
  unfold putFetched noteTransfers noteLoad
  dsimp only
  split <;> split <;> rfl

theorem layout?_putFetched (kind : PageKind) (fetched : Fetched) :
    (pager.putFetched owner kind frame fetched).layout? = pager.layout? := by
  funext other
  rw [layout?, layout?, space?, spaces_putFetched, space?]

theorem dirtyOf_putFetched (kind : PageKind) (fetched : Fetched) :
    (pager.putFetched owner kind frame fetched).dirtyOf = pager.dirtyOf := by
  funext other
  rw [dirtyOf, dirtyOf, shown, shown, space?, spaces_putFetched, space?]

end Pager

end DemandPaging
