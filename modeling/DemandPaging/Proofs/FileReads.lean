import DemandPaging.Proofs.Fetching

/-!
# Reads of files

Files are read only to fetch pages: the reads that a file is asked for are the attempts to fetch a page that has
a range of it then.
-/

namespace DemandPaging

namespace FileTable

variable {table : FileTable} {file other : FileId}

/-- The number of reads that a file was asked for. -/
def readsOf (table : FileTable) (file : FileId) : Option Nat :=
  (table.get? file).map fun backing => backing.reads.asked

private theorem map_add_zero (count : Option Nat) : count.map (· + 0) = count := by
  cases count <;> rfl

/-- What replaces a file leaves the reads of the other files as they are. -/
private theorem readsOf_put {backing : BackingFile} {file : FileId} (found : table.get? file = some backing)
    (new : BackingFile) (other : FileId) :
    (table.put file new).readsOf other = if file = other then some new.reads.asked else table.readsOf other := by
  have inside : file < table.files.size := (Array.getElem?_eq_some_iff.mp found).1
  simp only [readsOf, get?, put, Array.getElem?_setIfInBounds]
  by_cases same : file = other
  · rw [if_pos same, if_pos (same ▸ inside), if_pos same]
    rfl
  · rw [if_neg same, if_neg same]

private theorem readsOf_put_of_same {backing new : BackingFile} (found : table.get? file = some backing)
    (same : new.reads = backing.reads) : (table.put file new).readsOf = table.readsOf := by
  funext other
  rw [readsOf_put found]
  split
  · rename_i here
    rw [← here, readsOf, found, Option.map_some, same]
  · rfl

theorem readsOf_reopen (table : FileTable) (file : FileId) :
    (table.reopen file).1.readsOf = table.readsOf := by
  unfold reopen
  cases found : table.get? file with
  | none => rfl
  | some backing => exact readsOf_put_of_same found rfl

theorem readsOf_close (table : FileTable) (file : FileId) : (table.close file).readsOf = table.readsOf := by
  unfold close
  cases found : table.get? file with
  | none => rfl
  | some backing => exact readsOf_put_of_same found rfl

theorem readsOf_writeAt (table : FileTable) (file : FileId) (offset : Nat) (bytes : Array UInt8) :
    (table.writeAt file offset bytes).1.readsOf = table.readsOf := by
  unfold writeAt
  cases found : table.get? file with
  | none => rfl
  | some backing =>
      refine readsOf_put_of_same found ?_
      unfold BackingFile.writeAt
      split <;> rfl

theorem readsOf_readAt (table : FileTable) (file : FileId) (offset length : Nat) (other : FileId) :
    (table.readAt file offset length).1.readsOf other =
      (table.readsOf other).map (· + if file = other then 1 else 0) := by
  unfold readAt
  cases found : table.get? file with
  | none =>
      by_cases here : file = other
      · rw [← here, readsOf, found]
        rfl
      · rw [if_neg here, map_add_zero]
  | some backing =>
      have asked : (backing.readAt offset length).1.reads.asked = backing.reads.asked + 1 := by
        unfold BackingFile.readAt
        split <;> rfl
      refine (readsOf_put found _ other).trans ?_
      by_cases here : file = other
      · rw [if_pos here, asked, ← here, readsOf, found, if_pos rfl]
        rfl
      · rw [if_neg here, if_neg here, map_add_zero]

end FileTable

/-- A page is read from the file that its range is in, by one read. -/
theorem PageKind.readsOf_fetch
    (kind : PageKind) (swap : SwapSpace) (files : FileTable) (image : Image) (file : FileId) :
    (kind.fetch swap files image).files.readsOf file =
      (files.readsOf file).map (· + if kind.handle? = some file then 1 else 0) := by
  have unread {kind : PageKind} (without : kind.handle? ≠ some file) :
      files.readsOf file = (files.readsOf file).map (· + if kind.handle? = some file then 1 else 0) := by
    rw [if_neg without, FileTable.map_add_zero]
  have read {range : FileRange} {kind : PageKind} (holds : kind.handle? = some range.file) :
      (files.readAt range.file range.offset range.length).1.readsOf file =
        (files.readsOf file).map (· + if kind.handle? = some file then 1 else 0) := by
    rw [files.readsOf_readAt, holds]
    simp only [Option.some.injEq]
  rcases kind with (_ | range | range) | (_ | slot) | range
  case pending.zero | anonymous.none => exact unread nofun
  case anonymous.some =>
    refine Eq.trans ?_ (unread nofun)
    unfold fetch
    dsimp only
    split <;> rfl
  case pending.segment =>
    refine Eq.trans ?_ (read rfl)
    unfold fetch
    dsimp only
    split
    · rename_i found
      rw [found]
    · rename_i found
      rw [found]
      split
      · exact congrFun (FileTable.readsOf_close ..) file
      · rfl
  case pending.mapped | file =>
    refine Eq.trans ?_ (read rfl)
    unfold fetch
    dsimp only
    split
    · rename_i found
      rw [found]
    · rename_i found
      rw [found]

/-- Whether something that happened was an attempt to read a file. -/
def Activity.readsFrom (file : FileId) : Activity → Bool
  | fetched _ kind _ => decide (kind.handle? = some file)
  | _ => false

namespace Activity

variable {owner : Owner} {kind : PageKind} {succeeded : Bool} {image : Image}
  {journal earlier : List Activity} {file : FileId}

/-- What is noted when it was attempted to fetch a page: the attempt, the first content if there is one, and the
transfers that led to it. -/
def attempted (owner : Owner) (kind : PageKind) (succeeded : Bool) (image : Image)
    (transfers : List Activity) : List Activity :=
  .fetched owner kind succeeded :: ((if succeeded then kind.firstLoads owner image else []) ++ transfers)

theorem attempted_append :
    attempted owner kind succeeded image (journal ++ earlier) =
      attempted owner kind succeeded image journal ++ earlier := by
  simp [attempted]

theorem countP_readsFrom_of_transfers (are : ∀ activity ∈ journal, activity.IsTransfer) :
    journal.countP (readsFrom file) = 0 := by
  rw [List.countP_eq_zero]
  intro activity member reads
  have now := are activity member
  cases activity <;> first | cases reads | exact now

/-- An attempt to fetch a page counts as one read if the page has a range of the file. -/
theorem countP_readsFrom_attempted (are : ∀ activity ∈ journal, activity.IsTransfer) :
    (attempted owner kind succeeded image journal).countP (readsFrom file) =
      if kind.handle? = some file then 1 else 0 := by
  have loads : (if succeeded then kind.firstLoads owner image else []).countP (readsFrom file) = 0 := by
    cases succeeded <;> cases kind <;> simp [PageKind.firstLoads, readsFrom]
  rw [attempted, List.countP_cons, List.countP_append, loads, countP_readsFrom_of_transfers are]
  simp [readsFrom]

end Activity

namespace Pager

variable {before middle held saved after : Pager} {deed : Deed} {allowed : Deed → Prop} {owner : Owner}
  {page : Page} {frame : Nat} {journal later earlier : List Activity}

/-- What files were asked to read in the meantime is noted. -/
structure Reads (before after : Pager) (journal : List Activity) : Prop where
  noted : after.journal = journal ++ before.journal
  asked : ∀ file, after.files.readsOf file =
    (before.files.readsOf file).map (· + journal.countP (Activity.readsFrom file))

theorem Reads.trans (first : Reads before middle earlier) (second : Reads middle after later) :
    Reads before after (later ++ earlier) where
  noted := by rw [second.noted, first.noted, List.append_assoc]
  asked file := by
    rw [second.asked, first.asked, Option.map_map, List.countP_append]
    cases before.files.readsOf file with
    | none => rfl
    | some count => simp [Nat.add_comm]

theorem reads_of_transfers
    (noted : after.journal = journal ++ before.journal) (are : ∀ activity ∈ journal, activity.IsTransfer)
    (same : after.files.readsOf = before.files.readsOf) : Reads before after journal := by
  refine ⟨noted, fun file => ?_⟩
  rw [same, Activity.countP_readsFrom_of_transfers are, FileTable.map_add_zero]

/-! ## Turns and runs -/

theorem readsOf_writeBack (pager : Pager) (owner : Owner) (range : FileRange) (frame : Nat) :
    (pager.writeBack owner range frame).files.readsOf = pager.files.readsOf := by
  rw [files_writeBack]
  split
  · exact FileTable.readsOf_writeAt ..
  · rfl

theorem Saves.readsOf (saves : before.Saves owner page frame saved) :
    saved.files.readsOf = before.files.readsOf := by
  cases saves with
  | toSlot => rfl
  | toFile file => exact before.readsOf_writeBack ..

theorem Acquires.reads (acquires : before.Acquires owner frame held) :
    ∃ journal, (∀ activity ∈ journal, activity.IsTransfer) ∧ Reads before held journal := by
  obtain ⟨journal, are, noted⟩ := acquires.journal
  refine ⟨journal, are, reads_of_transfers noted are ?_⟩
  cases acquires with
  | free taken => rfl
  | evicted full chosen present resident saves =>
      rw [← before.files_selected]
      exact saves.readsOf

/-- A fetch asks one read of the file that has the range of the page. -/
theorem reads_of_fetch
    {kind : PageKind} {swap : SwapSpace} {image content : Image} {succeeded : Bool}
    (files : after.files = (kind.fetch swap held.files content).files)
    (are : ∀ activity ∈ journal, activity.IsTransfer)
    (noted : after.journal = Activity.attempted owner kind succeeded image (journal ++ held.journal)) :
    ∃ journal, Reads held after journal := by
  refine ⟨Activity.attempted owner kind succeeded image journal, ?_, fun file => ?_⟩
  · rw [noted, Activity.attempted_append]
  · rw [files, PageKind.readsOf_fetch, Activity.countP_readsFrom_attempted are]

theorem Arrives.reads
    (arrives : held.Arrives owner frame after) (sound : held.ledger.Sound (some (owner, frame)))
    (present : held.ledger.pages owner = some page) : ∃ journal, Reads held after journal := by
  obtain ⟨image, transfers, _, _, are, noted⟩ := arrives.moves sound present
  cases arrives with
  | intro found presentThen absent installed fetch complete =>
      cases present.symm.trans presentThen
      refine @reads_of_fetch _ _ _ _ page.kind held.swap image (held.frames.image frame) true ?_ are noted
      rw [fetch]
      exact files_putFetched ..

theorem Returns.reads
    (returns : held.Returns owner frame after) (sound : held.ledger.Sound (some (owner, frame)))
    (present : held.ledger.pages owner = some page) : ∃ journal, Reads held after journal := by
  obtain ⟨_, transfers, are, noted⟩ := returns.moves sound present
  obtain ⟨_, fetch, _, _, files⟩ := returns.fetches present
  refine @reads_of_fetch _ _ _ _ page.kind held.swap Image.zero (held.frames.image frame) false ?_ are noted
  rw [fetch]
  exact files

theorem reads_discarded (pager : Pager) (owner : Owner) (page : Page) :
    ∃ journal, Reads pager (pager.discarded owner page) journal := by
  obtain ⟨transfers, are, noted⟩ := pager.journal_discarded owner page
  generalize (pager.table owner.pid).isDirty owner.va = dirty at noted
  have same := @keeps_discarded _ owner page (fun other => other.files.readsOf) (fun _ _ => rfl)
    (fun other => other.readsOf_writeBack owner) (fun _ _ => rfl) (fun _ _ => rfl)
    (fun other file => FileTable.readsOf_close other.files file) (fun _ => rfl) pager
  refine ⟨transfers ++ [.discarded owner page dirty], ?_, fun file => ?_⟩
  · rw [List.append_assoc]
    exact noted
  · rw [List.countP_append, Activity.countP_readsFrom_of_transfers are]
    exact (congrFun same file).trans (FileTable.map_add_zero _).symm

/-- Files are read only to fetch pages. -/
theorem Turn.reads (turn : Turn deed before after) (sound : before.ledger.Sound none) :
    ∃ journal, Reads before after journal := by
  have still (noted : after.journal = before.journal)
      (same : after.files.readsOf = before.files.readsOf) : ∃ journal, Reads before after journal :=
    ⟨[], reads_of_transfers noted (by simp) same⟩
  cases turn with
  | reopened => exact still rfl (FileTable.readsOf_reopen ..)
  | closed => exact still rfl (FileTable.readsOf_close ..)
  | discarded => exact reads_discarded ..
  | claimed present absent acquires arrives =>
      obtain ⟨flying, presentThen⟩ := (acquires.moves sound).sound sound present absent
      obtain ⟨_, _, first⟩ := acquires.reads
      obtain ⟨_, second⟩ := arrives.reads flying presentThen
      exact ⟨_, first.trans second⟩
  | missed present absent acquires returns =>
      obtain ⟨flying, presentThen⟩ := (acquires.moves sound).sound sound present absent
      obtain ⟨_, _, first⟩ := acquires.reads
      obtain ⟨_, second⟩ := returns.reads flying presentThen
      exact ⟨_, first.trans second⟩
  | _ => exact still rfl rfl

theorem Runs.reads (runs : Runs allowed before after) (sound : before.ledger.Sound none) :
    ∃ journal, Reads before after journal := by
  induction runs with
  | refl => exact ⟨[], reads_of_transfers rfl (by simp) rfl⟩
  | tail runs permitted turn inductionHypothesis =>
      obtain ⟨earlier, first⟩ := inductionHypothesis
      obtain ⟨later, second⟩ := turn.reads (runs.sound sound)
      exact ⟨later ++ earlier, first.trans second⟩

theorem Breaks.reads (breaks : before.Breaks after) : ∃ journal, Reads before after journal := by
  have same : after.files.readsOf = before.files.readsOf := by rw [breaks.files]
  rcases breaks.slots with ⟨noted, _⟩ | ⟨owner, slot, reserved, stored, _, _, _, noted, _⟩
  · exact ⟨[], reads_of_transfers noted (by simp) same⟩
  · refine ⟨[.swapped owner .write slot (reserved.used.get slot) (stored.transfersSince reserved)],
      reads_of_transfers noted ?_ same⟩
    simp [Activity.IsTransfer]

/-- Whatever comes of a call, files are read by it only to fetch pages. -/
theorem Orderly.reads
    {config : Config} {events : List Event} (orderly : before.Orderly config events) (call : Call) :
    ∃ journal, Reads before (call.perform.leaves before) journal := by
  obtain ⟨last, runs, breaks⟩ := orderly.runs_leaves call
  obtain ⟨earlier, first⟩ := runs.reads orderly.sound
  obtain ⟨later, second⟩ := breaks.reads
  exact ⟨later ++ earlier, first.trans second⟩

end Pager

end DemandPaging
