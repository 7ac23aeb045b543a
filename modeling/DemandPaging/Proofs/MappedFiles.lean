import DemandPaging.Proofs.Mappings

/-!
# Mapped files

A mapping goes through calls in one of three ways: it lasts with what a call wrote there, it is removed, or
its process ends. While it lasts reads answer with what is promised, and its removal leaves that in the file.
-/

namespace DemandPaging

/-! ## What is written -/

/-- The byte that a call would write at an address of a process. -/
def Call.puts? (call : Call) (pid : Pid) (address : Nat) : Option UInt8 :=
  match call with
  | writeUser other va bytes => if other = pid ∧ va ≤ address then bytes[address - va]? else none
  | _ => none

/-- The byte that an event wrote at an address of a process. -/
def Event.wrote? (event : Event) (pid : Pid) (address : Nat) : Option UInt8 :=
  match event.outcome with
  | .ok _ => event.call.puts? pid address
  | .error _ => none

/-- The byte that was last written at an address of a process, the latest event first. -/
def lastWritten (pid : Pid) : List Event → Nat → Option UInt8
  | [], _ => none
  | event :: earlier, address => (event.wrote? pid address).or (lastWritten pid earlier address)

/-- The bytes that a call writes below an address, over what was written before. -/
def Call.putBelow (call : Call) (pid : Pid) (written : Nat → Option UInt8) (stop address : Nat) :
    Option UInt8 :=
  (if address < stop then call.puts? pid address else none).or (written address)

namespace Mapping

open Pager

variable {mapping : Mapping} {written : Nat → Option UInt8} {before middle after : Pager}
  {allowed : Deed → Prop} {event : Event} {call : Call} {position : Nat} {config : Config}
  {events : List Event}

/-! ## Removal -/

/-- What the removal of a mapping leaves: what was promised is in the backed range of the file, whose other
bytes are the same but for ranges of some kind. -/
structure Saved (mapping : Mapping) (written : Nat → Option UInt8) (others : FileRange → Prop)
    (before after : Pager) : Prop where
  size : (after.files.content mapping.file).size = (before.files.content mapping.file).size
  backed : ∀ position < mapping.backed, (after.files.content mapping.file)[mapping.offset + position]? =
    (written (mapping.base + position)).or mapping.content[mapping.offset + position]?
  elsewhere : ∀ index, index < mapping.offset ∨ mapping.offset + mapping.backed ≤ index →
    (∀ range, others range → ¬ range.Covers mapping.file index) →
      (after.files.content mapping.file)[index]? = (before.files.content mapping.file)[index]?

/-- The ranges of pages of the process outside the region that may be written. -/
def Neighbours (mapping : Mapping) (pager : Pager) (range : FileRange) : Prop :=
  ∃ owner page, pager.pageOf owner = some page ∧ owner.pid = mapping.pid ∧
    ¬ mapping.Contains owner ∧ page.kind.mapped? = some range ∧ page.writable = true

theorem promised_backed (inside : position < mapping.backed) :
    ∃ byte, mapping.promised written position = some byte ∧
      (written (mapping.base + position)).or mapping.content[mapping.offset + position]? = some byte := by
  have bound : mapping.offset + position < mapping.content.size := by
    rw [backed] at inside
    omega
  rw [promised, if_pos inside, Array.getElem?_eq_getElem bound]
  cases written (mapping.base + position) with
  | none => exact ⟨_, rfl, rfl⟩
  | some byte => exact ⟨_, rfl, rfl⟩

theorem lt_length_of_backed (inside : position < mapping.backed) :
    position < mapping.region.length := by
  simp only [backed, region, roundedLength, pageSize] at *
  omega

/-- While pages are displaced files change where those were mapped. -/
theorem Held.changedWithin
    {others : FileRange → Prop} (held : mapping.Held written before)
    (runs : Runs allowed before after) (sound : before.ledger.Sound none) (tidy : before.Tidy)
    (unreserved : ∀ owner page, ¬ allowed (.reserved owner page))
    (reached : ∀ {deed owner page old range}, allowed deed → deed.Displaces owner page →
      before.ledger.pages owner = some old → page.Alike old → old.kind.mapped? = some range →
        old.writable = true → mapping.Contains owner ∨ others range) :
    ChangedWithin (fun range => (∃ index, range = (mapping.page index).range) ∨ others range)
      before.files.content after.files.content := by
  apply runs.changedWithin sound tidy
  intro middle owner page range frame deed runs loaded writable permitted displaces
  obtain ⟨old, present, continues⟩ := runs.continued sound loaded.present (unreserved owner)
  have mapped : old.kind.mapped? = some range := by
    rw [← continues.mapped, loaded.file]
    rfl
  rcases reached permitted displaces present continues.toAlike mapped
    (continues.writable.symm.trans writable) with contains | other
  · obtain ⟨index, _, same⟩ := held.range_of_contains sound present mapped contains
    exact Or.inl ⟨index, same⟩
  · exact Or.inr other

/-- When the pages of a mapping are gone, what was promised is in the file. -/
theorem Held.saved
    {others : FileRange → Prop} (held : mapping.Held written before)
    (runs : Runs allowed before after) (sound : before.ledger.Sound none) (tidy : before.Tidy)
    (spares : ∀ {middle}, Runs allowed before middle → ∀ index, middle.Spares (mapping.page index))
    (saves : SavesAll mapping.file before after)
    (unreserved : ∀ owner page, ¬ allowed (.reserved owner page))
    (unaltered : ∀ deed owner, allowed deed → ¬ deed.Alters owner)
    (gone : ∀ index < mapping.region.pageCount,
      after.ledger.pages (mapping.page index).owner = none)
    (reached : ∀ {deed owner page old range}, allowed deed → deed.Displaces owner page →
      before.ledger.pages owner = some old → page.Alike old → old.kind.mapped? = some range →
        old.writable = true → mapping.Contains owner ∨ others range) :
    mapping.Saved written others before after := by
  have within := held.changedWithin runs sound tidy unreserved reached
  refine ⟨within.size _, fun position inside => ?_, fun index outside uncovered => ?_⟩
  · obtain ⟨inRegion, _⟩ := page_of_position held.aligned (lt_length_of_backed inside)
    have keeps := runs.keeps sound tidy (held.keeps inRegion) saves (fun runs => spares runs _)
      (fun _ => Or.inr (unreserved _)) fun deed permitted => unaltered deed _ permitted
    have clean : after.dirtyOf (mapping.page (position / pageSize)).owner ≠ some true := by
      rw [dirtyOf_of_vacant (runs.sound sound) fun page present => by
        rw [gone _ inRegion] at present
        cases present]
      exact nofun
    have inPage := Nat.mod_lt position (show 0 < pageSize by decide)
    obtain ⟨byte, promises, same⟩ := @promised_backed mapping written position inside
    have stored := keeps.stored clean (position % pageSize) byte
      ((lt_backed_iff inPage).mpr (by rwa [Nat.div_add_mod']))
      (by simpa only [Nat.div_add_mod'] using promises)
    rw [same, ← stored]
    congr 1
    show mapping.offset + position =
      mapping.offset + position / pageSize * pageSize + position % pageSize
    rw [Nat.add_assoc, Nat.div_add_mod']
  · by_contra changed
    obtain ⟨range, ⟨other, rfl⟩ | other, covers⟩ := within.covered _ _ changed
    · obtain ⟨_, above, below⟩ := backed_of_covers covers
      omega
    · exact uncovered range other covers

/-- The pages of a region are not there where its process is not. -/
theorem page_gone (gone : after.space? mapping.pid = none) (index : Nat) :
    after.ledger.pages (mapping.page index).owner = none :=
  pages_of_absent gone _

/-- The end of the process removes its mapping. -/
theorem Held.saved_of_ended
    (held : mapping.Held written before) (sound : before.ledger.Sound none) (tidy : before.Tidy)
    (ended : Ended mapping.pid before after)
    (spares : ∀ {middle}, Runs (Deed.Ends mapping.pid) before middle →
      ∀ index, middle.Spares (mapping.page index))
    (saves : SavesAll mapping.file before after) :
    mapping.Saved written (mapping.Neighbours before) before after := by
  apply held.saved ended.ends.runs sound tidy spares saves (fun _ _ => id)
    (fun _ _ ends => ends.uses.not_alters _) fun index _ => page_gone ended.gone index
  rintro _ owner page old range permitted (rfl | ⟨_, rfl | rfl⟩) present _ mapped writable
  · by_cases contains : mapping.Contains owner
    · exact Or.inl contains
    · exact Or.inr ⟨owner, old, present, permitted, contains, mapped, writable⟩
  · exact absurd permitted id
  · exact absurd permitted id

/-- Unmapping removes the mapping and nothing else. -/
theorem Held.saved_of_unmap
    {outcome : Except PagingError Answer} (held : mapping.Held written before)
    (sound : before.ledger.Sound none) (tidy : before.Tidy)
    (run : PagerM.attempt (Call.unmap mapping.pid mapping.base).perform before = .ok outcome after)
    (spares : ∀ {middle}, Runs ((Call.unmap mapping.pid mapping.base).Permits before) before middle →
      ∀ index, middle.Spares (mapping.page index))
    (saves : SavesAll mapping.file before after) :
    mapping.Saved written (fun _ => False) before after := by
  have start (index : Nat) : pageAligned (mapping.base + index * pageSize) = true :=
    pageAligned_add held.aligned
  rcases (meets_unmap sound mapping.pid mapping.base).of_answered run with
    ⟨_, _, reaches, _, gone⟩ | ⟨_, _, _, absent, _⟩
  · apply held.saved reaches.runs sound tidy (fun runs => spares (runs.mono fun _ => Or.inl)) saves
    · rintro owner page ⟨_, _, withdraws⟩
      exact withdraws
    · exact fun _ _ unmaps => unmaps.uses.not_alters _
    · intro index inside
      rw [Option.eq_none_iff_forall_ne_some]
      intro page present
      obtain ⟨old, presentOld, continues⟩ := reaches.runs.continued sound present
        fun _ ⟨_, _, withdraws⟩ => withdraws
      have owned := congrArg (Owner.mk mapping.pid) (pageBase_of_pageAligned (start index))
      apply gone mapping.region held.recorded index inside page (owned.symm ▸ present)
      rw [continues.region, ((held.keeps inside).alike presentOld).region]
      rfl
    · rintro _ ⟨pid, va⟩ page old range unmaps (rfl | ⟨_, rfl | rfl⟩) _ _ _ _
      · obtain ⟨region, recorded, rfl, _, index, inside, rfl⟩ := unmaps
        cases held.recorded.symm.trans recorded
        have contains := contains_page inside
        exact Or.inl ⟨rfl, (pageBase_of_pageAligned (start index)).symm ▸ contains.2⟩
      · obtain ⟨_, _, withdraws⟩ := unmaps
        exact absurd withdraws id
      · obtain ⟨_, _, withdraws⟩ := unmaps
        exact absurd withdraws id
  · have recorded := held.recorded
    rw [region?_of_absent absent] at recorded
    cases recorded

/-! ## Calls -/

/-- A call while a file is mapped: the process takes no part in a fork, and no write to the file fails. -/
structure Steps (mapping : Mapping) (event : Event) (before after : Pager) : Prop where
  run : PagerM.attempt event.call.perform before = .ok event.outcome after
  noted : after.journal = event.activity ++ before.journal
  unforked : ∀ parent child,
    event.call = .fork parent child → parent ≠ mapping.pid ∧ child ≠ mapping.pid
  saved : ∀ owner range,
    range.file = mapping.file → .wroteBack owner range false ∉ event.activity

theorem Steps.saves (steps : mapping.Steps event before after) :
    SavesAll mapping.file before after := by
  intro later noted owner range same
  rw [List.append_cancel_right (noted.symm.trans steps.noted)]
  exact steps.saved owner range same

/-- The calls that are about the mapping itself. -/
inductive Meant (mapping : Mapping) : Call → Prop
  | unmap : mapping.Meant (.unmap mapping.pid mapping.base)
  | exit : mapping.Meant (.exitProcess mapping.pid)
  | map (length : Nat) (writable : Bool) (file : FileId) (offset : Nat) :
      mapping.Meant (.map mapping.pid mapping.base length writable file offset)
  | write (va : Nat) (bytes : Array UInt8) : mapping.Meant (.writeUser mapping.pid va bytes)

/-- The other calls do nothing to the mapping. -/
theorem Held.spared_of_does
    {deed : Deed} (held : mapping.Held written before) (tidy : before.Tidy)
    (unforked : ∀ parent child,
      call = .fork parent child → parent ≠ mapping.pid ∧ child ≠ mapping.pid)
    (other : ¬ mapping.Meant call) (does : call.Does before deed) : mapping.IsSparedBy deed := by
  cases call with
  | createProcess => cases does; trivial
  | exitProcess pid => exact spared_of_ends does fun same => other (same ▸ .exit)
  | fork parent child =>
      obtain ⟨_, apart⟩ := unforked parent child rfl
      cases deed with
      | copied owner => exact fun same => apart (does.symm.trans same)
      | relaid pid reach => exact fun same => absurd (does.symm.trans same) apart
      | created | claimed | missed | reserved | dirtied | pinned | unpinned | reopened | closed => trivial
      | _ => exact absurd does id
  | allocate | allocateLazily | loadSegment => exact spared_of_lays does
  | setupStack pid =>
      cases deed with
      | relaid other reach =>
          rintro _ includes
          rw [does.2] at includes
          exact includes
      | _ => exact @spared_of_faults mapping _ pid does
  | setStackPointer =>
      cases does
      exact fun _ => id
  | claim | handlePageFault | readUser => exact spared_of_faults does
  | map pid base length writable file offset =>
      cases deed with
      | relaid _ _ =>
          obtain ⟨rfl, rfl⟩ := does
          rintro rfl rfl
          exact other (.map length writable file offset)
      | discarded owner page =>
          rintro ⟨index, inside, rfl⟩
          obtain ⟨page, present⟩ := held.present inside
          rw [does.2] at present
          cases present
      | reserved | reopened | closed => trivial
      | _ => exact absurd does id
  | unmap pid base =>
      cases deed with
      | relaid _ _ =>
          obtain ⟨rfl, rfl⟩ := does
          rintro rfl rfl
          exact other .unmap
      | discarded owner page =>
          obtain ⟨region, recorded, rfl, same, _⟩ := does
          rintro ⟨index, _, rfl⟩ mine
          obtain ⟨layout, found, kept⟩ := Option.bind_eq_some_iff.mp recorded
          have keyed := tidy.keyed _ layout found base region kept
          rw [same, Option.some.injEq, keyed] at mine
          exact other (mine ▸ .unmap)
      | closed => trivial
      | _ => obtain ⟨_, _, withdraws⟩ := does; exact absurd withdraws id
  | writeUser pid va bytes =>
      cases deed with
      | stored owner => exact fun same => other (by rw [← does, same]; exact .write va bytes)
      | _ => exact @spared_of_faults mapping _ pid does
  | stackPointer | pageType | isResident | stats | config => exact absurd does id

/-- They write nothing there either. -/
theorem puts?_of_not_meant (other : ¬ mapping.Meant call) (address : Nat) :
    call.puts? mapping.pid address = none := by
  cases call with
  | writeUser pid va bytes =>
      rw [Call.puts?]
      exact if_neg fun ⟨same, _⟩ => other (same ▸ .write va bytes)
  | _ => rfl

/-- What a call comes to for a mapping: the mapping lasts, it is removed, or its process ends after some bytes
of a write at most were written. -/
inductive Comes (mapping : Mapping) (written : Nat → Option UInt8) (event : Event)
    (before after : Pager) : Prop
  | lasts (kept : event.call ≠ .unmap mapping.pid mapping.base)
      (held : mapping.Held
        (fun address => (event.wrote? mapping.pid address).or (written address)) after)
  | unmapped (unmaps : event.call = .unmap mapping.pid mapping.base)
      (saved : mapping.Saved written (fun _ => False) before after)
  | ended {middle : Pager} (stop : Nat) (kept : event.call ≠ .unmap mapping.pid mapping.base)
      (does : Reaches (event.call.Does before) before middle)
      (ends : Ended mapping.pid middle after)
      (exits : event.call = .exitProcess mapping.pid → middle = before)
      (saved : mapping.Saved (event.call.putBelow mapping.pid written stop)
        (mapping.Neighbours middle) middle after)

theorem putBelow_zero (call : Call) (pid : Pid) : call.putBelow pid written 0 = written :=
  funext fun _ => by rw [Call.putBelow, if_neg (Nat.not_lt_zero _), Option.none_or]

theorem put_eq_putBelow (va : Nat) (bytes : Array UInt8) (stop : Nat) :
    put written va bytes 0 stop =
      (Call.writeUser mapping.pid va bytes).putBelow mapping.pid written (va + stop) := by
  funext address
  rw [put, Call.putBelow, Call.puts?]
  congr 1
  by_cases below : address < va + stop
  · by_cases started : va ≤ address <;> simp [below, started]
  · rw [if_neg (fun within => below within.2), if_neg below]

theorem put_eq_wrote (va : Nat) (bytes : Array UInt8) (answer : Answer) (activity : List Activity) :
    put written va bytes 0 bytes.size = fun address =>
      (Event.wrote? ⟨.writeUser mapping.pid va bytes, .ok answer, activity⟩ mapping.pid address).or
        (written address) := by
  funext address
  rw [put, Event.wrote?, Call.puts?]
  congr 1
  by_cases started : va ≤ address
  · by_cases below : address < va + bytes.size
    · simp [below, started]
    · rw [if_neg (fun within => below within.2), if_pos ⟨rfl, started⟩, Array.getElem?_eq_none (by omega)]
  · rw [if_neg (fun within => started within.1), if_neg (fun within => started within.2)]

/-- When the process ends what it wrote before is saved. -/
theorem Held.comes_ended
    (stop : Nat) (kept : event.call ≠ .unmap mapping.pid mapping.base)
    (held : mapping.Held (event.call.putBelow mapping.pid written stop) middle)
    (sound : before.ledger.Sound none) (tidy : before.Tidy)
    (does : Reaches (event.call.Does before) before middle) (ended : Ended mapping.pid middle after)
    (exits : event.call = .exitProcess mapping.pid → middle = before)
    (ends : ∀ deed, deed.Ends mapping.pid → event.call.Permits before deed)
    (spares : ∀ {later}, Runs (event.call.Permits before) before later →
      ∀ index, later.Spares (mapping.page index))
    (saves : SavesAll mapping.file before after) : mapping.Comes written event before after := by
  have middleSound := does.runs.sound sound
  obtain ⟨_, last⟩ := saves.split (does.runs.journal sound) (ended.ends.runs.journal middleSound)
  have first : Runs (event.call.Permits before) before middle := does.runs.mono fun _ => Or.inl
  exact .ended stop kept does ended exits (held.saved_of_ended middleSound (does.runs.tidy sound tidy) ended
    (fun runs => spares (first.trans (runs.mono ends))) last)

/-- A write that is answered is seen in the mapping, and one that fails ends the process. -/
theorem Held.comes_written
    {va : Nat} {bytes : Array UInt8} {outcome : Except PagingError Answer}
    (held : mapping.Held written before) (orderly : before.Orderly config events)
    (run : PagerM.attempt (Call.writeUser mapping.pid va bytes).perform before = .ok outcome after)
    (spares : ∀ {later}, Runs ((Call.writeUser mapping.pid va bytes).Permits before) before later →
      ∀ index, later.Spares (mapping.page index))
    (saves : SavesAll mapping.file before after) (activity : List Activity) :
    mapping.Comes written ⟨.writeUser mapping.pid va bytes, outcome, activity⟩ before after := by
  have sound := orderly.sound
  have tidy := orderly.tidy
  have ready := orderly.unpinned.ready sound
  rcases (meets_writeUser ready ..).of_answered run with
    ⟨_, rfl, _, _, stores⟩ | ⟨_, _, _, middle, amends, ⟨stop, stores⟩, killed⟩
  · obtain ⟨_, heldThen⟩ := held.of_stores stores sound tidy
      (fun runs => spares (runs.mono fun _ => Or.inl)) saves
    rw [put_eq_wrote va bytes _ activity] at heldThen
    exact .lasts nofun heldThen
  · have ended := killed.toEnded
    have writes := amends.mono fun _ permitted => permitted.1.writes
    obtain ⟨first, _⟩ := saves.split (writes.runs.journal sound)
      (ended.ends.runs.journal (writes.runs.sound sound))
    obtain ⟨_, heldThen⟩ := held.of_stores stores sound tidy
      (fun runs => spares (runs.mono fun _ => Or.inl)) first
    rw [@put_eq_putBelow mapping] at heldThen
    exact Held.comes_ended (va + stop) nofun heldThen sound tidy writes ended nofun
      (fun _ ends => Or.inr ⟨_, rfl, ends⟩) spares saves

/-- A call that is not about the mapping leaves it as it is, or ends its process. -/
theorem Held.comes_of_not_meant
    (held : mapping.Held written before) (orderly : before.Orderly config events)
    (steps : mapping.Steps event before after)
    (spares : ∀ {later}, Runs (event.call.Permits before) before later →
      ∀ index, later.Spares (mapping.page index))
    (other : ¬ mapping.Meant event.call) : mapping.Comes written event before after := by
  have saves := steps.saves
  have sound := orderly.sound
  have tidy := orderly.tidy
  have unwritten : (fun address => (event.wrote? mapping.pid address).or (written address)) = written := by
    funext address
    obtain ⟨call, outcome, activity⟩ := event
    cases outcome <;> simp [Event.wrote?, puts?_of_not_meant other]
  have kept : event.call ≠ .unmap mapping.pid mapping.base := fun unmaps => other (unmaps ▸ .unmap)
  have spared (deed : Deed) (does : event.call.Does before deed) : mapping.IsSparedBy deed :=
    held.spared_of_does tidy steps.unforked other does
  rcases (orderly.performs steps.run).2.1 with does | ⟨pid, middle, victim, does, ended⟩
  · apply Comes.lasts kept
    rw [unwritten]
    exact held.of_runs does.runs sound tidy spared (fun runs => spares (runs.mono fun _ => Or.inl)) saves
  · by_cases mine : pid = mapping.pid
    · subst mine
      obtain ⟨first, _⟩ := saves.split (does.runs.journal sound)
        (ended.ends.runs.journal (does.runs.sound sound))
      have heldThen := held.of_runs does.runs sound tidy spared
        (fun runs => spares (runs.mono fun _ => Or.inl)) first
      exact Held.comes_ended 0 kept (by rw [putBelow_zero]; exact heldThen) sound tidy does ended
        (fun exits => absurd ((show event.call = _ from exits) ▸ Meant.exit) other)
        (fun _ ends => Or.inr ⟨_, victim, ends⟩) spares saves
    · apply Comes.lasts kept
      rw [unwritten]
      have first : Runs (fun deed => event.call.Permits before deed ∧ mapping.IsSparedBy deed)
          before middle := does.runs.mono fun deed does => ⟨Or.inl does, spared deed does⟩
      exact held.of_runs (first.trans (ended.ends.runs.mono fun _ ends =>
        ⟨Or.inr ⟨pid, victim, ends⟩, spared_of_ends ends mine⟩)) sound tidy (fun _ => And.right)
          (fun runs => spares (runs.mono fun _ => And.left)) saves

/-- A mapping that nobody interferes with goes through every call. -/
theorem Held.comes
    (held : mapping.Held written before) (orderly : before.Orderly config events)
    (alone : mapping.Alone before) (steps : mapping.Steps event before after) :
    mapping.Comes written event before after := by
  obtain ⟨call, outcome, activity⟩ := event
  have saves := steps.saves
  have run : PagerM.attempt call.perform before = .ok outcome after := steps.run
  have sound := orderly.sound
  have tidy := orderly.tidy
  have spares {middle : Pager} (runs : Runs (call.Permits before) before middle) (index : Nat) :
      middle.Spares (mapping.page index) :=
    held.spares sound alone (fun parent child forks => (steps.unforked parent child forks).1) runs index
  by_cases meant : mapping.Meant call
  · cases meant with
    | unmap => exact .unmapped rfl (held.saved_of_unmap sound tidy run spares saves)
    | exit =>
        have ended : Ended mapping.pid before after := by
          rcases (ends_exitProcess sound).of_answered run with ⟨_, _, _, ended⟩ | ⟨_, _, _, ended⟩
          · exact ended
          · exact ended
        exact Held.comes_ended 0 nofun (by rw [putBelow_zero]; exact held) sound tidy (.refl before) ended
          (fun _ => rfl) (fun _ => Or.inl) spares saves
    | map length writable file offset =>
        have occupied : before.ledger.pages ⟨mapping.pid, mapping.base⟩ ≠ none := by
          obtain ⟨page, present⟩ := held.present held.occupied
          rw [owner_page_zero] at present
          rw [present]
          exact nofun
        rcases (meets_map (orderly.unpinned.ready sound) ..).of_answered run with
          ⟨_, _, _, vacant, _⟩ | ⟨_, rfl, _, same | ⟨vacant, _⟩⟩
        · exact absurd vacant occupied
        · exact .lasts nofun (same ▸ held)
        · exact absurd vacant occupied
    | write va bytes => exact held.comes_written orderly run spares saves activity
  · exact held.comes_of_not_meant orderly steps spares meant

end Mapping

end DemandPaging
