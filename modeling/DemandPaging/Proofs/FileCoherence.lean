import DemandPaging.Proofs.MappedFiles
import DemandPaging.Proofs.Roster

/-!
# Mappings are coherent with their files

While a file is mapped, whatever is called and whichever pages lose their frames, reads of the mapping answer
with what its process last wrote there, or else with what the file had when it was mapped. When the mapping
is removed the file has those bytes.
-/

namespace DemandPaging

namespace Mapping

open Pager PagerM

variable {mapping : Mapping} {written : Nat → Option UInt8} {start before after pager : Pager}
  {answer : Answer} {config : Config} {events later : List Event} {event : Event}

/-! ## From the mapping to the removal -/

/-- The states that virtual memory can be in while a file is mapped and nobody else writes it, with the
events since it was mapped, the latest first. -/
inductive Lasts (mapping : Mapping) (start : Pager) : List Event → Pager → Prop
  | start (alone : mapping.Alone start) : mapping.Lasts start [] start
  | call {event : Event} {events : List Event} {before after : Pager}
      (lasts : mapping.Lasts start events before) (steps : mapping.Steps event before after)
      (alone : mapping.Alone after) (kept : event.call ≠ .unmap mapping.pid mapping.base)
      (alive : after.space? mapping.pid ≠ none) : mapping.Lasts start (event :: events) after
  | outside {events : List Event} {pager : Pager} {files : FileTable} {device : Device}
      (lasts : mapping.Lasts start events pager)
      (same : files.content mapping.file = pager.files.content mapping.file)
      (sectors : device.sectors = pager.swap.device.sectors) :
      mapping.Lasts start events
        { pager with files := files, swap := { pager.swap with device := device } }

/-- A file that was just mapped is held with nothing written. -/
theorem held_of_map
    (ready : before.Ready) (tidy : before.Tidy)
    (run : attempt mapping.call.perform before = .ok (.ok answer) after)
    (content : mapping.content = before.files.content mapping.file) :
    mapping.Held (fun _ => none) after := by
  rcases (meets_map ready ..).of_answered run with
    ⟨_, _, reaches, _, region, rfl, placed, recorded, present⟩ | ⟨_, same, _⟩
  · have unchanged : after.files.content mapping.file = mapping.content := by
      rw [content]
      refine (reaches.runs.changedWithin ready.sound tidy
        fun {middle owner page range frame deed} runs loaded _ permitted displaces => ?_).same_of_uncovered
          fun _ => False.elim
      have there := runs.loaded_before ready.sound (fun _ => id) loaded
      rcases displaces with rfl | ⟨_, rfl | rfl⟩
      · exact absurd (permitted.2.symm.trans there.present) nofun
      · exact permitted
      · exact permitted
    have laid {index : Nat} (inside : index < mapping.region.pageCount) :
        after.ledger.pages (mapping.page index).owner = some (mapping.page index).first := by
      rw [before.files.size_eq, ← content] at present
      exact present index inside
    have backs {index offset : Nat} (inPage : offset < (mapping.page index).range.length) :
        index * pageSize + offset < mapping.backed :=
      (lt_backed_iff (Nat.lt_of_lt_of_le inPage length_page_le)).mp inPage
    refine ⟨placed.pageCount_pos, placed.aligned, recorded, fun inside => ⟨_, laid inside⟩,
      fun {index} inside => ?_⟩
    constructor
    case behind => exact fun offset byte outside inPage => promised_behind outside inPage
    case inside =>
      intro offset inPage
      have bound := backs inPage
      show mapping.offset + index * pageSize + offset < (after.files.content mapping.file).size
      rw [unchanged]
      rw [backed] at bound
      omega
    case alike =>
      intro page there
      cases (laid inside).symm.trans there
      exact .refl _
    case held =>
      intro page frame there resident
      cases (laid inside).symm.trans there
      cases resident
    case stored =>
      intro _ offset byte inPage promises
      show (after.files.content mapping.file)[mapping.offset + index * pageSize + offset]? = some byte
      rw [unchanged, Nat.add_assoc]
      exact (if_pos (backs inPage)).symm.trans promises
  · cases same

/-- Other files and failures of the device do not matter to a mapping. -/
theorem Held.outside
    {files : FileTable} {device : Device} (held : mapping.Held written pager)
    (same : files.content mapping.file = pager.files.content mapping.file)
    (sectors : device.sectors = pager.swap.device.sectors) :
    mapping.Held written
      { pager with files := files, swap := { pager.swap with device := device } } := by
  have ledger := @ledger_outside pager files device sectors
  refine ⟨held.occupied, held.aligned, held.recorded, held.present, fun {index} inside => ?_⟩
  obtain ⟨behind, within, alike, filled, stored⟩ := held.keeps inside
  refine ⟨behind, fun offset inPage => ?_, alike, fun present resident => ?_,
    fun clean offset byte inPage promises => ?_⟩
  · exact (congrArg Array.size same).symm ▸ within offset inPage
  · rw [ledger]
    exact filled present resident
  · exact (congrArg (·[_]?) same).trans (stored clean offset byte inPage promises)

/-- As long as a mapping lasts it holds what was last written. -/
theorem Lasts.held
    (lasts : mapping.Lasts start later pager) (orderly : start.Orderly config events)
    (held : mapping.Held (fun _ => none) start) :
    (∃ all, pager.Orderly config all) ∧ mapping.Alone pager ∧
      mapping.Held (lastWritten mapping.pid later) pager := by
  induction lasts with
  | start alone => exact ⟨⟨events, orderly⟩, alone, held⟩
  | call _ steps alone kept alive inductionHypothesis =>
      obtain ⟨⟨all, orderlyThen⟩, aloneThen, heldThen⟩ := inductionHypothesis
      refine ⟨⟨_, orderlyThen.call steps.run steps.noted⟩, alone, ?_⟩
      cases heldThen.comes orderlyThen aloneThen steps with
      | lasts _ held => exact held
      | unmapped unmaps => exact absurd unmaps kept
      | ended stop _ does ends => exact absurd ends.gone alive
  | outside _ same sectors inductionHypothesis =>
      obtain ⟨⟨all, orderlyThen⟩, aloneThen, heldThen⟩ := inductionHypothesis
      exact ⟨⟨all, orderlyThen.outside _ sectors⟩, aloneThen, heldThen.outside same sectors⟩

/-- What is seen of a mapping is what is promised. -/
theorem Held.eq_of_seen
    {position : Nat} {byte : Option UInt8} {promise : UInt8} (held : mapping.Held written before)
    (sound : before.ledger.Sound none) (tidy : before.Tidy)
    (spares : ∀ {middle}, Runs (Deed.Faults mapping.pid) before middle →
      ∀ index, middle.Spares (mapping.page index))
    (saves : SavesAll mapping.file before after)
    (seen : Seen mapping.pid (mapping.base + position) byte before after)
    (inside : position < mapping.region.length)
    (promises : mapping.promised written position = some promise) : byte = some promise := by
  obtain ⟨middle, faults, ⟨page, frame, present, resident, rfl⟩, later⟩ := seen
  obtain ⟨first, _⟩ := saves.split (faults.journal sound) (later.journal (faults.sound sound))
  have heldThen := held.of_runs faults sound tidy (fun _ => spared_of_faults) spares first
  obtain ⟨inRegion, owned, offset⟩ := page_of_position held.aligned inside
  rw [← owned] at present
  rw [offset]
  apply (heldThen.keeps inRegion).held present resident
  · exact Nat.mod_lt position (by decide)
  · simpa only [Nat.div_add_mod'] using promises

/-- A read of a mapping answers with what is promised. -/
theorem Held.reads
    {va length : Nat} {bytes : Array UInt8} (held : mapping.Held written before)
    (orderly : before.Orderly config events) (alone : mapping.Alone before)
    (steps : mapping.Steps event before after) (call : event.call = .readUser mapping.pid va length)
    (outcome : event.outcome = .ok (.bytes bytes)) :
    bytes.size = length ∧ ∀ index position, index < length →
      va + index = mapping.base + position → position < roundedLength mapping.length →
        (position < mapping.backed → bytes[index]? =
          (written (va + index)).or mapping.content[mapping.offset + position]?) ∧
        (mapping.backed ≤ position → written (va + index) = none → bytes[index]? = some 0) := by
  have run := steps.run
  rw [call, outcome] at run
  have spares {middle : Pager} (faults : Runs (Deed.Faults mapping.pid) before middle) :
      ∀ index, middle.Spares (mapping.page index) := by
    have permits : Runs (event.call.Permits before) before middle :=
      faults.mono fun _ faults => Or.inl (by rw [call]; exact faults)
    exact held.spares orderly.sound alone
      (fun parent child forks => (steps.unforked parent child forks).1) permits
  obtain ⟨whole, seen⟩ := reads_of_run (orderly.unpinned.ready orderly.sound) run
  refine ⟨whole, fun index position inside same within => ?_⟩
  have seenHere := seen index inside
  rw [same] at seenHere ⊢
  have reads {promise : UInt8} := @Held.eq_of_seen mapping written before after position _ promise held
    orderly.sound orderly.tidy spares steps.saves seenHere within
  refine ⟨fun backed => ?_, fun behind unwritten => ?_⟩
  · obtain ⟨byte, promises, promised⟩ := promised_backed backed
    rw [promised]
    exact reads promises
  · apply reads
    rw [promised, if_neg (Nat.not_lt.mpr behind), unwritten]
    rfl

/-! ## Computing what lasts -/

/-- Whether a mapping is alone, computed over all pages. -/
def isAlone (mapping : Mapping) (pager : Pager) : Bool :=
  pager.roster.all fun (owner, page) =>
    match page.kind.mapped? with
    | some range => range.file != mapping.file || !page.writable || decide (owner.pid = mapping.pid ∧
        mapping.base ≤ owner.va ∧ owner.va < mapping.base + mapping.region.length)
    | none => true

theorem alone_of_isAlone (isAlone : mapping.isAlone pager = true) : mapping.Alone pager := by
  rintro owner page range index present mapped writable ⟨same, _⟩ _ _
  have listed := (mem_roster pager owner page).mpr present
  have checked := List.all_eq_true.mp isAlone _ listed
  simpa [mapped, same, writable, Contains] using checked

/-- Whether an event is one of a mapping that lasts. -/
def isKept (mapping : Mapping) (event : Event) (after : Pager) : Bool :=
  mapping.isAlone after && (after.space? mapping.pid).isSome &&
    (match event.call with
      | .fork parent child => parent != mapping.pid && child != mapping.pid
      | .unmap pid base => pid != mapping.pid || base != mapping.base
      | _ => true) &&
    event.activity.all fun activity =>
      match activity with
      | .wroteBack _ range false => range.file != mapping.file
      | _ => true

/-- The event of a call that was run. -/
def eventOf (call : Call) (outcome : Except PagingError Answer) (before after : Pager) : Event :=
  ⟨call, outcome, after.journalSince before⟩

theorem Lasts.of_isKept
    {call : Call} {outcome : Except PagingError Answer} (lasts : mapping.Lasts start later before)
    (orderly : before.Orderly config events) (run : attempt call.perform before = .ok outcome after)
    (isKept : mapping.isKept (eventOf call outcome before after) after) :
    mapping.Steps (eventOf call outcome before after) before after ∧
      mapping.Lasts start (eventOf call outcome before after :: later) after := by
  obtain ⟨_, _, _, tells⟩ := orderly.performs run
  simp only [Mapping.isKept, Bool.and_eq_true, List.all_eq_true] at isKept
  obtain ⟨⟨⟨alone, alive⟩, apart⟩, saved⟩ := isKept
  have steps : mapping.Steps (eventOf call outcome before after) before after := by
    refine ⟨run, journal_eq_since tells.noted, fun parent child forks => ?_,
      fun owner range same member => ?_⟩
    · rw [forks] at apart
      simpa using apart
    · simpa [same] using saved _ member
  refine ⟨steps, .call lasts steps (alone_of_isAlone alone) (fun unmaps => ?_) ?_⟩
  · rw [unmaps] at apart
    simp at apart
  · exact Option.isSome_iff_ne_none.mp alive

/-- The events of calls while a mapping lasts, put before earlier ones, and the state they lead to. -/
def follow (mapping : Mapping) (pager : Pager) (events : List Event) :
    List Call → Option (List Event × Pager)
  | [] => some (events, pager)
  | call :: rest =>
      match attempt call.perform pager with
      | .ok outcome after =>
          if mapping.isKept (eventOf call outcome pager after) after then
            mapping.follow after (eventOf call outcome pager after :: events) rest
          else none
      | .error _ _ => none

theorem Lasts.follow
    {calls : List Call} {latest : List Event} {final : Pager} (lasts : mapping.Lasts start later pager)
    (orderly : pager.Orderly config events)
    (followed : mapping.follow pager later calls = some (latest, final)) :
    mapping.Lasts start latest final ∧ ∃ all, final.Orderly config all := by
  induction calls generalizing later pager events with
  | nil =>
      cases followed
      exact ⟨lasts, events, orderly⟩
  | cons call rest inductionHypothesis =>
      unfold Mapping.follow at followed
      split at followed
      · rename_i outcome after run
        split at followed
        · rename_i isKept
          obtain ⟨steps, lastsThen⟩ := lasts.of_isKept orderly run isKept
          exact inductionHypothesis lastsThen (orderly.call run steps.noted) followed
        · cases followed
      · cases followed

end Mapping

section Laws

variable {config : Config} {kind : PolicyKind} {device : Device} {files : FileTable}
  {events later : List Event} {event : Event} {before start pager after : Pager} {answer : Answer}
  {mapping : Mapping}

/-- From the mapping of a file to its removal, as long as nobody else writes the bytes that back it and no
write to the file fails: a read answers with what the process last wrote, else with what the file had when
it was mapped, and with zeros behind the backed part. Unmapping leaves those bytes in the file and changes
nothing else. So does the end of the process, when it is called for and when a call breaks after some
bytes of a write, but for other pages of the process that may be written. -/
theorem mapping_coherent_with_file
    (history : History config kind device files events before)
    (run : PagerM.attempt mapping.call.perform before = .ok (.ok answer) start)
    (content : mapping.content = before.files.content mapping.file)
    (lasts : mapping.Lasts start later pager) (steps : mapping.Steps event pager after) :
    (∀ va length bytes,
      event.call = .readUser mapping.pid va length → event.outcome = .ok (.bytes bytes) →
        bytes.size = length ∧ ∀ index position, index < length →
          va + index = mapping.base + position → position < roundedLength mapping.length →
            (position < mapping.backed → bytes[index]? =
              (lastWritten mapping.pid later (va + index)).or
                mapping.content[mapping.offset + position]?) ∧
            (mapping.backed ≤ position → lastWritten mapping.pid later (va + index) = none →
              bytes[index]? = some 0)) ∧
    (event.call = .unmap mapping.pid mapping.base →
      mapping.Saved (lastWritten mapping.pid later) (fun _ => False) pager after) ∧
    (event.call ≠ .unmap mapping.pid mapping.base → after.space? mapping.pid = none →
      ∃ middle stop, Pager.Reaches (event.call.Does pager) pager middle ∧
        Pager.Ended mapping.pid middle after ∧
        (event.call = .exitProcess mapping.pid → middle = pager) ∧
        mapping.Saved (event.call.putBelow mapping.pid (lastWritten mapping.pid later) stop)
          (mapping.Neighbours middle) middle after) := by
  have orderlyBefore := history.orderly
  have held := Mapping.held_of_map (orderlyBefore.unpinned.ready orderlyBefore.sound)
    orderlyBefore.tidy run content
  obtain ⟨_, orderlyStart⟩ := orderlyBefore.ran run
  obtain ⟨⟨all, orderly⟩, alone, held⟩ := lasts.held orderlyStart held
  refine ⟨fun va length bytes call outcome => ?_, fun unmaps => ?_, fun kept gone => ?_⟩
  · exact held.reads orderly alone steps call outcome
  · cases held.comes orderly alone steps with
    | lasts kept => exact absurd unmaps kept
    | unmapped _ saved => exact saved
    | ended stop kept => exact absurd unmaps kept
  · cases held.comes orderly alone steps with
    | lasts _ held =>
        have recorded := held.recorded
        rw [Pager.region?_of_absent gone] at recorded
        cases recorded
    | unmapped unmaps => exact absurd unmaps kept
    | ended stop _ does ends exits saved => exact ⟨_, stop, does, ends, exits, saved⟩

/-- A mapping of a file of two bytes. -/
def twoBytes : Mapping where
  pid := 1
  base := 4096
  length := 2
  writable := true
  file := 0
  offset := 0
  content := #[1, 2]

/-- The mapped page is changed and loses its frame. -/
def changedPage : List Call :=
  [.writeUser 1 4096 #[7], .allocate 1 .anonymous 8192 true, .claim 1 8192]

/-- Whether the changed page is read after it lost its frame, and nothing came in between that changes the
file or a byte. -/
def isReadAfterChange : Bool :=
  ((Pager.create { frameCount := 1 } .fifo (Device.blank .memory 16)
      ⟨#[.create .memory #[1, 2]]⟩).play [] [.createProcess 1]).any fun created =>
    decide (twoBytes.content = created.2.files.content 0) &&
    match PagerM.attempt twoBytes.call.perform created.2 with
    | .ok (.ok _) start =>
        twoBytes.isAlone start && (twoBytes.follow start [] changedPage).any fun changed =>
          decide (lastWritten 1 changed.1 4096 = some 7 ∧ lastWritten 1 changed.1 4097 = none) &&
          match PagerM.attempt (Call.readUser 1 4096 2).perform changed.2 with
          | .ok (.ok (.bytes bytes)) after =>
              twoBytes.isKept (Mapping.eventOf (.readUser 1 4096 2) (.ok (.bytes bytes)) changed.2 after)
                after
          | _ => false
    | _ => false

/-- What was written is read again, and so is what the file had. -/
theorem mapping_coherent_with_file_of_two_bytes :
    ∃ start later pager event after bytes,
      (twoBytes.Lasts start later pager ∧ twoBytes.Steps event pager after ∧
        event.call = .readUser 1 4096 2 ∧ event.outcome = .ok (.bytes bytes)) ∧
      bytes[0]? = some 7 ∧ bytes[1]? = some 2 := by
  have ran : isReadAfterChange = true := by decide +kernel
  unfold isReadAfterChange at ran
  obtain ⟨⟨events, before⟩, played, ran⟩ := (Option.any_eq_true ..).mp ran
  simp only [Bool.and_eq_true, decide_eq_true_eq] at ran
  obtain ⟨content, ran⟩ := ran
  split at ran
  · rename_i answer start mapped
    obtain ⟨alone, ran⟩ := Bool.and_eq_true_iff.mp ran
    obtain ⟨⟨later, pager⟩, followed, ran⟩ := (Option.any_eq_true ..).mp ran
    simp only [Bool.and_eq_true, decide_eq_true_eq] at ran
    obtain ⟨⟨seven, unwritten⟩, ran⟩ := ran
    split at ran
    · rename_i bytes after read
      have history := History.start.play played
      obtain ⟨_, orderlyStart⟩ := history.orderly.ran mapped
      obtain ⟨lasts, _, orderly⟩ := (Mapping.Lasts.start (Mapping.alone_of_isAlone alone)).follow
        orderlyStart followed
      obtain ⟨steps, _⟩ := lasts.of_isKept orderly read ran
      obtain ⟨reads, _⟩ := mapping_coherent_with_file history mapped content lasts steps
      obtain ⟨_, bytes⟩ := reads 4096 2 bytes rfl rfl
      have first := (bytes 0 0 (by decide) rfl (by decide)).1 (by decide)
      have second := (bytes 1 1 (by decide) rfl (by decide)).1 (by decide)
      exact ⟨start, later, pager, _, after, _, ⟨lasts, steps, rfl, rfl⟩,
        first.trans (congrArg (Option.or · (some 1)) seven),
        second.trans (congrArg (Option.or · (some 2)) unwritten)⟩
    · cases ran
  · cases ran

end Laws

end DemandPaging
