import DemandPaging.Proofs.FailedReads
import DemandPaging.Proofs.SegmentContent
import DemandPaging.Proofs.ShortFiles

/-!
# Reading a segment

From its load on a segment reads as its part of the file and zeros behind it where nothing was written, in the
process that it was loaded for and in the children that came of it, whichever pages are touched in which order
and wherever they are moved. The file is read only when a page is touched, and has to have the bytes only then.
-/

namespace DemandPaging

namespace LoadedSegment

open Pager PagerM

variable {loaded : LoadedSegment} {pid child : Pid} {index position va length : Nat}
  {written : Nat → Prop} {start before after pager : Pager} {event : Event} {config : Config}
  {events : List Event} {error : PagingError}

/-- The states that virtual memory can be in while a process has a segment, from its load on, with the addresses
that were written. The process is the one that the segment was loaded for or a child that came of it by forks. -/
inductive Lasts (loaded : LoadedSegment) (start : Pager) : Pid → (Nat → Prop) → Pager → Prop
  | start : loaded.Lasts start loaded.pid (fun _ => False) start
  | call {pid : Pid} {written : Nat → Prop} {event : Event} {before after : Pager}
      (lasts : loaded.Lasts start pid written before) (steps : loaded.Steps pid event before after)
      (alive : after.space? pid ≠ none) : loaded.Lasts start pid (WrittenAfter event pid written) after
  | forked {pid child : Pid} {written : Nat → Prop} {answer : Answer} {activity : List Activity}
      {before after : Pager} (lasts : loaded.Lasts start pid written before)
      (steps : loaded.Steps pid ⟨.fork pid child, .ok answer, activity⟩ before after) :
      loaded.Lasts start child written after
  | outside {pid : Pid} {written : Nat → Prop} {pager : Pager} {files : FileTable} {device : Device}
      (lasts : loaded.Lasts start pid written pager) (same : device.sectors = pager.swap.device.sectors) :
      loaded.Lasts start pid written
        { pager with files := files, swap := { pager.swap with device := device } }

/-- Other files and failures of the device do not matter to a page once it has its bytes, nor before. -/
theorem Stands.outside
    {files : FileTable} {device : Device} (stands : loaded.Stands pid written index pager)
    (same : device.sectors = pager.swap.device.sectors) :
    loaded.Stands pid written index
      { pager with files := files, swap := { pager.swap with device := device } } := by
  have ledger := ledger_outside files same
  cases stands with
  | waits present => exact .waits present
  | filled present alike content shows =>
      refine .filled present alike ?_ shows
      rw [ledger]
      exact content

/-- All pages stand as long as the segment lasts. -/
theorem Lasts.stands
    (lasts : loaded.Lasts start pid written pager) (orderly : start.Orderly config events)
    (fits : loaded.Fits) (laid : ∀ index < loaded.segment.pageCount,
      start.pageOf (loaded.ownerAt loaded.pid index) = some (loaded.page index)) :
    (∃ all, pager.Orderly config all) ∧
      ∀ index < loaded.segment.pageCount, loaded.Stands pid written index pager := by
  induction lasts with
  | start => exact ⟨⟨events, orderly⟩, fun index inside => .waits (laid index inside)⟩
  | call _ steps alive inductionHypothesis =>
      obtain ⟨⟨all, orderlyThen⟩, stands⟩ := inductionHypothesis
      exact ⟨⟨_, orderlyThen.call steps.run steps.noted⟩,
        fun index inside => (stands index inside).call orderlyThen fits inside steps alive⟩
  | forked _ steps inductionHypothesis =>
      obtain ⟨⟨all, orderlyThen⟩, stands⟩ := inductionHypothesis
      exact ⟨⟨_, orderlyThen.call steps.run steps.noted⟩,
        fun index inside => (stands index inside).forked orderlyThen fits inside steps⟩
  | outside _ same inductionHypothesis =>
      obtain ⟨⟨all, orderlyThen⟩, stands⟩ := inductionHypothesis
      exact ⟨⟨all, orderlyThen.outside _ same⟩, fun index inside => (stands index inside).outside same⟩

/-! ## Reads -/

/-- The address of a position is in the page with the index of the position. -/
theorem owner_of_position
    (aligned : pageAligned loaded.segment.va = true) (inside : position < loaded.segment.size)
    (whole : pageAligned loaded.segment.size = true) (pid : Pid) :
    position / pageSize < loaded.segment.pageCount ∧
      (⟨pid, pageBase (loaded.segment.va + position)⟩ : Owner) =
        loaded.ownerAt pid (position / pageSize) ∧
      pageOffset (loaded.segment.va + position) = position % pageSize := by
  simp only [pageAligned, pageOffset, beq_iff_eq] at aligned whole
  simp only [ownerAt, page, Segment.page, Segment.pageCount, pageBase, pageOffset, pageSize, Owner.mk.injEq,
    true_and] at *
  omega

/-- A read that is answered brings the bytes of the segment where nothing was written. -/
theorem reads
    {bytes : Array UInt8} (orderly : before.Orderly config events) (fits : loaded.Fits)
    (aligned : pageAligned loaded.segment.va = true) (whole : pageAligned loaded.segment.size = true)
    (stands : ∀ index < loaded.segment.pageCount, loaded.Stands pid written index before)
    (steps : loaded.Steps pid event before after) (call : event.call = .readUser pid va length)
    (answered : event.outcome = .ok (.bytes bytes)) :
    bytes.size = length ∧ ∀ index position, index < length → va + index = loaded.segment.va + position →
      position < loaded.segment.size → ¬ written (va + index) → bytes[index]? = loaded.byte? position := by
  obtain ⟨sized, shown⟩ := orderly.readsFrom steps.run pid va length bytes call answered
  refine ⟨sized, fun index position inside here within unwritten => ?_⟩
  obtain ⟨held, present, content⟩ := shown index inside
  obtain ⟨_, found⟩ := space?_of_page present
  have alive : after.space? pid ≠ none := Option.ne_none_iff_exists'.mpr ⟨_, found⟩
  obtain ⟨inCount, owner, offset⟩ := owner_of_position aligned within whole pid
  rw [here, owner] at present content
  have standing := (stands _ inCount).call orderly fits inCount steps alive
  have anonymous : held.type = .anonymous := by
    obtain ⟨new, presentToo, alike⟩ := standing.exists_page
    cases present.symm.trans presentToo
    exact alike.type.trans (loaded.type_page _)
  obtain ⟨image, content, byte⟩ := content anonymous
  have address : (loaded.page (position / pageSize)).va + position % pageSize = va + index := by
    rw [here, page, Segment.va_page, Nat.add_assoc, Nat.div_add_mod']
  have untouched : ¬ WrittenAfter event pid written (va + index) := by
    rintro (wrote | wrote)
    · exact unwritten wrote
    · apply wrote
      rw [Event.wrote?, answered, call]
      rfl
  cases standing with
  | waits waiting =>
      rw [Ledger.content_of_page waiting] at content
      cases content
  | filled _ _ contentToo shows =>
      cases content.symm.trans contentToo
      have shown := shows (position % pageSize) (Nat.mod_lt position (by decide))
      rw [address, Nat.div_add_mod'] at shown
      rw [byte, offset]
      exact shown untouched

/-- User addresses in the segment can be read. -/
theorem isReadable_of_stands
    (orderly : before.Orderly config events) (aligned : pageAligned loaded.segment.va = true)
    (whole : pageAligned loaded.segment.size = true)
    (stands : ∀ index < loaded.segment.pageCount, loaded.Stands pid written index before)
    (within : position < loaded.segment.size) (user : loaded.segment.va + position < config.kernelBase) :
    before.IsReadable pid (loaded.segment.va + position) := by
  obtain ⟨inCount, owner, _⟩ := owner_of_position aligned within whole pid
  obtain ⟨page, present, _⟩ := (stands _ inCount).exists_page
  constructor
  · rw [orderly.config]
    exact user
  · rw [owner]
    exact ⟨page, present⟩

/-! ## The load -/

theorem pagesWith_ownerAt {count : Nat} (inside : index < count) :
    before.pagesWith loaded.pid (loaded.segment.firstPages loaded.file count)
      (loaded.ownerAt loaded.pid index) = some (loaded.page index) := by
  have member : loaded.page index ∈ loaded.segment.firstPages loaded.file count :=
    List.mem_map_of_mem (List.mem_range.mpr inside)
  rw [pagesWith, if_pos (show (loaded.ownerAt loaded.pid index).pid = loaded.pid from rfl)]
  cases found : (loaded.segment.firstPages loaded.file count).find? fun page =>
      page.va == (loaded.ownerAt loaded.pid index).va with
  | none => exact absurd (beq_self_eq_true _) (List.find?_eq_none.mp found _ member)
  | some page =>
      obtain ⟨other, _, rfl⟩ := List.mem_map.mp (List.mem_of_find?_eq_some found)
      have same := (List.find?_eq_some_iff_append.mp found).1
      simp only [beq_iff_eq, ownerAt, LoadedSegment.page, Segment.va_page, pageSize] at same
      obtain rfl : other = index := by omega
      rfl

theorem pagesWith_of_apart {owner : Owner} {count : Nat}
    (apart : ∀ index < count, owner ≠ loaded.ownerAt loaded.pid index) :
    before.pagesWith loaded.pid (loaded.segment.firstPages loaded.file count) owner = before.pageOf owner := by
  unfold pagesWith
  split
  · rename_i here
    have none : ((loaded.segment.firstPages loaded.file count).find? fun page => page.va == owner.va) = none := by
      rw [List.find?_eq_none]
      intro page member same
      obtain ⟨index, inside, rfl⟩ := List.mem_map.mp member
      refine apart index (List.mem_range.mp inside) ?_
      rw [ownerAt, ← here]
      exact congrArg (Owner.mk owner.pid) (beq_iff_eq.mp same).symm
    rw [none, Option.none_or]
  · rfl

/-- What a load that is answered leaves. -/
theorem begins_of_run
    {answer : Answer} (word : loaded.segment.va < wordLimit) (offsetWord : loaded.segment.offset < wordLimit)
    (run : attempt loaded.call.perform before = .ok (.ok answer) start) :
    before.Begins start loaded.pid loaded.segment loaded.file loaded.segment.pageCount ∧
      before.HasPlaceFor loaded.pid loaded.segment := by
  have meets : loaded.call.perform.Meets before
      ⟨fun _ after => before.Begins after loaded.pid loaded.segment loaded.file loaded.segment.pageCount ∧
        before.HasPlaceFor loaded.pid loaded.segment, fun _ _ => True, fun _ _ => True⟩ := by
    rw [call, Call.perform, meets_bind]
    exact (begins_loadSegment word offsetWord).mono (fun _ _ answered => ⟨answered.1, answered.2.2⟩)
      (fun _ _ _ => trivial) fun _ _ _ => trivial
  exact meets.of_ok (ok_of_attempt run)

/-- The load itself reads nothing. -/
theorem reads_nothing
    {outcome : Except PagingError Answer} (orderly : before.Orderly config events)
    (run : attempt loaded.call.perform before = .ok outcome after) : before.Reads after [] := by
  have runs := (orderly.performs run).1.runs
  clear run
  have unnoted : after.journal = before.journal := by
    induction runs with
    | refl => rfl
    | tail _ permitted turn inductionHypothesis =>
        rw [← inductionHypothesis]
        have lays : Deed.Lays loaded.pid (Page.LoadsSegment loaded.file) _ :=
          permitted.resolve_right fun ⟨_, victim, _⟩ => by cases victim
        cases turn with
        | claimed | missed | discarded => exact absurd lays id
        | _ => rfl
  obtain ⟨journal, reads⟩ := runs.reads orderly.sound
  have nothing := List.append_left_eq_self.mp (reads.noted.symm.trans unnoted)
  rw [← nothing]
  exact reads

/-! ## Files that nobody writes -/

/-- A call leaves a file as it is that no page may write. -/
theorem content_of_unbacked
    {call : Call} {file : FileId} (orderly : before.Orderly config events)
    (runs : Runs (call.Permits before) before after) (unbacked : ∀ range, before.Backs range → range.file ≠ file) :
    after.files.content file = before.files.content file := by
  refine ChangedWithin.same_of_uncovered (runs.changedWithin orderly.sound orderly.tidy ?_) unbacked
  intro _ _ _ _ _ _ runs resident writable _ _
  exact runs.backs_of_loaded orderly.sound resident writable

/-- If the file has the bytes of the segment and no page may write it, it has them whenever a page is touched. -/
theorem finds_of_unbacked
    {call : Call} (orderly : before.Orderly config events) (runs : Runs (call.Permits before) before after)
    (unbacked : ∀ range, before.Backs range → range.file ≠ loaded.file)
    (kept : ∀ index, loaded.KeptIn index (before.files.content loaded.file)) (pid : Pid) :
    loaded.Finds pid before after := by
  induction runs with
  | refl => exact .refl
  | tail runs permitted turn inductionHypothesis =>
      refine .tail inductionHypothesis turn fun index _ _ _ => ?_
      rw [content_of_unbacked orderly (runs.tail permitted turn) unbacked]
      exact kept index

/-- A state of a history without a call by which a page could write the file, which has the bytes of the
segment. -/
def IsUntouched (loaded : LoadedSegment) (config : Config) (kind : PolicyKind) (device : Device)
    (files : FileTable) (pager : Pager) : Prop :=
  ∃ events, History config kind device files events pager ∧
    (∀ event ∈ events, ¬ event.call.Exposes loaded.file) ∧
      ∀ index, loaded.KeptIn index (pager.files.content loaded.file)

/-- Every further call of that kind finds the bytes of the segment and leaves them. -/
theorem IsUntouched.step
    {kind : PolicyKind} {device : Device} {files : FileTable} {call : Call}
    {outcome : Except PagingError Answer} (untouched : loaded.IsUntouched config kind device files before)
    (run : attempt call.perform before = .ok outcome after) (unexposing : ¬ call.Exposes loaded.file)
    (pid : Pid) :
    ∃ activity, loaded.Steps pid ⟨call, outcome, activity⟩ before after ∧
      loaded.IsUntouched config kind device files after := by
  obtain ⟨events, history, unexposed, kept⟩ := untouched
  have unbacked (range : FileRange) (backs : before.Backs range) := history.unexposed unexposed backs
  obtain ⟨⟨runs, _⟩, _, activity, tells⟩ := history.orderly.performs run
  refine ⟨activity, ⟨run, tells.noted, finds_of_unbacked history.orderly runs unbacked kept pid⟩,
    _, history.call run tells.noted, ?_, ?_⟩
  · intro event member
    rcases List.mem_cons.mp member with rfl | earlier
    · exact unexposing
    · exact unexposed event earlier
  · rw [content_of_unbacked history.orderly runs unbacked]
    exact kept

/-! ## Files that are too short -/

/-- The range of the file that the page with an index begins with. -/
def range (loaded : LoadedSegment) (index : Nat) : FileRange where
  file := loaded.file
  offset := loaded.segment.offset + index * pageSize
  length := loaded.segment.backed index

/-- A page of the segment reads its range, if the range of the segment ends in the words. -/
theorem kind_page
    (fits : loaded.segment.offset + loaded.segment.readBytes ≤ wordLimit) (backed : 0 < (loaded.range index).length) :
    (loaded.page index).kind = .pending (.segment (loaded.range index)) := by
  have reads : 0 < loaded.segment.backed index := backed
  have word : loaded.segment.offset + index * pageSize < wordLimit := by
    simp only [Segment.backed, pageSize] at reads
    simp only [pageSize]
    omega
  rw [page, Segment.page, Segment.load, if_neg (Nat.ne_of_gt reads), Nat.mod_eq_of_lt word]
  rfl

/-- A page of the segment waits in vain if its file ends before its range. -/
theorem waitsInVain_of_short
    (fits : loaded.segment.offset + loaded.segment.readBytes ≤ wordLimit) (backed : 0 < (loaded.range index).length)
    (waits : before.pageOf (loaded.ownerAt pid index) = some (loaded.page index))
    (short : (before.files.content loaded.file).size < (loaded.range index).offset + (loaded.range index).length) :
    before.WaitsInVain (loaded.ownerAt pid index) (loaded.page index) (loaded.range index) := by
  refine ⟨waits, kind_page fits backed, ?_⟩
  rw [show (loaded.range index).file = loaded.file from rfl]
  omega

end LoadedSegment

open PagerM Pager

section Laws

variable {config : Config} {kind : PolicyKind} {device : Device} {files : FileTable}
  {events : List Event} {before start : Pager} {answer : Answer} {loaded : LoadedSegment}

/-- A segment that is loaded adds its pages, as they should be, and nothing but what they take. Nothing is read
for that, and later on files are read only by attempts to fetch pages. If each page finds its bytes in the file
when it is touched for the first time, as it does if the file keeps until then what it had at the load, a read
inside of the segment brings them, and zeros behind them, wherever the process or those that it came of by forks
did not write. Such a read fails only if something cannot be read or the file is too short, and halts only if
memory is exhausted. A page for which the file is too short cannot be claimed: an attempt fails with the address
of the page, and whatever else is called, the page goes on waiting without a content. That needs a build that
checks its sums, or a range of the file that ends in the words. -/
theorem segment_reads_as_file_part
    (history : History config kind device files events before)
    (word : loaded.segment.va < wordLimit) (offsetWord : loaded.segment.offset < wordLimit)
    (run : attempt loaded.call.perform before = .ok (.ok answer) start) :
    (before.Begins start loaded.pid loaded.segment loaded.file loaded.segment.pageCount ∧
      (∀ index < loaded.segment.pageCount,
        before.pageOf (loaded.ownerAt loaded.pid index) = none ∧
        start.pageOf (loaded.ownerAt loaded.pid index) = some (loaded.page index) ∧
        (loaded.page index).writable = loaded.segment.writable ∧
        (loaded.page index).type = .anonymous) ∧
      ∀ owner, (∀ index < loaded.segment.pageCount, owner ≠ loaded.ownerAt loaded.pid index) →
        start.pageOf owner = before.pageOf owner) ∧
    (before.Reads start [] ∧ ∀ later (call : Call), GoesOn (fun _ _ => True) start later →
      ∃ journal, later.Reads (call.perform.leaves later) journal) ∧
    (loaded.Fits → ∀ pid written pager, loaded.Lasts start pid written pager →
      (∀ event after va length bytes, loaded.Steps pid event pager after →
        event.call = .readUser pid va length → event.outcome = .ok (.bytes bytes) →
          bytes.size = length ∧ ∀ index position, index < length →
            va + index = loaded.segment.va + position → position < loaded.segment.size →
              ¬ written (va + index) → bytes[index]? = loaded.byte? position) ∧
      ∀ va length, loaded.segment.va ≤ va → va + length ≤ loaded.segment.va + loaded.segment.size →
        va + length ≤ config.kernelBase → pager.ReadEnds pid va length) ∧
    ∀ later index, GoesOn (fun _ _ => True) start later →
      (config.arithmetic = .checked ∨ loaded.segment.offset + loaded.segment.readBytes ≤ wordLimit) →
      later.pageOf (loaded.ownerAt loaded.pid index) = some (loaded.page index) →
      0 < (loaded.range index).length →
      (later.files.content loaded.file).size < (loaded.range index).offset + (loaded.range index).length →
        (∀ va, pageBase va = (loaded.page index).va →
          (∃ last, (Call.claim loaded.pid va).perform later =
              .error (.failed (.io (loaded.page index).va)) last ∧
            last.WaitsInVain (loaded.ownerAt loaded.pid index) (loaded.page index) (loaded.range index)) ∨
          ∃ halt last, (Call.claim loaded.pid va).perform later = .error (.halted halt) last ∧
            later.frames.free = [] ∧ last.Exhausted config.frameCount halt) ∧
        ∀ (call : Call) outcome last, attempt call.perform later = .ok outcome last →
          last.space? loaded.pid ≠ none →
            last.WaitsInVain (loaded.ownerAt loaded.pid index) (loaded.page index) (loaded.range index) ∧
              last.ledger.content (loaded.ownerAt loaded.pid index) = none := by
  have orderly := history.orderly
  obtain ⟨begins, place⟩ := LoadedSegment.begins_of_run word offsetWord run
  obtain ⟨activity, orderlyStart⟩ := orderly.ran run
  have laid (index : Nat) (inside : index < loaded.segment.pageCount) :
      start.pageOf (loaded.ownerAt loaded.pid index) = some (loaded.page index) := by
    rw [begins.pages]
    exact LoadedSegment.pagesWith_ownerAt inside
  refine ⟨⟨begins, fun index inside => ?_, fun owner apart => ?_⟩,
    ⟨LoadedSegment.reads_nothing orderly run, fun later call goesOn => ?_⟩,
    fun fits pid written pager lasts => ?_,
    fun later index goesOn cause waits backed short => ?_⟩
  · exact ⟨(place.accepts index inside).vacant, laid index inside, rfl, loaded.type_page index⟩
  · rw [begins.pages]
    exact LoadedSegment.pagesWith_of_apart apart
  · obtain ⟨_, orderlyLater⟩ := goesOn.orderly orderlyStart
    exact orderlyLater.reads call
  · obtain ⟨⟨_, orderlyThen⟩, stands⟩ := lasts.stands orderlyStart fits laid
    have ready := orderlyThen.unpinned.ready orderlyThen.sound
    have ends := place.ends
    constructor
    · intro event after va length bytes steps
      exact LoadedSegment.reads orderlyThen fits place.aligned place.whole stands steps
    · intro va length above below user
      refine readEnds_of_readable ready orderlyThen.tidy (by omega) fun index inside => ?_
      rw [← Nat.add_sub_cancel' (show loaded.segment.va ≤ va + index by omega)]
      exact LoadedSegment.isReadable_of_stands orderlyThen place.aligned place.whole stands (by omega)
        (by omega)
  · obtain ⟨_, orderlyLater⟩ := goesOn.orderly orderlyStart
    have fits : loaded.segment.offset + loaded.segment.readBytes ≤ wordLimit := by
      rcases cause with checked | fits
      · exact Nat.le_of_lt (place.reads (orderly.config ▸ checked))
      · exact fits
    have vain := LoadedSegment.waitsInVain_of_short fits backed waits short
    refine ⟨fun va here => ?_, fun call outcome last runThen alive => ?_⟩
    · have owner : loaded.ownerAt loaded.pid index = ⟨loaded.pid, pageBase va⟩ := by rw [here]; rfl
      rw [← here, ← orderlyLater.config]
      rw [owner] at vain ⊢
      exact vain.claim (orderlyLater.unpinned.ready orderlyLater.sound) orderlyLater.tidy rfl
    · have vainThen := vain.of_run orderlyLater runThen rfl alive
      refine ⟨vainThen, ?_⟩
      rw [Ledger.content_of_page vainThen.present, Ledger.pageContent_of_pending vainThen.pending]

/-- A segment of two pages that begins with the two bytes of a file. -/
def twoBytesLoaded : LoadedSegment where
  pid := 1
  segment := { va := 4096, offset := 0, readBytes := 2, zeroBytes := 8190, writable := true }
  file := 0
  content := #[7, 8]

/-- The same segment with one byte more than the file has. -/
def threeBytesLoaded : LoadedSegment :=
  { twoBytesLoaded with
    segment := { twoBytesLoaded.segment with readBytes := 3, zeroBytes := 8189 } }

/-- Two frames, four slots and a file of two bytes. -/
def twoBytesFile : Pager :=
  create { frameCount := 2 } .fifo (Device.blank .memory 32) ⟨#[.create .memory #[7, 8]]⟩

/-- The second byte of the file is read by a child after the first page was touched and some pages went to slots
to make room for copies. A page for which the file is too short is not claimed. -/
theorem segment_reads_as_file_part_of_two_bytes :
    (∃ start written forked after bytes, twoBytesLoaded.Lasts start 2 written forked ∧ ¬ written 4097 ∧
      (Call.readUser 2 4096 2).perform forked = .ok (.bytes bytes) after ∧ bytes[1]? = some 8) ∧
    ∃ start last, (Call.claim 1 4096).perform start = .error (.failed (.io 4096)) last ∧
      last.WaitsInVain ⟨1, 4096⟩ (threeBytesLoaded.page 0) (threeBytesLoaded.range 0) := by
  have ended : (twoBytesFile.comesTo (.createProcess 1) fun _ created =>
      (created.comesTo twoBytesLoaded.call fun loading start => decide (loading = .ok .done) &&
        start.comesTo (.readUser 1 4096 1) fun _ touched => (touched.space? 1).isSome &&
          touched.comesTo (.fork 1 2) fun forking forked => decide (forking = .ok .done) &&
            forked.comesTo (.readUser 2 4096 2) fun reading _ => reading.isOk) &&
      created.comesTo threeBytesLoaded.call fun loading start => decide (loading = .ok .done) &&
        decide ((start.files.content 0).size = 2) &&
          start.comesTo (.claim 1 4096) fun claiming _ => !claiming.isOk) = true := by
    decide +kernel
  have untouched : twoBytesLoaded.IsUntouched { frameCount := 2 } .fifo (Device.blank .memory 32)
      ⟨#[.create .memory #[7, 8]]⟩ twoBytesFile := ⟨[], .start, by simp, fun _ _ _ => rfl⟩
  obtain ⟨_, created, creating, ended⟩ := exists_run_of_comesTo ended
  rw [Bool.and_eq_true] at ended
  obtain ⟨_, _, untouched⟩ := untouched.step creating id 1
  obtain ⟨_, history, _⟩ := id untouched
  constructor
  · obtain ⟨_, start, loading, ended⟩ := exists_run_of_comesTo ended.1
    simp only [Bool.and_eq_true, decide_eq_true_eq] at ended
    obtain ⟨rfl, ended⟩ := ended
    obtain ⟨_, _, untouched⟩ := untouched.step loading id 1
    obtain ⟨looked, touched, touching, ended⟩ := exists_run_of_comesTo ended
    simp only [Bool.and_eq_true, Option.isSome_iff_ne_none] at ended
    obtain ⟨activity, touches, untouched⟩ := untouched.step touching id 1
    obtain ⟨_, forked, forking, reads⟩ := exists_run_of_comesTo ended.2
    simp only [Bool.and_eq_true, decide_eq_true_eq] at reads
    obtain ⟨rfl, reads⟩ := reads
    obtain ⟨_, forks, untouched⟩ := untouched.step forking id 1
    obtain ⟨outcome, after, reading, answered⟩ := exists_run_of_comesTo reads
    obtain ⟨_, steps, _⟩ := untouched.step reading id 2
    have lasts := (LoadedSegment.Lasts.start.call touches ended.1).forked forks
    have unwritten : ¬ LoadedSegment.WrittenAfter ⟨.readUser 1 4096 1, looked, activity⟩ 1
        (fun _ => False) 4097 := by
      rintro (never | wrote)
      · exact never
      · cases looked <;> exact wrote rfl
    have law := segment_reads_as_file_part history (by decide) (by decide) loading
    obtain ⟨brings, ends⟩ := law.2.2.1 ⟨by decide, by decide⟩ 2 _ forked lasts
    cases outcome with
    | error => cases answered
    | ok answer =>
        have run := ok_of_attempt reading
        cases ends 4096 2 (by decide) (by decide) (by decide) with
        | answered ran =>
            cases run.symm.trans ran
            obtain ⟨_, shown⟩ := brings _ after 4096 2 _ steps rfl rfl
            exact ⟨start, _, forked, after, _, lasts, unwritten, run,
              shown 1 1 (by decide) rfl (by decide) unwritten⟩
        | lost _ failed => cases run.symm.trans failed
        | exhausted halted => cases run.symm.trans halted
  · obtain ⟨_, start, loading, ended⟩ := exists_run_of_comesTo ended.2
    simp only [Bool.and_eq_true, decide_eq_true_eq] at ended
    obtain ⟨⟨rfl, size⟩, ended⟩ := ended
    obtain ⟨outcome, last, claiming, refused⟩ := exists_run_of_comesTo ended
    have law := segment_reads_as_file_part history (by decide) (by decide) loading
    obtain ⟨_, laid, _⟩ := law.1.2.1 0 (by decide)
    obtain ⟨claims, _⟩ := law.2.2.2 start 0 .start (Or.inl rfl) laid (by decide) (by
      rw [show threeBytesLoaded.file = 0 from rfl, size]
      decide)
    cases outcome with
    | ok => cases refused
    | error error =>
        have run := failed_of_attempt claiming
        rcases claims 4096 rfl with ⟨_, failed, vain⟩ | ⟨_, _, halted, _⟩
        · exact ⟨start, _, failed, vain⟩
        · cases run.symm.trans halted

end Laws

end DemandPaging
