import DemandPaging.Drill.File
import DemandPaging.Proofs.Files

/-!
# Files through several handles

A file is one array of bytes for all its handles: a read brings the bytes of its range that lie inside,
a write replaces the bytes of its range that lie inside, and the length stays. A file in memory and a
file on the host, which hands over as few bytes at a time as it likes, both answer as this array does,
and therefore alike.
-/

namespace DemandPaging

/-! ## The contract -/

/-- An array of bytes and the handles that were made for it. -/
structure SharedBytes where
  bytes : Array UInt8
  /-- Whether each handle is still open. -/
  isOpen : Array Bool

namespace SharedBytes

/-- What an array of fixed length answers to a request, and what it is afterwards. Nothing but closing
depends on the handle that is asked. -/
inductive Serves (shared : SharedBytes) (handle : Nat) :
    FileRequest → FileReply → SharedBytes → Prop
  | reopened : Serves shared handle .reopen (.count shared.isOpen.size)
      { shared with isOpen := shared.isOpen.push true }
  | closed : Serves shared handle .close .done
      { shared with isOpen := shared.isOpen.setIfInBounds handle false }
  | measured : Serves shared handle .length (.count shared.bytes.size) shared
  | read {offset length : Nat} {brought : Array UInt8}
      (size : brought.size = min (offset + length) shared.bytes.size - offset)
      (same : ∀ index < brought.size, brought[index]? = shared.bytes[offset + index]?) :
      Serves shared handle (.read offset length) (.read brought) shared
  | written {offset : Nat} {bytes replaced : Array UInt8}
      (size : replaced.size = shared.bytes.size)
      (same : ∀ index < replaced.size, replaced[index]? =
        if offset ≤ index ∧ index < offset + bytes.size then bytes[index - offset]?
        else shared.bytes[index]?) :
      Serves shared handle (.write offset bytes)
        (.written (min (offset + bytes.size) shared.bytes.size - offset))
        { shared with bytes := replaced }

def IsOpen (shared : SharedBytes) (handle : Nat) : Prop :=
  shared.isOpen.getD handle false = true

/-- A request through an open handle is served, one through any other is refused. -/
inductive Answers (shared : SharedBytes) : FileStep → FileReply → SharedBytes → Prop
  | served {handle : Nat} {request : FileRequest} {reply : FileReply} {next : SharedBytes}
      (opened : shared.IsOpen handle) (serves : shared.Serves handle request reply next) :
      Answers shared (.ask handle request) reply next
  | refused {handle : Nat} (request : FileRequest) (shut : ¬ shared.IsOpen handle) :
      Answers shared (.ask handle request) .refused shared

/-- A sequence of steps with the answers to them. -/
inductive Course : SharedBytes → List FileStep → List FileReply → SharedBytes → Prop
  | done (shared : SharedBytes) : Course shared [] [] shared
  | step {shared next last : SharedBytes} {step : FileStep} {reply : FileReply}
      {steps : List FileStep} {replies : List FileReply}
      (answers : shared.Answers step reply next) (rest : Course next steps replies last) :
      Course shared (step :: steps) (reply :: replies) last

end SharedBytes

namespace FileStep

/-- The byte that a step leaves at an index, if it writes there. -/
def leaves (step : FileStep) (reply : FileReply) (index : Nat) : Option UInt8 :=
  match step, reply with
  | ask _ (.write offset bytes), .written _ => if offset ≤ index then bytes[index - offset]? else none
  | _, _ => none

/-- The byte that was written last at an index, whichever handle it was written through; the old one if
none was. -/
def lastWritten (index : Nat) (old : Option UInt8) : List FileStep → List FileReply → Option UInt8
  | step :: steps, reply :: replies =>
      lastWritten index ((step.leaves reply index).or old) steps replies
  | _, _ => old

end FileStep

/-- A write shows in the range that it covers, and nothing changes elsewhere. -/
theorem covered_eq_or (bytes : Array UInt8) (offset index : Nat) (old : Option UInt8) :
    (if offset ≤ index ∧ index < offset + bytes.size then bytes[index - offset]? else old) =
      (if offset ≤ index then bytes[index - offset]? else none).or old := by
  by_cases before : offset ≤ index
  · by_cases within : index < offset + bytes.size
    · rw [if_pos ⟨before, within⟩, if_pos before, Array.getElem?_eq_getElem (by omega),
        Option.some_or]
    · have beyond : bytes[index - offset]? = none := Array.getElem?_eq_none (by omega)
      rw [if_neg fun covered => within covered.2, if_pos before, beyond, Option.none_or]
  · rw [if_neg fun covered => before covered.1, if_neg before, Option.none_or]

theorem getElem?_overwritten_eq_or
    {content : Array UInt8} {index : Nat} (inside : index < content.size) (offset : Nat)
    (bytes : Array UInt8) :
    (overwritten content offset bytes)[index]? =
      (if offset ≤ index then bytes[index - offset]? else none).or content[index]? := by
  rw [getElem?_overwritten, Array.getElem?_eq_getElem inside, Option.map_some,
    Array.getD_eq_getD_getElem?, Option.or_some]
  split <;> rfl

namespace SharedBytes

variable {shared next other last otherLast : SharedBytes} {handle : Nat} {request : FileRequest}
  {step : FileStep} {reply otherReply : FileReply} {steps : List FileStep}
  {replies otherReplies : List FileReply}

/-- Arrays of one size with given bytes at their indices are one array. -/
private theorem eq_of_bytes
    {first second : Array UInt8} {content : Nat → Option UInt8} (size : first.size = second.size)
    (firstBytes : ∀ index < first.size, first[index]? = content index)
    (secondBytes : ∀ index < second.size, second[index]? = content index) : first = second := by
  apply Array.ext_getElem?
  intro index
  by_cases inside : index < first.size
  · rw [firstBytes index inside, secondBytes index (size ▸ inside)]
  · rw [Array.getElem?_eq_none (by omega), Array.getElem?_eq_none (by omega)]

theorem Serves.unique
    (serves : shared.Serves handle request reply next)
    (otherServes : shared.Serves handle request otherReply other) :
    reply = otherReply ∧ next = other := by
  cases serves with
  | reopened | closed | measured =>
      cases otherServes
      exact ⟨rfl, rfl⟩
  | read size same =>
      cases otherServes with
      | read otherSize otherSame =>
          rw [eq_of_bytes (size.trans otherSize.symm) same otherSame]
          exact ⟨rfl, rfl⟩
  | written size same =>
      cases otherServes with
      | written otherSize otherSame =>
          rw [eq_of_bytes (size.trans otherSize.symm) same otherSame]
          exact ⟨rfl, rfl⟩

/-- The contract leaves no choice. -/
theorem Answers.unique
    (answers : shared.Answers step reply next) (otherAnswers : shared.Answers step otherReply other) :
    reply = otherReply ∧ next = other := by
  cases answers with
  | served opened serves =>
      cases otherAnswers with
      | served _ otherServes => exact serves.unique otherServes
      | refused _ shut => exact absurd opened shut
  | refused _ shut =>
      cases otherAnswers with
      | served opened _ => exact absurd opened shut
      | refused => exact ⟨rfl, rfl⟩

theorem Course.unique
    (course : Course shared steps replies last)
    (otherCourse : Course shared steps otherReplies otherLast) :
    replies = otherReplies ∧ last = otherLast := by
  induction course generalizing otherReplies with
  | done =>
      cases otherCourse
      exact ⟨rfl, rfl⟩
  | step answers _ inductionHypothesis =>
      cases otherCourse with
      | step otherAnswers otherRest =>
          obtain ⟨rfl, rfl⟩ := answers.unique otherAnswers
          obtain ⟨rfl, rfl⟩ := inductionHypothesis otherRest
          exact ⟨rfl, rfl⟩

/-! ## What was written last -/

theorem Answers.size (answers : shared.Answers step reply next) :
    next.bytes.size = shared.bytes.size := by
  cases answers with
  | served _ serves =>
      cases serves with
      | written size _ => exact size
      | _ => rfl
  | refused => rfl

theorem Answers.leaves
    (answers : shared.Answers step reply next) {index : Nat} (inside : index < shared.bytes.size) :
    next.bytes[index]? = (step.leaves reply index).or shared.bytes[index]? := by
  cases answers with
  | refused request _ => cases request <;> rfl
  | served _ serves =>
      cases serves with
      | written size same =>
          rw [same index (size ▸ inside), covered_eq_or]
          rfl
      | _ => rfl

theorem Course.size (course : Course shared steps replies last) :
    last.bytes.size = shared.bytes.size := by
  induction course with
  | done => rfl
  | step answers _ inductionHypothesis => exact inductionHypothesis.trans answers.size

/-- Every byte is the one that was written last, through whichever handle. -/
theorem Course.getElem?_bytes
    (course : Course shared steps replies last) {index : Nat} (inside : index < shared.bytes.size) :
    last.bytes[index]? = FileStep.lastWritten index shared.bytes[index]? steps replies := by
  induction course with
  | done => rfl
  | step answers _ inductionHypothesis =>
      rw [FileStep.lastWritten, ← answers.leaves inside]
      exact inductionHypothesis (answers.size ▸ inside)

end SharedBytes

/-! ## Stores at which nothing fails -/

namespace HostFile

theorem kept_gather (file : HostFile) (position wanted rounds : Nat) :
    (file.gather position wanted rounds).1.linked = file.linked ∧
      (file.gather position wanted rounds).1.reach = file.reach := by
  induction rounds generalizing file position wanted with
  | zero => exact ⟨rfl, rfl⟩
  | succ rounds inductionHypothesis =>
      unfold gather
      split
      · exact ⟨rfl, rfl⟩
      · dsimp only
        split
        · exact ⟨rfl, rfl⟩
        · exact inductionHypothesis file.afterRead ..

end HostFile

namespace FileStore

def reaches : FileStore → Nat → Bool
  | memory _, _ => true
  | host file, position => file.reaches position

/-- The requests that all files know and at which the store does not fail: a file can be opened again as
long as it is named, and positions have to be in reach where they are sought. A host that seeks every
position below half the words bears all reads and writes with offsets below that. -/
def Bears (store : FileStore) : FileRequest → Prop
  | .reopen => store.canOpen = true
  | .close | .length => True
  | .read offset _ => store.reaches offset = true
  | .write offset _ => offset < store.content.size → store.reaches offset = true
  | .content | .resize _ | .reopenBudget _ | .handles | .unlink => False

instance (store : FileStore) : (request : FileRequest) → Decidable (store.Bears request)
  | .reopen => inferInstanceAs (Decidable (store.canOpen = true))
  | .close | .length => inferInstanceAs (Decidable True)
  | .read offset _ => inferInstanceAs (Decidable (store.reaches offset = true))
  | .write offset _ =>
      inferInstanceAs (Decidable (offset < store.content.size → store.reaches offset = true))
  | .content | .resize _ | .reopenBudget _ | .handles | .unlink => inferInstanceAs (Decidable False)

/-- Stores that differ in their bytes and in the pieces in which they hand them over. -/
structure Alike (store other : FileStore) : Prop where
  canOpen : store.canOpen = other.canOpen
  reaches : store.reaches = other.reaches
  size : store.content.size = other.content.size

variable {store other last : FileStore} {request : FileRequest} {offset length : Nat}
  {bytes : Array UInt8}

theorem Alike.trans (later : last.Alike other) (alike : other.Alike store) : last.Alike store :=
  ⟨later.canOpen.trans alike.canOpen, later.reaches.trans alike.reaches, later.size.trans alike.size⟩

theorem Alike.bears (alike : store.Alike other) (bears : other.Bears request) : store.Bears request := by
  obtain ⟨canOpen, reaches, size⟩ := alike
  cases request with
  | reopen => exact canOpen.trans bears
  | read offset length => exact (congrFun reaches offset).trans bears
  | write offset bytes =>
      exact fun inside => (congrFun reaches offset).trans (bears (size ▸ inside))
  | close | length => trivial
  | content | resize | reopenBudget | handles | unlink => exact bears

/-- What a host bears, memory bears. -/
theorem bears_memory {file : HostFile} (bears : (host file).Bears request) :
    (memory ⟨file.content⟩).Bears request := by
  cases request with
  | reopen | read => rfl
  | write => exact fun _ => rfl
  | close | length => trivial
  | content | resize | reopenBudget | handles | unlink => exact bears

theorem readAt_of_reaches (reaches : store.reaches offset = true) :
    (store.readAt offset length).2 = some (store.content.extract offset (offset + length)) ∧
      (store.readAt offset length).1.content = store.content ∧
      (store.readAt offset length).1.Alike store := by
  cases store with
  | memory file => exact ⟨rfl, rfl, rfl, rfl, rfl⟩
  | host file =>
      have sought : file.reaches offset = true := reaches
      have content := @HostFile.content_gather file offset length length
      obtain ⟨linked, reach⟩ := file.kept_gather offset length length
      simp only [readAt, HostFile.readAt, sought, if_true, HostFile.gather_eq (Nat.le_refl length)]
      refine ⟨rfl, content, linked, ?_, congrArg Array.size content⟩
      funext position
      exact congrArg (fun reach => decide (position ≤ reach)) reach

theorem writeAt_of_reaches (reaches : offset < store.content.size → store.reaches offset = true) :
    (store.writeAt offset bytes).2 = some (min bytes.size (store.content.size - offset)) ∧
      (store.writeAt offset bytes).1.content = overwritten store.content offset bytes ∧
      (store.writeAt offset bytes).1.Alike store := by
  cases store with
  | memory file => exact ⟨rfl, rfl, rfl, rfl, size_overwritten ..⟩
  | host file =>
      simp only [writeAt, HostFile.writeAt]
      by_cases behind : file.content.size ≤ offset
      · have nothing : 0 = min bytes.size (file.content.size - offset) := by omega
        rw [if_pos behind]
        exact ⟨congrArg some nothing, (overwritten_of_size_le behind).symm, rfl, rfl, rfl⟩
      · have sought : file.reaches offset = true := reaches (Nat.not_le.mp behind)
        rw [if_neg behind, if_pos sought]
        exact ⟨rfl, overwritten_extract (Nat.le_refl _), rfl, rfl, size_overwritten ..⟩

end FileStore

/-! ## Files follow the contract -/

namespace BackingFile

variable {backing : BackingFile} {offset length : Nat} {bytes : Array UInt8}

theorem readAt_of_admitted (admitted : backing.reads.isOpen = true) :
    backing.readAt offset length =
      ({ backing with store := (backing.store.readAt offset length).1, reads := backing.reads.next },
        (backing.store.readAt offset length).2) := by
  rw [readAt, if_pos admitted]

theorem writeAt_of_admitted (admitted : backing.writes.isOpen = true) :
    backing.writeAt offset bytes =
      ({ backing with store := (backing.store.writeAt offset bytes).1, writes := backing.writes.next },
        (backing.store.writeAt offset bytes).2) := by
  rw [writeAt, if_pos admitted]

end BackingFile

namespace FileDrill

/-- A store with one handle. -/
def opened (store : FileStore) : FileDrill where
  file := { store := store }
  isOpen := #[true]

def after (drill : FileDrill) (steps : List FileStep) : FileDrill :=
  steps.foldl (fun drill step => (drill.step step).1) drill

/-- The bytes and the handles of a file. -/
def shared (drill : FileDrill) : SharedBytes :=
  ⟨drill.file.store.content, drill.isOpen⟩

/-- The step is a request that the store bears. -/
def Bears (drill : FileDrill) : FileStep → Prop
  | .malformed => False
  | .ask _ request => drill.file.store.Bears request

instance (drill : FileDrill) : (step : FileStep) → Decidable (drill.Bears step)
  | .malformed => inferInstanceAs (Decidable False)
  | .ask _ request => inferInstanceAs (Decidable (drill.file.store.Bears request))

/-- All calls get through to the store. -/
structure IsThrough (drill : FileDrill) : Prop where
  reopens : ∀ call, drill.file.reopens.admits call = true
  reads : ∀ call, drill.file.reads.admits call = true
  writes : ∀ call, drill.file.writes.admits call = true

variable {drill later : FileDrill} {handle : Nat} {request : FileRequest} {step : FileStep}
  {steps : List FileStep}

theorem isThrough_opened (store : FileStore) : (opened store).IsThrough :=
  ⟨fun _ => rfl, fun _ => rfl, fun _ => rfl⟩

/-- What one request does: it is answered as the contract says, and the next ones will be borne too. -/
structure Follows (drill : FileDrill) (handle : Nat) (request : FileRequest) : Prop where
  serves : drill.shared.Serves handle request (drill.serve handle request).2
    (drill.serve handle request).1.shared
  through : (drill.serve handle request).1.IsThrough
  alike : (drill.serve handle request).1.file.store.Alike drill.file.store

theorem follows_reopen (through : drill.IsThrough) (named : drill.file.store.canOpen = true) :
    drill.Follows handle .reopen := by
  have admitted : drill.file.reopens.isOpen = true := through.reopens _
  have opens : drill.file.opens = true := by rw [BackingFile.opens, admitted, named, Bool.and_self]
  have served : drill.serve handle .reopen =
      (⟨drill.file.reopen.1, drill.isOpen.push true⟩, .count drill.isOpen.size) := by
    simp only [serve, BackingFile.reopen, opens]
  constructor <;> rw [served]
  · exact .reopened
  · exact ⟨through.reopens, through.reads, through.writes⟩
  · exact ⟨rfl, rfl, rfl⟩

theorem follows_close (through : drill.IsThrough) : drill.Follows handle .close :=
  ⟨.closed, ⟨through.reopens, through.reads, through.writes⟩, ⟨rfl, rfl, rfl⟩⟩

theorem follows_length (through : drill.IsThrough) : drill.Follows handle .length :=
  ⟨.measured, through, ⟨rfl, rfl, rfl⟩⟩

theorem follows_read
    {offset length : Nat} (through : drill.IsThrough)
    (reaches : drill.file.store.reaches offset = true) :
    drill.Follows handle (.read offset length) := by
  have admitted : drill.file.reads.isOpen = true := through.reads _
  obtain ⟨brought, content, alike⟩ := @FileStore.readAt_of_reaches _ offset length reaches
  have served : drill.serve handle (.read offset length) =
      ({ drill with file := (drill.file.readAt offset length).1 },
        .read (drill.file.store.content.extract offset (offset + length))) := by
    simp only [serve, BackingFile.readAt_of_admitted admitted, brought]
  rw [BackingFile.readAt_of_admitted admitted] at served
  have same : (drill.serve handle (.read offset length)).1.shared = drill.shared := by
    rw [served]
    exact congrArg (SharedBytes.mk · drill.isOpen) content
  constructor
  · rw [same, served]
    refine .read Array.size_extract fun index inside => ?_
    rw [Array.size_extract] at inside
    rw [Array.getElem?_extract, if_pos inside]
    rfl
  all_goals rw [served]
  · exact ⟨through.reopens, through.reads, through.writes⟩
  · exact alike

theorem follows_write
    {offset : Nat} {bytes : Array UInt8} (through : drill.IsThrough)
    (reaches : offset < drill.file.store.content.size → drill.file.store.reaches offset = true) :
    drill.Follows handle (.write offset bytes) := by
  have admitted : drill.file.writes.isOpen = true := through.writes _
  obtain ⟨counted, content, alike⟩ := @FileStore.writeAt_of_reaches _ offset bytes reaches
  have count : min bytes.size (drill.file.store.content.size - offset) =
      min (offset + bytes.size) drill.file.store.content.size - offset := by omega
  rw [count] at counted
  have served : drill.serve handle (.write offset bytes) =
      ({ drill with file := (drill.file.writeAt offset bytes).1 },
        .written (min (offset + bytes.size) drill.file.store.content.size - offset)) := by
    simp only [serve, BackingFile.writeAt_of_admitted admitted, counted]
  rw [BackingFile.writeAt_of_admitted admitted] at served
  have replaced : (drill.serve handle (.write offset bytes)).1.shared =
      ⟨overwritten drill.file.store.content offset bytes, drill.isOpen⟩ := by
    rw [served]
    exact congrArg (SharedBytes.mk · drill.isOpen) content
  constructor
  · rw [replaced, served]
    refine .written (size_overwritten ..) fun index inside => ?_
    rw [size_overwritten] at inside
    rw [getElem?_overwritten_eq_or inside, covered_eq_or]
    rfl
  all_goals rw [served]
  · exact ⟨through.reopens, through.reads, through.writes⟩
  · exact alike

theorem follows
    (through : drill.IsThrough) (bears : drill.file.store.Bears request) :
    drill.Follows handle request := by
  cases request with
  | reopen => exact follows_reopen through bears
  | close => exact follows_close through
  | length => exact follows_length through
  | read offset length => exact follows_read through bears
  | write offset bytes => exact follows_write through bears
  | content | resize | reopenBudget | handles | unlink => exact bears.elim

theorem Bears.of_alike
    (bears : drill.Bears step) (alike : later.file.store.Alike drill.file.store) : later.Bears step := by
  cases step with
  | malformed => exact bears
  | ask handle request => exact FileStore.Alike.bears alike bears

/-- Every step is answered as the contract says, and the next ones will be borne too. -/
theorem answers_step (through : drill.IsThrough) (bears : drill.Bears step) :
    drill.shared.Answers step (drill.step step).2 (drill.step step).1.shared ∧
      (drill.step step).1.IsThrough ∧ (drill.step step).1.file.store.Alike drill.file.store := by
  cases step with
  | malformed => exact bears.elim
  | ask handle request =>
      by_cases opened : drill.shared.IsOpen handle
      · have served : drill.step (.ask handle request) = drill.serve handle request := if_pos opened
        obtain ⟨serves, throughThen, alike⟩ := @follows drill handle request through bears
        rw [served]
        exact ⟨.served opened serves, throughThen, alike⟩
      · have refused : drill.step (.ask handle request) = (drill, .refused) := if_neg opened
        rw [refused]
        exact ⟨.refused request opened, through, ⟨rfl, rfl, rfl⟩⟩

theorem course_run (through : drill.IsThrough) (bears : ∀ step ∈ steps, drill.Bears step) :
    SharedBytes.Course drill.shared steps (drill.run steps) (drill.after steps).shared ∧
      (drill.after steps).IsThrough ∧ (drill.after steps).file.store.Alike drill.file.store := by
  induction steps generalizing drill with
  | nil => exact ⟨.done _, through, ⟨rfl, rfl, rfl⟩⟩
  | cons step steps inductionHypothesis =>
      obtain ⟨first, rest⟩ := List.forall_mem_cons.mp bears
      obtain ⟨answers, throughThen, alike⟩ := answers_step through first
      -- What the store bears hangs on nothing that a step changes, so the rest is borne after it too.
      have borne : ∀ later ∈ steps, (drill.step step).1.Bears later :=
        fun later member => (rest later member).of_alike alike
      obtain ⟨course, throughLast, alikeLast⟩ := inductionHypothesis throughThen borne
      exact ⟨.step answers course, throughLast, alikeLast.trans alike⟩

theorem run_append (drill : FileDrill) (steps later : List FileStep) :
    drill.run (steps ++ later) = drill.run steps ++ (drill.after steps).run later := by
  induction steps generalizing drill with
  | nil => rfl
  | cons step steps inductionHypothesis =>
      exact congrArg ((drill.step step).2 :: ·) (inductionHypothesis (drill.step step).1)

theorem length_run (drill : FileDrill) (steps : List FileStep) :
    (drill.run steps).length = steps.length := by
  induction steps generalizing drill with
  | nil => rfl
  | cons step steps inductionHypothesis =>
      exact congrArg Nat.succ (inductionHypothesis (drill.step step).1)

/-- A read through an open handle brings the bytes that were written last in its range, by any handle. -/
theorem brings_lastWritten
    {earlier later : List FileStep} {handle offset length : Nat} (through : drill.IsThrough)
    (bears : ∀ step ∈ earlier ++ .ask handle (.read offset length) :: later, drill.Bears step)
    (opened : (drill.after earlier).shared.IsOpen handle) :
    ∃ brought,
      (drill.run (earlier ++ .ask handle (.read offset length) :: later))[earlier.length]? =
          some (.read brought) ∧
        brought.size = min (offset + length) drill.shared.bytes.size - offset ∧
        ∀ index < brought.size, brought[index]? =
          FileStep.lastWritten (offset + index) drill.shared.bytes[offset + index]? earlier
            (drill.run earlier) := by
  obtain ⟨first, rest⟩ := List.forall_mem_append.mp bears
  obtain ⟨course, throughThen, alike⟩ := course_run through first
  have borne := (rest _ List.mem_cons_self).of_alike alike
  have answered : (drill.run (earlier ++ .ask handle (.read offset length) :: later))[earlier.length]? =
      some ((drill.after earlier).step (.ask handle (.read offset length))).2 := by
    rw [run_append, List.getElem?_append_right (Nat.le_of_eq (length_run drill earlier)), length_run,
      Nat.sub_self]
    rfl
  obtain ⟨answers, _⟩ := answers_step throughThen borne
  rw [answered]
  -- Only the contract says what the read brings; the file itself is forgotten here.
  generalize ((drill.after earlier).step (.ask handle (.read offset length))).2 = reply at answers
  generalize ((drill.after earlier).step (.ask handle (.read offset length))).1.shared = next at answers
  cases answers with
  | refused _ shut => exact absurd opened shut
  | served _ serves =>
      cases serves with
      | read size same =>
          rename_i brought
          rw [course.size] at size
          refine ⟨brought, rfl, size, fun index inside => ?_⟩
          rw [same index inside, course.getElem?_bytes (by omega)]

end FileDrill

/-- A file in memory and a file on the host give the same answers to all requests that the host bears,
and hold the same bytes in the end, in whatever pieces the host hands them over. Both keep the contract
of an array whose length is fixed, and every byte that it holds or that a read brings is the one that
was written last, through whichever handle. -/
theorem files_share_fixed_bytes
    (host : HostFile) (steps : List FileStep)
    (bears : ∀ step ∈ steps, (FileDrill.opened (.host host)).Bears step) :
    let onHost := FileDrill.opened (.host host)
    let inMemory := FileDrill.create .memory host.content
    onHost.run steps = inMemory.run steps ∧
      (onHost.after steps).shared = (inMemory.after steps).shared ∧
      SharedBytes.Course ⟨host.content, #[true]⟩ steps (inMemory.run steps)
        (inMemory.after steps).shared ∧
      (inMemory.after steps).shared.bytes.size = host.content.size ∧
      (∀ index < host.content.size, (inMemory.after steps).shared.bytes[index]? =
        FileStep.lastWritten index host.content[index]? steps (inMemory.run steps)) ∧
      ∀ earlier handle offset length later,
        steps = earlier ++ .ask handle (.read offset length) :: later →
          (inMemory.after earlier).shared.IsOpen handle →
            ∃ brought, (inMemory.run steps)[earlier.length]? = some (.read brought) ∧
              brought.size = min (offset + length) host.content.size - offset ∧
              ∀ index < brought.size, brought[index]? =
                FileStep.lastWritten (offset + index) host.content[offset + index]? earlier
                  (inMemory.run earlier) := by
  intro onHost inMemory
  have through : inMemory.IsThrough := FileDrill.isThrough_opened (.memory ⟨host.content⟩)
  have borne : ∀ step ∈ steps, inMemory.Bears step := by
    intro step member
    have onHostBorne := bears step member
    cases step with
    | malformed => exact onHostBorne
    | ask handle request => exact FileStore.bears_memory onHostBorne
  obtain ⟨course, _⟩ := FileDrill.course_run through borne
  obtain ⟨hostCourse, _⟩ := FileDrill.course_run (FileDrill.isThrough_opened (.host host)) bears
  -- Both start from the same bytes and one handle, and the contract leaves neither a choice.
  obtain ⟨sameReplies, sameEnd⟩ := SharedBytes.Course.unique hostCourse course
  refine ⟨sameReplies, sameEnd, course, course.size,
    fun index inside => course.getElem?_bytes inside, ?_⟩
  rintro earlier handle offset length later rfl opened
  exact FileDrill.brings_lastWritten through borne opened

/-- A file of eleven bytes on a host that hands over one byte at a time and seeks every position below
half the words. -/
def drippingHost : HostFile where
  content := "hello world".toUTF8.data
  reach := wordLimit / 2 - 1
  grants _ := 0

/-- One handle writes over the end of the file, and another reads all of it and behind it. -/
def writtenByOther : List FileStep :=
  [.ask 0 .reopen, .ask 1 (.write 9 #[76, 68, 88, 88]), .ask 0 (.read 0 20), .ask 1 .close,
    .ask 0 (.read (wordLimit / 2 - 1) 5), .ask 0 (.write 11 #[33])]

/-- Two of the four bytes are written, and the other handle reads them. -/
theorem files_share_fixed_bytes_of_dripping_host :
    (∀ step ∈ writtenByOther, (FileDrill.opened (.host drippingHost)).Bears step) ∧
      (FileDrill.opened (.host drippingHost)).run writtenByOther =
        [.count 1, .written 2, .read "hello worLD".toUTF8.data, .done, .read #[], .written 0] := by
  have bears : ∀ step ∈ writtenByOther, (FileDrill.opened (.host drippingHost)).Bears step := by
    decide +kernel
  obtain ⟨same, _⟩ := files_share_fixed_bytes drippingHost writtenByOther bears
  refine ⟨bears, same.trans ?_⟩
  decide +kernel

end DemandPaging
