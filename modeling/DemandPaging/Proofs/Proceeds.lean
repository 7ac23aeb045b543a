import DemandPaging.Pager.Memory
import DemandPaging.Proofs.Program
import DemandPaging.Proofs.Runs

/-!
# Programs that proceed by turns

A program proceeds when each of its ends is reached by a run: when it answers, when it fails, and it
halts for want of memory only. A program that calls another goes on from what the other reached.
-/

namespace DemandPaging

/-! ## Kinds of deeds -/

/-- Whether the page at an address may be one by which the stack grows: it is not below the page of the
lowest address that the stack may reach, and it starts below the top of the stack. -/
structure Config.StackReaches (config : Config) (base : Nat) : Prop where
  aligned : pageBase base = base
  above : pageBase config.stackLimit ≤ base
  below : base < config.stackTop

namespace Deed

/-- Deeds by which a page may get a frame. -/
def Claims (owner : Owner) : Deed → Prop
  | claimed other | missed other => other = owner
  | _ => False

/-- Deeds by which a page may be reserved, or its handle be closed instead. -/
def Reserves (owner : Owner) (page : Page) : Deed → Prop
  | reserved other new => other = owner ∧ new = page
  | closed file => page.kind.handle? = some file
  | _ => False

/-- Deeds by which pages of some kind may be reserved for a process. -/
def Lays (pid : Pid) (lays : Page → Prop) : Deed → Prop
  | reserved owner page => owner.pid = pid ∧ lays page
  | reopened _ | closed _ => True
  | _ => False

/-- Deeds by which pages of a process may be made resident and accessed. A page that begins is one of the
stack: it holds no handle and belongs to no region. -/
def Serves (pid : Pid) : Deed → Prop
  | counted => True
  | touched owner | claimed owner | missed owner => owner.pid = pid
  | reserved owner page => owner.pid = pid ∧ page.kind = .pending .zero ∧ page.region = none
  | _ => False

/-- The same if the pages may also be written. -/
def Amends (pid : Pid) : Deed → Prop
  | stored owner => owner.pid = pid
  | deed => deed.Serves pid

/-- Whether a page that begins is one of the stack, at an address that the stack may reach. -/
def Extends (config : Config) : Deed → Prop
  | reserved owner page => page.isStack = true ∧ config.StackReaches owner.va
  | _ => True

/-- Deeds by which pages of a process may be made resident and accessed, after the stack grew if need
be. -/
def Faults (pid : Pid) : Deed → Prop
  | counted | closed _ => True
  | touched owner | claimed owner | missed owner => owner.pid = pid
  | reserved owner page => owner.pid = pid ∧ page.kind = .pending .zero
  | _ => False

/-- Deeds by which the memory of a process may be written. -/
def Writes (pid : Pid) : Deed → Prop
  | stored owner => owner.pid = pid
  | deed => deed.Faults pid

/-- Deeds by which a process may end. -/
def Ends (pid : Pid) : Deed → Prop
  | discarded owner _ => owner.pid = pid
  | removed other => other = pid
  | closed _ => True
  | _ => False

/-- Deeds by which the pages of a region may be discarded. -/
def Withdraws (pid : Pid) (region : Region) : Deed → Prop
  | discarded owner page => owner.pid = pid ∧ page.region = some region.base ∧
      ∃ index < region.pageCount, owner.va = pageBase (region.base + index * pageSize)
  | closed _ => True
  | _ => False

/-- Deeds by which the region that starts at an address may be removed, if one is recorded. -/
def Unmaps (pid : Pid) (base : Nat) (recorded : Option Region) : Deed → Prop
  | relaid other reach => other = pid ∧ reach = .at base
  | deed => ∃ region, recorded = some region ∧ deed.Withdraws pid region

/-- Deeds by which pages of some kind may be mapped for a process at an address, and removed again where
there were none. -/
def Maps (pid : Pid) (base : Nat) (vacant : Owner → Prop) (lays : Page → Prop) : Deed → Prop
  | relaid other reach => other = pid ∧ reach = .at base
  | discarded owner _ => owner.pid = pid ∧ vacant owner
  | deed => deed.Lays pid lays

/-- Deeds by which the stack of a process may be made. -/
def Stacks (pid : Pid) : Deed → Prop
  | relaid other reach => other = pid ∧ reach = .nowhere
  | deed => deed.Faults pid

/-- Deeds for a process that change no content but by beginning and ending it. -/
def Uses (pid : Pid) : Deed → Prop
  | counted | reopened _ | closed _ => True
  | created other | relaid other _ | removed other => other = pid
  | touched owner | reserved owner _ | discarded owner _ | claimed owner | missed owner =>
      owner.pid = pid
  | _ => False

variable {deed : Deed} {pid : Pid} {owner : Owner} {page : Page} {laid : Page → Prop}

theorem Uses.not_alters (uses : deed.Uses pid) (owner : Owner) : ¬ deed.Alters owner := by
  rintro (rfl | rfl) <;> exact uses

theorem Uses.touches (uses : deed.Uses pid) (touches : deed.Touches owner) : owner.pid = pid := by
  rcases touches with ⟨page, rfl⟩ | rfl | alters
  · exact uses
  · exact uses
  · exact absurd alters (uses.not_alters owner)

theorem Claims.serves (claims : deed.Claims owner) : deed.Serves owner.pid := by
  cases deed <;> first | exact congrArg Owner.pid claims | exact absurd claims id

theorem Claims.extends (claims : deed.Claims owner) (config : Config) : deed.Extends config := by
  cases deed <;> first | exact trivial | exact absurd claims id

theorem Serves.amends (serves : deed.Serves pid) : deed.Amends pid := by
  cases deed <;> first | exact serves | exact absurd serves id

theorem Serves.faults (serves : deed.Serves pid) : deed.Faults pid := by
  cases deed <;> first | exact serves | exact ⟨serves.1, serves.2.1⟩ | exact absurd serves id

theorem Amends.writes (amends : deed.Amends pid) : deed.Writes pid := by
  cases deed <;> first | exact amends | exact ⟨amends.1, amends.2.1⟩ | exact absurd amends id

theorem Reserves.lays (reserves : deed.Reserves owner page) (lays : laid page) :
    deed.Lays owner.pid laid := by
  cases deed <;> first
    | (obtain ⟨rfl, rfl⟩ := reserves; exact ⟨rfl, lays⟩)
    | exact trivial
    | exact absurd reserves id

theorem Reserves.serves (reserves : deed.Reserves owner page) (zero : page.kind = .pending .zero)
    (outside : page.region = none) : deed.Serves owner.pid := by
  cases deed with
  | reserved other new =>
      obtain ⟨rfl, rfl⟩ := reserves
      exact ⟨rfl, zero, outside⟩
  | closed file =>
      rw [Reserves, zero] at reserves
      cases reserves
  | _ => exact absurd reserves id

theorem Reserves.extends {config : Config} (reserves : deed.Reserves owner page)
    (isStack : page.isStack = true) (reached : config.StackReaches owner.va) : deed.Extends config := by
  cases deed with
  | reserved other new =>
      obtain ⟨rfl, rfl⟩ := reserves
      exact ⟨isStack, reached⟩
  | _ => exact trivial

theorem Lays.mono {more : Page → Prop} (lays : deed.Lays pid laid)
    (fewer : ∀ page, laid page → more page) : deed.Lays pid more := by
  cases deed <;> first | exact ⟨lays.1, fewer _ lays.2⟩ | exact trivial | exact absurd lays id

theorem Lays.not_replaces (lays : deed.Lays pid laid) (other : Pid) : ¬ deed.Replaces other := by
  rintro (rfl | rfl | ⟨_, rfl⟩) <;> exact lays

theorem Lays.uses (lays : deed.Lays pid laid) : deed.Uses pid := by
  cases deed <;> first | exact lays | exact lays.1 | exact absurd lays id

theorem Faults.uses (faults : deed.Faults pid) : deed.Uses pid := by
  cases deed <;> first | exact faults | exact faults.1 | exact absurd faults id

theorem Faults.writes (faults : deed.Faults pid) : deed.Writes pid := by
  cases deed <;> first | exact faults | exact absurd faults id

theorem Faults.stacks (faults : deed.Faults pid) : deed.Stacks pid := by
  cases deed <;> first | exact faults | exact absurd faults id

theorem Stacks.uses (made : deed.Stacks pid) : deed.Uses pid := by
  cases deed <;> first | exact made | exact made.1 | exact absurd made id

theorem Ends.uses (ends : deed.Ends pid) : deed.Uses pid := by
  cases deed <;> first | exact ends | exact absurd ends id

theorem Withdraws.not_replaces {region : Region} (withdraws : deed.Withdraws pid region)
    (other : Pid) : ¬ deed.Replaces other := by
  rintro (rfl | rfl | ⟨_, rfl⟩) <;> exact withdraws

theorem Withdraws.uses {region : Region} (withdraws : deed.Withdraws pid region) :
    deed.Uses pid := by
  cases deed <;> first | exact withdraws | exact withdraws.1 | exact absurd withdraws id

theorem Withdraws.unmaps {base : Nat} {region : Region} (withdraws : deed.Withdraws pid region) :
    deed.Unmaps pid base (some region) := by
  cases deed <;> first | exact ⟨region, rfl, withdraws⟩ | exact absurd withdraws id

theorem Unmaps.uses {base : Nat} {recorded : Option Region}
    (unmaps : deed.Unmaps pid base recorded) : deed.Uses pid := by
  cases deed <;> first
    | exact unmaps.1
    | (obtain ⟨region, _, withdraws⟩ := unmaps; exact withdraws.uses)

theorem Lays.maps {base : Nat} {vacant : Owner → Prop} (lays : deed.Lays pid laid) :
    deed.Maps pid base vacant laid := by
  cases deed <;> first | exact lays | exact absurd lays id

/-- Where the pages of a region were vacant the region may be removed again. -/
theorem Withdraws.maps
    {region : Region} {vacant : Owner → Prop} (withdraws : deed.Withdraws pid region)
    (clear : ∀ index < region.pageCount, vacant ⟨pid, pageBase (region.base + index * pageSize)⟩) :
    deed.Maps pid region.base vacant laid := by
  cases deed with
  | discarded owner page =>
      obtain ⟨samePid, _, index, inside, place⟩ := withdraws
      have cleared := clear index inside
      rw [← place, ← samePid] at cleared
      exact ⟨samePid, cleared⟩
  | closed => trivial
  | _ => exact absurd withdraws id

theorem Unmaps.maps
    {region : Region} {vacant : Owner → Prop} (unmaps : deed.Unmaps pid region.base (some region))
    (clear : ∀ index < region.pageCount, vacant ⟨pid, pageBase (region.base + index * pageSize)⟩) :
    deed.Maps pid region.base vacant laid := by
  cases deed with
  | relaid other reach => exact unmaps
  | _ =>
      obtain ⟨_, ⟨⟩, withdraws⟩ := unmaps
      exact withdraws.maps clear

theorem Maps.mono {base : Nat} {vacant : Owner → Prop} {more : Page → Prop}
    (maps : deed.Maps pid base vacant laid) (fewer : ∀ page, laid page → more page) :
    deed.Maps pid base vacant more := by
  cases deed <;> first | exact maps | exact ⟨maps.1, fewer _ maps.2⟩

theorem Maps.uses {base : Nat} {vacant : Owner → Prop} (maps : deed.Maps pid base vacant laid) :
    deed.Uses pid := by
  cases deed <;> first | exact maps | exact maps.1 | exact absurd maps id

end Deed

/-! ## Errors and halts -/

/-- Faults of the bookkeeping. -/
def ArgumentFault.IsInternal : ArgumentFault → Prop
  | victimFrameFree | victimPageMissing | pageNotResident | pageNotInitialized | pageWithoutFrame
  | parentPageVanished | parentPageNotResident | copyNotResident | regionVanished => True
  | _ => False

/-- Errors with which a process may end that cannot go on. -/
def PagingError.IsLethal (error : PagingError) (pid : Pid) : Prop :=
  error.isFatal = true ∨ error = .noSuchProcess pid

/-- Errors that only broken bookkeeping can cause. -/
def PagingError.IsInternal : PagingError → Prop
  | mappingFailed _ | swapExhausted => True
  | invalidArgument fault => fault.IsInternal
  | _ => False

namespace Pager

/-- A process cannot go on: it met a fatal error, or there is no such process. -/
def Bars (pager : Pager) (pid : Pid) (error : PagingError) : Prop :=
  error.isFatal = true ∨ (error = .noSuchProcess pid ∧ pager.space? pid = none)

theorem Bars.isLethal {pager : Pager} {pid : Pid} {error : PagingError} (bars : pager.Bars pid error) :
    error.IsLethal pid :=
  bars.imp id And.left

/-- A page of anonymous memory could not be swapped out of the frame that the policy chose: all slots are
in use, or the last transfer was a write that failed. -/
structure Stuck (pager : Pager) (victim : Nat) (error : PagingError) (owner : Owner) : Prop where
  owned : pager.ledger.owners victim = some owner
  anonymous : ∃ page, pager.ledger.pages owner = some page ∧ page.frame = some victim ∧
    page.kind = .anonymous none
  cause : (error = .swapExhausted ∧ ∀ slot, slot < pager.swap.slotCount →
      pager.swap.used.get slot = true) ∨
    (error = .io owner.va ∧ ∃ sector,
      pager.swap.device.transfers.head? = some ⟨.write, sector, false⟩)

/-- Memory is exhausted: there are no frames, or a page of anonymous memory could not be swapped out. -/
def Exhausted (pager : Pager) (frameCount : Nat) : Halt → Prop
  | .noVictim => frameCount = 0
  | .evictionFailed victim error => ∃ owner, pager.Stuck victim error owner
  | _ => False

/-- What a program may do last before it halts: nothing to pages, files and slots, but it may store a page in
a slot in vain and give the slot back. -/
structure Breaks (last after : Pager) : Prop where
  pages : after.ledger.pages = last.ledger.pages
  files : after.files = last.files
  slots : (after.journal = last.journal ∧ after.swap = last.swap) ∨
    ∃ owner slot reserved stored image, last.swap.reserve? = some (slot, reserved) ∧
      reserved.store slot image = (stored, false) ∧
        after.journal = .swapped owner .write slot (reserved.used.get slot)
          (stored.transfersSince reserved) :: last.journal ∧
            after.swap = stored.release slot

theorem Breaks.refl (pager : Pager) : pager.Breaks pager :=
  ⟨rfl, rfl, Or.inl ⟨rfl, rfl⟩⟩

/-- A program that may reserve pages of a segment adds up their places in the file, and a build that checks
its sums halts where one is no word. -/
structure Overflows (allowed : Deed → Prop) (config : Config) (reason : Halt) : Prop where
  isSum : reason = .sumTooLarge
  checked : config.arithmetic = .checked
  reads : ∃ owner page range, allowed (.reserved owner page) ∧ page.kind = .pending (.segment range)

theorem Overflows.mono
    {allowed more : Deed → Prop} {config : Config} {reason : Halt}
    (overflows : Overflows allowed config reason) (fewer : ∀ deed, allowed deed → more deed) :
    Overflows more config reason := by
  obtain ⟨isSum, checked, owner, page, range, permitted, reads⟩ := overflows
  exact ⟨isSum, checked, owner, page, range, fewer _ permitted, reads⟩

/-- A program halts after deeds of some kind, and what it did last came to nothing. -/
structure Stops (allowed : Deed → Prop) (before : Pager) (reason : Halt) (after : Pager) : Prop where
  cause : after.Exhausted before.config.frameCount reason ∨ Overflows allowed before.config reason
  runs : ∃ last, Runs allowed before last ∧ last.Breaks after

namespace Stops

variable {allowed more : Deed → Prop} {before middle after : Pager} {reason : Halt}

theorem mono (stops : Stops allowed before reason after)
    (fewer : ∀ deed, allowed deed → more deed) : Stops more before reason after :=
  ⟨stops.cause.imp id fun overflows => overflows.mono fewer,
    stops.runs.imp fun _ halted => ⟨halted.1.mono fewer, halted.2⟩⟩

theorem rebase (stops : Stops allowed middle reason after) (runs : Runs allowed before middle) :
    Stops allowed before reason after where
  cause := by
    rw [← runs.config]
    exact stops.cause
  runs := stops.runs.imp fun _ halted => ⟨runs.trans halted.1, halted.2⟩

end Stops

/-! ## Proceeding -/

/-- How a program ends that proceeds by deeds of some kind. -/
def Proceeds {α : Type} (allowed : Deed → Prop) (before : Pager) (answers : α → Pager → Prop)
    (fails : PagingError → Pager → Prop) : Ending α where
  answers answer after := Reaches allowed before after ∧ answers answer after
  fails error after := Reaches allowed before after ∧ ¬ error.IsInternal ∧ fails error after
  halts reason after := Stops allowed before reason after

end Pager

namespace PagerM

open Pager

variable {α β : Type} {allowed more : Deed → Prop} {before middle : Pager}
  {answers : α → Pager → Prop} {fails stops : PagingError → Pager → Prop}

/-- A program may be said to do more and to promise less. -/
theorem Meets.weaken
    {program : PagerM α} {weaker : α → Pager → Prop}
    (meets : program.Meets before (Proceeds allowed before answers fails))
    (fewer : ∀ deed, allowed deed → more deed)
    (answered : ∀ answer after, Reaches allowed before after → answers answer after →
      weaker answer after)
    (failed : ∀ error after, Reaches allowed before after → fails error after →
      stops error after) :
    program.Meets before (Proceeds more before weaker stops) :=
  meets.mono
    (fun answer after ⟨reaches, holds⟩ =>
      ⟨reaches.mono fewer, answered answer after reaches holds⟩)
    (fun error after ⟨reaches, external, holds⟩ =>
      ⟨reaches.mono fewer, external, failed error after reaches holds⟩)
    fun _ _ stops => stops.mono fewer

/-- A program may be said to do more. -/
theorem Meets.widen
    {program : PagerM α} (meets : program.Meets before (Proceeds allowed before answers fails))
    (fewer : ∀ deed, allowed deed → more deed) :
    program.Meets before (Proceeds more before answers fails) :=
  meets.weaken fewer (fun _ _ _ => id) fun _ _ _ => id

/-- What a program answers it answers by its run. -/
theorem Meets.ran
    {program : PagerM α} (meets : program.Meets before (Proceeds allowed before answers fails)) :
    program.Meets before (Proceeds allowed before
      (fun answer after => program before = .ok answer after ∧ answers answer after) fails) := by
  unfold Meets at meets ⊢
  split
  · rename_i answer after run
    rw [run] at meets
    exact ⟨meets.1, run, meets.2⟩
  · rename_i error after run
    rw [run] at meets
    exact meets
  · rename_i reason after run
    rw [run] at meets
    exact meets

/-- A program that starts where a run ended continues the run. -/
theorem Meets.rebase
    {program : PagerM α} (reaches : Reaches allowed before middle)
    (meets : program.Meets middle (Proceeds allowed middle answers fails)) :
    program.Meets middle (Proceeds allowed before answers fails) :=
  meets.mono
    (fun _ _ ⟨later, holds⟩ => ⟨reaches.trans later, holds⟩)
    (fun _ _ ⟨later, holds⟩ => ⟨reaches.trans later, holds⟩)
    fun _ _ stops => stops.rebase reaches.runs

/-- After a program that proceeds another may go on. -/
theorem Meets.andThen
    {program : PagerM α} {next : α → PagerM β} {concludes : β → Pager → Prop}
    (first : program.Meets before (Proceeds allowed before answers fails))
    (rest : ∀ answer middle, Reaches allowed before middle → answers answer middle →
      (next answer).Meets middle (Proceeds allowed middle concludes stops))
    (failed : ∀ error after, Reaches allowed before after → fails error after →
      stops error after) :
    (program >>= next).Meets before (Proceeds allowed before concludes stops) := by
  rw [meets_bind]
  exact first.mono
    (fun answer middle ⟨reaches, holds⟩ =>
      (rest answer middle reaches holds).rebase reaches)
    (fun error after ⟨reaches, external, holds⟩ =>
      ⟨reaches, external, failed error after reaches holds⟩)
    fun _ _ stops => stops

/-- A program may be followed by an answer. -/
theorem Meets.andAnswer
    {program : PagerM α} {answer : α → β} {concludes : β → Pager → Prop}
    (meets : program.Meets before (Proceeds allowed before answers fails))
    (answered : ∀ result after, Reaches allowed before after → answers result after →
      concludes (answer result) after)
    (failed : ∀ error after, Reaches allowed before after → fails error after →
      stops error after) :
    (program >>= fun result => pure (answer result)).Meets before
      (Proceeds allowed before concludes stops) := by
  rw [meets_bind]
  exact meets.weaken (fun _ => id) answered failed

/-- What a program came to that was run as an attempt and followed by an answer. -/
theorem Meets.of_answered
    {program : PagerM α} {answer : α → β} {outcome : Except PagingError β} {after : Pager}
    (meets : program.Meets before (Proceeds allowed before answers fails))
    (run : attempt (program >>= fun result => pure (answer result)) before = .ok outcome after) :
    (∃ result, outcome = .ok (answer result) ∧ Reaches allowed before after ∧ answers result after) ∨
      ∃ error, outcome = .error error ∧ Reaches allowed before after ∧ fails error after := by
  have answered : (program >>= fun result => pure (answer result)).Meets before
      (Proceeds allowed before (fun brought after => ∃ result, brought = answer result ∧
        answers result after) fails) :=
    meets.andAnswer (fun result _ _ holds => ⟨result, rfl, holds⟩) fun _ _ _ => id
  rcases answered.of_attempt run with ⟨_, rfl, reaches, result, rfl, holds⟩ |
    ⟨error, rfl, reaches, _, holds⟩
  · exact Or.inl ⟨result, rfl, reaches, holds⟩
  · exact Or.inr ⟨error, rfl, reaches, holds⟩

/-- Whatever a program came to, it came there by what it may do. -/
theorem Meets.reaches_of_answered
    {program : PagerM α} {answer : α → β} {outcome : Except PagingError β} {after : Pager}
    (meets : program.Meets before (Proceeds allowed before answers fails))
    (run : attempt (program >>= fun result => pure (answer result)) before = .ok outcome after) :
    Reaches allowed before after := by
  rcases meets.of_answered run with ⟨_, _, reaches, _⟩ | ⟨_, _, reaches, _⟩
  · exact reaches
  · exact reaches

/-- After a program that proceeds another may go on, also when it failed. -/
theorem Meets.andThenAttempt
    {program : PagerM α} {next : Except PagingError α → PagerM β} {concludes : β → Pager → Prop}
    (first : program.Meets before (Proceeds allowed before answers fails))
    (answered : ∀ answer middle, Reaches allowed before middle → answers answer middle →
      (next (.ok answer)).Meets middle (Proceeds allowed middle concludes stops))
    (failed : ∀ error middle, Reaches allowed before middle → ¬ error.IsInternal →
      fails error middle →
        (next (.error error)).Meets middle (Proceeds allowed middle concludes stops)) :
    (attempt program >>= next).Meets before (Proceeds allowed before concludes stops) := by
  rw [meets_bind, meets_attempt]
  exact first.mono
    (fun answer middle ⟨reaches, holds⟩ =>
      (answered answer middle reaches holds).rebase reaches)
    (fun error middle ⟨reaches, external, holds⟩ =>
      (failed error middle reaches external holds).rebase reaches)
    fun _ _ stops => stops

/-- A program may start with a change. -/
theorem Meets.afterChange
    {program : PagerM α} {change : Pager → Pager}
    (reaches : Reaches allowed before (change before))
    (rest : program.Meets (change before)
      (Proceeds allowed (change before) answers fails)) :
    (modify change >>= fun _ => program).Meets before
      (Proceeds allowed before answers fails) := by
  rw [meets_bind]
  exact rest.rebase reaches

/-- A program may answer where it stands. -/
theorem answers_here {answer : α} (holds : answers answer before) :
    (Proceeds allowed before answers fails).answers answer before :=
  ⟨.refl before, holds⟩

/-- A program may fail where it stands. -/
theorem fails_here {error : PagingError} (external : ¬ error.IsInternal)
    (holds : fails error before) :
    (Proceeds allowed before answers fails).fails error before :=
  ⟨.refl before, external, holds⟩

/-- A program may end with one change. -/
theorem meets_modify_turn
    {change : Pager → Pager} {deed : Deed} {answers : PUnit → Pager → Prop}
    (turn : Turn deed before (change before)) (sound : before.ledger.Sound none)
    (permitted : allowed deed) (unpinning : ∀ frame, deed ≠ .pinned frame)
    (holds : answers ⟨⟩ (change before)) :
    Meets (modify change) before (Proceeds allowed before answers fails) :=
  ⟨.turn turn sound permitted unpinning, holds⟩

end PagerM

/-! ## Programs that look and check -/

namespace Pager

open PagerM

variable {α : Type} {pager : Pager} {frame : Nat}

theorem meets_requireSpace (pid : Pid) (pager : Pager) (ending : Ending AddressSpace) :
    (requireSpace pid).Meets pager ending ↔
      match pager.space? pid with
      | some space => ending.answers space pager
      | none => ending.fails (.noSuchProcess pid) pager := by
  simp only [requireSpace, meets_bind, meets_get]
  cases pager.space? pid <;> rfl

theorem meets_checkUserAddress (va : Nat) (pager : Pager) (ending : Ending Unit) :
    (checkUserAddress va).Meets pager ending ↔
      if va = 0 then ending.fails (.invalidAccess va .nullAddress) pager
      else if pager.config.kernelBase ≤ va then
        ending.fails (.invalidAccess va .kernelAddress) pager
      else ending.answers ⟨⟩ pager := by
  unfold checkUserAddress
  split
  · rfl
  · simp only [meets_bind, meets_get]
    split <;> rfl

theorem meets_reopenFile (file : FileId) (pager : Pager) (ending : Ending Bool) :
    (reopenFile file).Meets pager ending ↔
      ending.answers (pager.files.reopen file).2
        { pager with files := (pager.files.reopen file).1 } :=
  Iff.rfl

theorem proceeds_reopenFile
    {allowed : Deed → Prop} {file : FileId} (sound : pager.ledger.Sound none)
    (permitted : allowed (.reopened file)) :
    (reopenFile file).Meets pager (Proceeds allowed pager
      (fun _ after => after = { pager with files := (pager.files.reopen file).1 })
      fun _ _ => False) :=
  (meets_reopenFile ..).mpr ⟨.turn (.reopened pager file) sound permitted (by simp), rfl⟩

theorem meets_checkFrame
    (inside : frame < pager.frames.frameCount) (ending : Ending Unit) :
    (checkFrame frame).Meets pager ending ↔ ending.answers ⟨⟩ pager := by
  simp only [checkFrame, meets_bind, meets_get, meets_checkIndex inside]

theorem meets_frameOwner
    (inside : frame < pager.frames.frameCount) (ending : Ending (Option Owner)) :
    (frameOwner frame).Meets pager ending ↔ ending.answers (pager.ledger.owners frame) pager := by
  simp only [frameOwner, meets_bind, meets_checkFrame inside, meets_get, meets_pure, ledger]

theorem meets_assignFrame
    (inside : frame < pager.frames.frameCount) (owner : Owner) (ending : Ending Unit) :
    (assignFrame frame owner).Meets pager ending ↔
      ending.answers ⟨⟩ (pager.modifyFrames fun frames => frames.assign frame owner) := by
  simp only [assignFrame, meets_bind, meets_checkFrame inside, meets_modify]

theorem meets_releaseFrame
    (inside : frame < pager.frames.frameCount) {owner : Owner}
    (owned : pager.ledger.owners frame = some owner) (ending : Ending Unit) :
    (releaseFrame frame).Meets pager ending ↔
      ending.answers ⟨⟩ (pager.modifyFrames fun frames => frames.release frame) := by
  simp [releaseFrame, meets_bind, meets_frameOwner inside, owned, meets_insist, meets_modify]

theorem meets_pinFrame (inside : frame < pager.frames.frameCount) (ending : Ending Unit) :
    (pinFrame frame).Meets pager ending ↔
      ending.answers ⟨⟩ (pager.modifyFrames fun frames => frames.pin frame) := by
  simp only [pinFrame, meets_bind, meets_checkFrame inside, meets_modify]

theorem meets_unpinFrame (inside : frame < pager.frames.frameCount) (ending : Ending Unit) :
    (unpinFrame frame).Meets pager ending ↔
      ending.answers ⟨⟩ (pager.modifyFrames fun frames => frames.unpin frame) := by
  simp only [unpinFrame, meets_bind, meets_checkFrame inside, meets_modify]

theorem meets_checkBytes (inside : frame < pager.frames.frameCount) (ending : Ending Unit) :
    (checkBytes frame).Meets pager ending ↔ ending.answers ⟨⟩ pager := by
  have bounded : frameBase frame + pageSize ≤ pager.frames.frameCount * pageSize := by
    rw [frameBase, ← Nat.succ_mul]
    exact Nat.mul_le_mul_right pageSize inside
  simp only [checkBytes, meets_bind, meets_get, meets_checkRange _ bounded]

theorem meets_frameImage (inside : frame < pager.frames.frameCount) (ending : Ending Image) :
    (frameImage frame).Meets pager ending ↔
      ending.answers (pager.frames.image frame) pager := by
  simp only [frameImage, meets_bind, meets_checkBytes inside, meets_get, meets_pure]

theorem meets_checkPhysical
    {address length : Nat} (stays : address % pageSize + length ≤ pageSize)
    (inside : address / pageSize < pager.frames.frameCount) (ending : Ending Unit) :
    (checkPhysical address length).Meets pager ending ↔ ending.answers ⟨⟩ pager := by
  have bounded : address + length ≤ pager.frames.frameCount * pageSize := by
    have above := Nat.mul_le_mul_right pageSize (Nat.succ_le_of_lt inside)
    have split := Nat.div_add_mod address pageSize
    rw [Nat.succ_mul] at above
    rw [Nat.mul_comm] at split
    omega
  simp [checkPhysical, meets_bind, meets_insist, meets_get, stays, meets_checkRange _ bounded]

end Pager

end DemandPaging
