import DemandPaging.Pager.Call
import DemandPaging.Proofs.Copying

/-!
# Calls

Every call proceeds by deeds for the processes it is about, and does to the contents what it does to flat
memory: first contents begin, discarded pages end, bytes are written, and children get what their parents
have.
-/

namespace DemandPaging

/-! ## Flat memory -/

/-- A call with its outcome and what was noted of it, the latest first. -/
structure Event where
  call : Call
  outcome : Except PagingError Answer
  activity : List Activity

namespace Event

/-- What becomes of flat memory by what was noted of an event: pages get first contents and end. -/
def noted (event : Event) (memory : Owner → Option Image) (owner : Owner) : Option Image :=
  Activity.replay event.activity owner (memory owner)

/-- What becomes of flat memory by an event: besides what was noted nothing counts but bytes that were
written and copies of processes. -/
def after (event : Event) (memory : Owner → Option Image) (owner : Owner) : Option Image :=
  match event.outcome, event.call with
  | .ok _, .writeUser pid va bytes =>
      if owner.pid = pid then
        (event.noted memory owner).map fun image => image.writtenFrom owner.va va bytes 0
      else event.noted memory owner
  | .ok _, .fork parent child =>
      if owner.pid = child then event.noted memory ⟨parent, owner.va⟩
      else event.noted memory owner
  | _, _ => event.noted memory owner

end Event

/-- Flat memory after events, the latest first. -/
def flatMemory : List Event → Owner → Option Image
  | [] => fun _ => none
  | event :: earlier => event.after (flatMemory earlier)

/-! ## What calls may do -/

namespace Call

/-- The deeds by which a call is answered. -/
def Does (before : Pager) : Call → Deed → Prop
  | createProcess pid => fun deed => deed = .created pid
  | exitProcess pid => Deed.Ends pid
  | fork parent child => Deed.Forks before.ledger.pages parent child
  | allocate pid _ _ writable => Deed.Lays pid (Page.Loads writable .zero)
  | allocateLazily pid _ writable load => Deed.Lays pid (Page.Loads writable load)
  | loadSegment pid file _ => Deed.Lays pid (Page.LoadsSegment file)
  | setupStack pid => Deed.Stacks pid
  | setStackPointer pid _ => fun deed => deed = .relaid pid .nowhere
  | claim pid _ | handlePageFault pid _ | readUser pid .. => Deed.Faults pid
  | map pid base _ writable file _ =>
      Deed.Maps pid base (fun owner => before.ledger.pages owner = none)
        (Page.LoadsMapping base writable file)
  | unmap pid base => Deed.Unmaps pid base (before.region? pid base)
  | writeUser pid .. => Deed.Writes pid
  | stackPointer _ | pageType .. | isResident .. | stats | config => fun _ => False

/-- The process that ends when a call fails. -/
def victim? : Call → Option Pid
  | fork _ child => some child
  | handlePageFault pid _ | readUser pid .. | writeUser pid .. => some pid
  | _ => none

/-- The deeds by which a call may proceed, also if it fails. -/
def Permits (before : Pager) (call : Call) (deed : Deed) : Prop :=
  call.Does before deed ∨ ∃ pid, call.victim? = some pid ∧ deed.Ends pid

/-- The processes that a call is about. -/
def Concerns (call : Call) (pid : Pid) : Prop :=
  match call with
  | fork parent child => pid = parent ∨ pid = child
  | createProcess other | exitProcess other | allocate other .. | allocateLazily other ..
  | loadSegment other .. | setupStack other | setStackPointer other _ | stackPointer other
  | claim other _ | handlePageFault other _ | map other .. | unmap other _ | readUser other ..
  | writeUser other .. | pageType other _ | isResident other _ => pid = other
  | stats | config => False

/-- Whether a call does no more to contents than to begin and to end them. -/
def IsPlain : Call → Prop
  | writeUser .. | fork .. => False
  | _ => True

/-- What is asked of the arguments of a call: a lazy load fits a page, and a stack ends with one, which starts
at a word if the build checks its differences. -/
def IsAdmissible (call : Call) (config : Config) : Prop :=
  match call with
  | allocateLazily _ _ _ load => (PageKind.pending load).readLength ≤ pageSize
  | setupStack _ => config.HasStackPage
  | _ => True

end Call

namespace Deed

variable {deed : Deed} {owner : Owner} {pid parent child : Pid}

theorem Writes.touches (writes : deed.Writes pid) (touches : deed.Touches owner) :
    owner.pid = pid := by
  rcases touches with ⟨page, rfl⟩ | rfl | rfl | rfl <;>
    first | exact writes | exact absurd writes id

theorem Forks.touches {originals : Owner → Option Page} (forks : deed.Forks originals parent child)
    (touches : deed.Touches owner) : owner.pid = parent ∨ owner.pid = child := by
  rcases touches with ⟨page, rfl⟩ | rfl | rfl | rfl
  · exact absurd forks id
  · exact forks
  · exact absurd forks id
  · exact Or.inr forks

end Deed

namespace Call

variable {call : Call} {before : Pager} {deed : Deed} {owner : Owner}

/-- A plain call is made for one process. -/
theorem Does.uses (does : call.Does before deed) (plain : call.IsPlain) :
    ∃ pid, call.Concerns pid ∧ deed.Uses pid := by
  cases call with
  | createProcess pid =>
      cases does
      exact ⟨pid, rfl, rfl⟩
  | setStackPointer pid address =>
      cases does
      exact ⟨pid, rfl, rfl⟩
  | exitProcess pid => exact ⟨pid, rfl, Deed.Ends.uses does⟩
  | allocate pid | allocateLazily pid | loadSegment pid => exact ⟨pid, rfl, Deed.Lays.uses does⟩
  | setupStack pid => exact ⟨pid, rfl, Deed.Stacks.uses does⟩
  | claim pid | handlePageFault pid | readUser pid => exact ⟨pid, rfl, Deed.Faults.uses does⟩
  | map pid => exact ⟨pid, rfl, Deed.Maps.uses does⟩
  | unmap pid => exact ⟨pid, rfl, Deed.Unmaps.uses does⟩
  | fork | writeUser => exact absurd plain id
  | stackPointer | pageType | isResident | stats | config => exact absurd does id

theorem concerns_victim {pid : Pid} (victim : call.victim? = some pid) : call.Concerns pid := by
  cases call <;> cases victim
  · exact Or.inr rfl
  all_goals rfl

theorem Permits.not_alters (permits : call.Permits before deed) (plain : call.IsPlain)
    (owner : Owner) : ¬ deed.Alters owner := by
  rcases permits with does | ⟨pid, _, ends⟩
  · obtain ⟨pid, _, uses⟩ := does.uses plain
    exact uses.not_alters owner
  · exact ends.uses.not_alters owner

/-- A call changes contents of processes only that it is about. -/
theorem Permits.touches (permits : call.Permits before deed) (touches : deed.Touches owner) :
    call.Concerns owner.pid := by
  rcases permits with does | ⟨pid, victim, ends⟩
  · cases call with
    | fork parent child => exact Deed.Forks.touches does touches
    | writeUser pid va bytes => exact Deed.Writes.touches does touches
    | _ =>
        obtain ⟨pid, concerns, uses⟩ := does.uses (by trivial)
        rw [uses.touches touches]
        exact concerns
  · rw [ends.uses.touches touches]
    exact concerns_victim victim

end Call

/-! ## What calls do -/

theorem Event.after_of_plain
    {call : Call} (plain : call.IsPlain) (outcome : Except PagingError Answer)
    (activity : List Activity) (memory : Owner → Option Image) (owner : Owner) :
    Event.after ⟨call, outcome, activity⟩ memory owner =
      Activity.replay activity owner (memory owner) := by
  cases call with
  | writeUser => exact absurd plain id
  | fork => exact absurd plain id
  | _ => cases outcome <;> rfl

theorem Event.after_error
    (call : Call) (error : PagingError) (activity : List Activity)
    (memory : Owner → Option Image) (owner : Owner) :
    Event.after ⟨call, .error error, activity⟩ memory owner =
      Activity.replay activity owner (memory owner) :=
  rfl

/-- What an event tells is what happened. -/
structure Event.Tells (event : Event) (before after : Pager) : Prop where
  noted : after.journal = event.activity ++ before.journal
  content : after.ledger.content = event.after before.ledger.content
  backed : ∀ owner succeeded,
    Activity.fetched owner (.anonymous none) succeeded ∉ event.activity

namespace Pager

open PagerM

variable {before after : Pager} {pid : Pid}

theorem tells_of_plain
    {call : Call} {allowed : Deed → Prop} (plain : call.IsPlain)
    (runs : Runs allowed before after) (sound : before.ledger.Sound none)
    (unaltered : ∀ deed owner, allowed deed → ¬ deed.Alters owner)
    (outcome : Except PagingError Answer) :
    ∃ activity, Event.Tells ⟨call, outcome, activity⟩ before after := by
  obtain ⟨activity, accounts⟩ := runs.accounts sound
  refine ⟨activity, accounts.noted, funext fun owner => ?_, accounts.backed⟩
  rw [Event.after_of_plain plain]
  exact accounts.content owner fun deed permitted => unaltered deed owner permitted

theorem tells_of_same (pager : Pager) (call : Call) (error : PagingError) :
    ∃ activity, Event.Tells ⟨call, .error error, activity⟩ pager pager := by
  refine ⟨[], rfl, funext fun owner => ?_, fun _ _ => List.not_mem_nil⟩
  rw [Event.after_error]
  rfl

/-- A call that fails and leaves no process whose contents it could have changed tells what happened. -/
theorem tells_of_gone
    {allowed : Deed → Prop} (runs : Runs allowed before after) (sound : before.ledger.Sound none)
    (gone : after.space? pid = none)
    (unaltered : ∀ deed owner, allowed deed → deed.Alters owner → owner.pid = pid)
    (call : Call) (error : PagingError) :
    ∃ activity, Event.Tells ⟨call, .error error, activity⟩ before after := by
  obtain ⟨activity, accounts⟩ := runs.accounts sound
  refine ⟨activity, accounts.noted, funext fun owner => ?_, accounts.backed⟩
  rw [Event.after_error]
  by_cases same : owner.pid = pid
  · have vacant := Ledger.content_of_vacant (pages_of_absent gone owner.va)
    rw [← same] at vacant
    rw [accounts.replay_eq_none vacant]
    exact vacant
  · apply accounts.content owner
    intro deed permitted alters
    exact same (unaltered deed owner permitted alters)

/-- A call did what it does, or it ended the process that it puts at risk. -/
def Fulfils (call : Call) (before after : Pager) : Prop :=
  Reaches (call.Does before) before after ∨
    ∃ pid middle, call.victim? = some pid ∧ Reaches (call.Does before) before middle ∧
      Ended pid middle after

/-- How a call ends. -/
def Performs (call : Call) (before : Pager) : Ending Answer :=
  Proceeds (call.Permits before) before
    (fun answer after => Reaches (call.Does before) before after ∧
      ∃ activity, Event.Tells ⟨call, .ok answer, activity⟩ before after)
    fun error after => Fulfils call before after ∧
      ∃ activity, Event.Tells ⟨call, .error error, activity⟩ before after

theorem performs_plain
    {call : Call} {α : Type} {program : PagerM α} {answer : α → Answer}
    {answers : α → Pager → Prop} {fails : PagingError → Pager → Prop}
    (sound : before.ledger.Sound none) (plain : call.IsPlain)
    (meets : program.Meets before (Proceeds (call.Permits before) before
      (fun result after => Reaches (call.Does before) before after ∧ answers result after)
      fun error after => Fulfils call before after ∧ fails error after)) :
    (program >>= fun result => pure (answer result)).Meets before (Performs call before) := by
  have unaltered (deed : Deed) (owner : Owner) (permits : call.Permits before deed) :
      ¬ deed.Alters owner := permits.not_alters plain owner
  apply meets.andAnswer
  · intro result after reaches ⟨does, _⟩
    exact ⟨does, tells_of_plain plain reaches.runs sound unaltered (.ok (answer result))⟩
  · intro error after reaches ⟨fulfils, _⟩
    exact ⟨fulfils, tells_of_plain plain reaches.runs sound unaltered (.error error)⟩

/-- A call that puts no process at risk does what it does. -/
theorem performs_safe
    {call : Call} {α : Type} {program : PagerM α} {answer : α → Answer}
    {answers : α → Pager → Prop} {fails : PagingError → Pager → Prop}
    (sound : before.ledger.Sound none) (plain : call.IsPlain)
    (meets : program.Meets before (Proceeds (call.Does before) before answers fails)) :
    (program >>= fun result => pure (answer result)).Meets before (Performs call before) :=
  performs_plain sound plain (meets.weaken (fun _ => Or.inl) (fun _ _ => And.intro)
    fun _ _ reaches failed => ⟨Or.inl reaches, failed⟩)

/-- A call that puts the process at risk that it is made for. -/
theorem performs_risky
    {call : Call} {α : Type} {program : PagerM α} {answer : α → Answer} {allowed : Deed → Prop}
    {answers : α → Pager → Prop} (sound : before.ledger.Sound none) (plain : call.IsPlain)
    (risky : call.victim? = some pid) (does : ∀ deed : Deed, allowed deed → call.Does before deed)
    (meets : program.Meets before (Proceeds (fun deed => allowed deed ∨ deed.Ends pid) before
      (fun result after => Reaches allowed before after ∧ answers result after)
      fun error after => ∃ middle, Reaches allowed before middle ∧ Killed pid error middle after)) :
    (program >>= fun result => pure (answer result)).Meets before (Performs call before) :=
  @performs_plain before call α program answer answers (fun _ _ => True) sound plain
    (meets.weaken (fun deed => Or.imp (does deed) fun ends => ⟨pid, risky, ends⟩)
      (fun _ _ _ => And.imp_left fun reaches => reaches.mono does)
      fun _ _ _ ⟨middle, reaches, killed⟩ =>
        ⟨Or.inr ⟨pid, middle, risky, reaches.mono does, killed.toEnded⟩, trivial⟩)

theorem meets_setStackPointer (sound : before.ledger.Sound none) (pid : Pid) (address : Nat) :
    (setStackPointer pid address).Meets before
      (Proceeds (fun deed => deed = .relaid pid .nowhere) before (fun _ _ => True) fun _ _ => True) := by
  simp only [setStackPointer, meets_bind, meets_requireSpace]
  cases found : before.space? pid with
  | none => exact fails_here id trivial
  | some space =>
      exact meets_modify_turn (turn_setStackPointer before pid address) sound rfl (by simp) trivial

/-- A look at a process changes nothing. -/
theorem performs_look
    {call : Call} {look : AddressSpace → Answer} (sound : before.ledger.Sound none)
    (plain : call.IsPlain) (pid : Pid) :
    (requireSpace pid >>= fun space => pure (look space)).Meets before (Performs call before) := by
  have meets : (requireSpace pid).Meets before
      (Proceeds (call.Does before) before (fun _ _ => True) fun _ _ => True) := by
    rw [meets_requireSpace]
    cases before.space? pid with
    | none => exact fails_here id trivial
    | some space => exact answers_here trivial
  exact performs_safe sound plain meets

/-- A child has what its parent has, or there is no child. -/
theorem performs_fork
    (sound : before.ledger.Sound none) (unpinned : before.Unpinned) (tidy : before.Tidy)
    (parent child : Pid) :
    (fork parent child >>= fun _ => pure .done).Meets before
      (Performs (.fork parent child) before) := by
  have unaltered (deed : Deed) (owner : Owner)
      (permitted : (Call.fork parent child).Permits before deed)
      (alters : deed.Alters owner) : owner.pid = child := by
    rcases permitted with forks | ⟨_, _, ends⟩
    · rcases alters with rfl | rfl
      · exact absurd forks id
      · exact forks
    · exact absurd alters (ends.uses.not_alters owner)
  apply ((meets_fork sound unpinned tidy parent child).widen fun deed permitted =>
    permitted.imp id fun ends => ⟨child, rfl, ends⟩).andAnswer
  · rintro _ after _ ⟨forks, apart, created, _, _, _, replicated⟩
    obtain ⟨activity, accounts⟩ := forks.runs.accounts sound
    refine ⟨forks, activity, accounts.noted, funext fun owner => ?_, accounts.backed⟩
    have told (owner : Owner) (other : owner.pid ≠ child) : after.ledger.content owner =
        Activity.replay activity owner (before.ledger.content owner) := by
      apply accounts.content owner
      intro deed permitted alters
      exact other (unaltered deed owner (Or.inl permitted) alters)
    simp only [Event.after, Event.noted]
    split
    · rename_i same
      have content := replicated.content owner.va
      rw [← same] at content
      rw [← told ⟨parent, owner.va⟩ apart]
      exact content
    · rename_i other
      exact told owner other
  · rintro error after reaches (same | ⟨_, middle, forks, ended⟩)
    · rw [same]
      exact ⟨Or.inl (.refl before), tells_of_same before _ error⟩
    · exact ⟨Or.inr ⟨child, middle, rfl, forks, ended⟩,
        tells_of_gone reaches.runs sound ended.gone unaltered _ error⟩

theorem performs_writeUser (ready : before.Ready) (pid : Pid) (va : Nat) (bytes : Array UInt8) :
    (writeUser pid va bytes >>= fun _ => pure .done).Meets before
      (Performs (.writeUser pid va bytes) before) := by
  have unaltered (deed : Deed) (owner : Owner)
      (permitted : (Call.writeUser pid va bytes).Permits before deed)
      (alters : deed.Alters owner) : owner.pid = pid := by
    rcases permitted with writes | ⟨_, _, ends⟩
    · exact Deed.Writes.touches writes (Or.inr (Or.inr alters))
    · exact absurd alters (ends.uses.not_alters owner)
  apply ((meets_writeUser ready pid va bytes).widen fun deed permitted =>
    permitted.imp (fun amends => amends.1.writes) fun ends => ⟨pid, rfl, ends⟩).andAnswer
  · rintro _ after _ ⟨amends, stores⟩
    obtain ⟨activity, accounts, content⟩ := stores.written ready.sound
    refine ⟨amends.mono fun _ permitted => permitted.1.writes, activity, accounts.noted,
      funext fun owner => ?_, accounts.backed⟩
    simp only [Event.after, Event.noted]
    split
    · rename_i same
      subst same
      exact content owner.va
    · rename_i apart
      apply accounts.content owner
      intro deed writes alters
      exact apart (unaltered deed owner (Or.inl writes) alters)
  · rintro error after reaches ⟨middle, amends, _, killed⟩
    exact ⟨Or.inr ⟨pid, middle, rfl, amends.mono fun _ permitted => permitted.1.writes, killed.toEnded⟩,
      tells_of_gone reaches.runs ready.sound killed.gone unaltered _ error⟩

/-- A read that is answered brings what was seen. -/
theorem reads_of_run
    {va length : Nat} {bytes : Array UInt8} (ready : before.Ready)
    (run : attempt (Call.readUser pid va length).perform before = .ok (.ok (.bytes bytes)) after) :
    bytes.size = length ∧
      ∀ index, index < length → Seen pid (va + index) bytes[index]? before after := by
  rcases (meets_readUser ready pid va length).of_answered run with
    ⟨_, same, _, _, seen⟩ | ⟨_, same, _⟩
  · cases same
    exact seen
  · cases same

-- The bottom of the stack is a number that unification must not compute.
attribute [local irreducible] setupStack

/-- Every call proceeds by what it permits and tells what happened. -/
theorem meets_perform
    (sound : before.ledger.Sound none) (unpinned : before.Unpinned) (tidy : before.Tidy)
    (call : Call) (admissible : call.IsAdmissible before.config) :
    call.perform.Meets before (Performs call before) := by
  have ready := unpinned.ready sound
  cases call with
  | createProcess pid =>
      exact performs_safe sound trivial (meets_createProcess sound pid)
  | exitProcess pid =>
      exact performs_safe sound trivial (meets_exitProcess sound)
  | fork parent child => exact performs_fork sound unpinned tidy parent child
  | allocate pid type va writable =>
      exact performs_safe sound trivial ((meets_allocate sound pid type va writable).widen
        fun _ lays => lays.mono fun _ => And.left)
  | allocateLazily pid va writable load =>
      exact performs_safe sound trivial
        ((meets_allocateLazily sound pid va writable admissible).widen
          fun _ lays => lays.mono fun _ => And.left)
  | loadSegment pid file segment =>
      exact performs_safe sound trivial ((meets_loadSegment sound pid file segment).widen
        fun _ lays => lays.mono fun _ => And.left)
  | setupStack pid =>
      refine performs_safe sound trivial ((meets_setupStack ready pid admissible).widen ?_)
      rintro deed (serves | rfl)
      · exact serves.faults.stacks
      · exact ⟨rfl, rfl⟩
  | setStackPointer pid address =>
      exact performs_safe sound trivial (meets_setStackPointer sound pid address)
  | stackPointer pid => exact performs_look sound (by trivial) pid
  | claim pid va =>
      exact performs_safe sound trivial ((serves_claim ready pid va).widen
        fun _ => Deed.Serves.faults)
  | handlePageFault pid fault =>
      exact performs_risky sound trivial rfl (fun _ permitted => permitted.1.faults)
        (meets_handlePageFault ready pid fault)
  | map pid base length writable file offset =>
      exact performs_safe sound trivial ((meets_map ready pid base length writable file offset).widen
        fun _ maps => maps.mono fun _ => Region.Makes.loads)
  | unmap pid base => exact performs_safe sound trivial (meets_unmap sound pid base)
  | readUser pid va length =>
      exact performs_risky sound trivial rfl (fun _ permitted => permitted.1.faults)
        (meets_readUser ready pid va length)
  | writeUser pid va bytes => exact performs_writeUser ready pid va bytes
  | pageType pid va => exact performs_look sound (by trivial) pid
  | isResident pid va => exact performs_look sound (by trivial) pid
  | stats =>
      have padded : before.swap.used.IsPadded := sound.slots.inside
      rw [Call.perform, meets_bind, meets_get]
      dsimp only
      rw [meets_bind, meets_subtractWords, if_neg fun fails => absurd padded.count_le (Nat.not_le.mpr fails.2)]
      exact answers_here ⟨.refl before, @tells_of_plain before before .stats (fun _ => False) trivial
        .refl sound (fun _ _ => False.elim) _⟩
  | config =>
      exact answers_here ⟨.refl before, @tells_of_plain before before .config (fun _ => False)
        trivial .refl sound (fun _ _ => False.elim) _⟩

end Pager

end DemandPaging
