import DemandPaging.Report.Marks
import DemandPaging.Report.Transfers
import DemandPaging.Scenario.Step

/-!
The run of a scenario: virtual memory together with the handles that the scenario itself holds. Each
step is answered and followed by a snapshot and by the transfers that it caused; a halt ends the run.
-/

namespace DemandPaging

/-- A running scenario. -/
structure Session where
  pager : Pager
  /-- Whether the scenario still holds its own handle of each file. -/
  held : Array Bool

/-- What a scenario reports after a step. -/
structure Entry where
  reply : Reply
  /-- The snapshot after the step, unless the kernel stopped. -/
  stats : Option Stats
  /-- The transfers that the step caused. -/
  transfers : List String
  deriving DecidableEq

/-- What a scenario reports in the end, when the virtual memory is gone. -/
structure Remains where
  /-- The handles that are still open, for files in memory. -/
  handles : List (Option Nat)
  contents : List (Array UInt8)
  deriving DecidableEq

namespace Session

/-- The start of a scenario, with one handle held for each file. -/
def create (config : Config) (kind : PolicyKind) (device : Device) (files : Array BackingFile) :
    Session where
  pager := Pager.create config kind device ⟨files⟩
  held := files.map fun _ => true

def holds (session : Session) (file : FileId) : Bool :=
  session.held.getD file false

def withFile (session : Session) (file : FileId) (change : BackingFile → Session × Reply) :
    Session × Reply :=
  match session.pager.files.get? file with
  | some backing => change backing
  | none => (session, .refused)

def putFile (session : Session) (file : FileId) (backing : BackingFile) : Session :=
  { session with
    pager := { session.pager with files := session.pager.files.put file backing } }

def putDevice (session : Session) (device : Device) : Session :=
  { session with
    pager := { session.pager with swap := { session.pager.swap with device := device } } }

def run (session : Session) (program : PagerM Answer) : Session × Reply :=
  match program session.pager with
  | .ok answer pager => ({ session with pager := pager }, .answer answer)
  | .error (.failed error) pager => ({ session with pager := pager }, .failed error)
  | .error (.halted reason) pager => ({ session with pager := pager }, .halted reason)

/-- Changes the page table of a process, if there is one. -/
def withTable (session : Session) (pid : Pid) (change : PageTable → Option PageTable) :
    Session × Reply :=
  match session.pager.space? pid with
  | none => (session, .noTable)
  | some space =>
      match change space.table with
      | none => (session, .mappingRefused)
      | some table =>
          ({ session with pager := session.pager.modifyTable pid fun _ => table }, .done)

def setBits (table : PageTable) (va : Nat) (dirty accessed : Option Bool) : PageTable :=
  let dirtied := match dirty with
    | some on => table.setDirty va on
    | none => table
  match accessed with
  | some on => dirtied.setAccessed va on
  | none => dirtied

/-- Reserves a page that loads from a file: a handle is opened for it, which the page takes over. -/
def allocateFromFile (session : Session) (pid : Pid) (va : Nat) (writable : Bool) (load : LazyLoad)
    (file : FileId) : Session × Reply :=
  match session.pager.files.reopen file with
  | (files, false) => ({ session with pager := { session.pager with files := files } }, .reopenFailed)
  | (files, true) =>
      { session with pager := { session.pager with files := files } }.run
        (Call.allocateLazily pid va writable load).perform

def marks (session : Session) (pid : Pid) (va count : Nat) : Reply :=
  match session.pager.space? pid with
  | some space => .marks (some space.table.count) (space.marks va count)
  | none => if count = 0 then .marks none [] else .failed (.noSuchProcess pid)

/-- The number of open handles of a file, which only a file in memory tells. -/
def handleCount (backing : BackingFile) : Option Nat :=
  match backing.store.medium with
  | .memory => some backing.handles
  | .host => none

def step (session : Session) : Step → Session × Reply
  | .malformed => (session, .refused)
  | .call call => session.run call.perform
  | .callWithFile file call =>
      if session.holds file then session.run call.perform else (session, .refused)
  | .allocateFromFile pid va writable kind range =>
      if session.holds range.file then
        session.allocateFromFile pid va writable (kind.load range) range.file
      else
        (session, .refused)
  | .marks pid va count => (session, session.marks pid va count)
  | .fileContent file =>
      session.withFile file fun backing => (session, .bytes backing.store.content)
  | .fileHandles file =>
      session.withFile file fun backing => (session, .handles (handleCount backing))
  | .resizeFile file length =>
      session.withFile file fun backing => (session.putFile file (backing.resize length), .done)
  | .reopenBudget file count =>
      session.withFile file fun backing =>
        match backing.store.medium with
        | .memory =>
            (session.putFile file { backing with reopens := Gate.ofBudget count }, .done)
        | .host => (session, .refused)
  | .readBudget file count =>
      session.withFile file fun backing =>
        (session.putFile file { backing with reads := Gate.ofBudget count }, .done)
  | .writeBudget file count =>
      session.withFile file fun backing =>
        (session.putFile file { backing with writes := Gate.ofBudget count }, .done)
  | .closeFile file =>
      if session.holds file then
        ({ pager := session.pager.closeFile file, held := session.held.setIfInBounds file false },
          .done)
      else
        (session, .refused)
  | .unlinkFile file =>
      session.withFile file fun backing =>
        if backing.store.isLinkedHost then
          (session.putFile file { backing with store := backing.store.unlinked }, .done)
        else
          (session, .refused)
  | .failDevice on =>
      let device := session.pager.swap.device
      match device.medium with
      | .memory => (session.putDevice { device with failing := on }, .done)
      | .host => (session, .refused)
  | .deviceBudget count =>
      (session.putDevice { session.pager.swap.device with gate := Gate.ofBudget count }, .done)
  | .sectors first count =>
      match session.pager.swap.device.peek first count with
      | some bytes => (session, .bytes bytes)
      | none => (session, .deviceFailed)
  | .setBits pid va dirty accessed =>
      session.withTable pid fun table => some (setBits table va dirty accessed)
  | .clearEntry pid va => session.withTable pid fun table => some (table.clear va)
  | .installEntry pid va frame writable =>
      session.withTable pid fun table =>
        table.install? va (frameBase frame % wordLimit) writable

def stepEntry (session : Session) (step : Step) : Session × Entry :=
  let fresh := session.putDevice session.pager.swap.device.forgetTransfers
  let (session, reply) := fresh.step step
  let stats := match reply with
    | .halted _ => none
    | _ => some session.pager.stats
  (session, ⟨reply, stats, session.pager.swap.device.transferReport⟩)

/-- What is left when the virtual memory is gone and has closed its handles. -/
def remains (session : Session) : Remains where
  handles := (session.pager.files.files.zip session.held).toList.map fun (backing, held) =>
    match backing.store.medium with
    | .memory => some (if held then 1 else 0)
    | .host => none
  contents := session.pager.files.files.toList.map fun backing => backing.store.content

/-- Answers steps up to a halt. There are remains only if there was none. -/
def runSteps (session : Session) : List Step → List Entry × Option Remains
  | [] => ([], some session.remains)
  | step :: rest =>
      let (session, entry) := session.stepEntry step
      if entry.stats.isSome then
        let (entries, remains) := session.runSteps rest
        (entry :: entries, remains)
      else
        ([entry], none)

end Session

end DemandPaging
