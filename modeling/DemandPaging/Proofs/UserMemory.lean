import DemandPaging.Pager.Call
import Mathlib.Logic.Function.Basic

/-!
# The memory of one process

What a process sees of its memory if it uses no file: the bytes of its pages, whether they may be written,
and its stack pointer. Programs on this memory alone have no frames and no slots; they answer and fail like
the calls for the process.
-/

namespace DemandPaging

/-! ## Calls for a process -/

namespace Call

/-- Whether a call is made for a process, to use its memory. -/
def isFor (pid : Pid) : Call → Bool
  | createProcess other | exitProcess other | fork other _ | allocate other .. | allocateLazily other ..
  | loadSegment other .. | setupStack other | setStackPointer other _ | stackPointer other
  | claim other _ | handlePageFault other _ | map other .. | unmap other _ | readUser other ..
  | writeUser other .. | pageType other _ => other == pid
  | isResident .. | stats | config => false

/-- Whether a call brings a process no file and no copy of another process. -/
def isAnonymous (pid : Pid) : Call → Bool
  | fork _ child => child != pid
  | allocateLazily other _ _ load => other != pid || load == .zero
  | loadSegment other .. | map other .. | unmap other _ => other != pid
  | _ => true

/-- Whether a call makes a copy of a process. -/
def isFork : Call → Bool
  | fork .. => true
  | _ => false

end Call

/-! ## Memory -/

/-- A page as its process sees it. -/
structure UserPage where
  writable : Bool
  image : Image

/-- The memory of a process as the process sees it. -/
structure UserMemory where
  stackPointer : Nat
  /-- The pages by the address at which they start. -/
  pages : Nat → Option UserPage

/-- Programs on the memory of a process, which may not exist. -/
abbrev UserM := EStateM PagingError (Option UserMemory)

/-- The layout of user memory, whatever the number of frames. -/
def Config.unlimited (config : Config) : Config :=
  { config with frameCount := 0 }

namespace UserM

variable {α β : Type}

theorem run_bind (program : UserM α) (next : α → UserM β) (memory : Option UserMemory) :
    (program >>= next) memory =
      match program memory with
      | .ok answer after => next answer after
      | .error error after => .error error after := by
  cases ended : program memory <;> simp [bind, EStateM.bind, ended]

theorem run_set (new memory : Option UserMemory) : (set new : UserM PUnit) memory = .ok ⟨⟩ new :=
  rfl

/-- A process ends by a fatal error. -/
def killOnFatal (program : UserM α) : UserM α := fun memory =>
  match program memory with
  | .ok answer after => .ok answer after
  | .error error after => .error error (if error.isFatal then none else after)

end UserM

namespace UserMemory

/-! ## Changing and reading bytes -/

def put (memory : UserMemory) (va : Nat) (page : UserPage) : UserMemory :=
  { memory with pages := Function.update memory.pages va (some page) }

/-- The bytes of a page from an address on. -/
def load (memory : UserMemory) (address count : Nat) : Array UInt8 :=
  match memory.pages (pageBase address) with
  | some page => page.image.slice (pageOffset address) count
  | none => #[]

/-- Puts bytes over a page from an address on. -/
def store (memory : UserMemory) (address : Nat) (bytes : Array UInt8) : UserMemory :=
  match memory.pages (pageBase address) with
  | some page =>
      memory.put (pageBase address)
        { page with image := page.image.overlay (pageOffset address) bytes }
  | none => memory

/-! ## Pages -/

def require (pid : Pid) : UserM UserMemory := do
  match ← get with
  | some memory => pure memory
  | none => throw (.noSuchProcess pid)

def checkAddress (config : Config) (va : Nat) : UserM Unit :=
  if va = 0 then throw (.invalidAccess va .nullAddress)
  else if config.kernelBase ≤ va then throw (.invalidAccess va .kernelAddress)
  else pure ()

/-- Adds a page of zeros. -/
def reserve (config : Config) (pid : Pid) (va : Nat) (writable : Bool) : UserM Unit := do
  checkAddress config va
  let memory ← require pid
  match memory.pages va with
  | some _ => throw (.alreadyMapped va)
  | none => set (some (memory.put va ⟨writable, Image.zero⟩))

/-- Claiming a page shows no change. -/
def claim (pid : Pid) (address : Nat) : UserM Unit := do
  let memory ← require pid
  match memory.pages (pageBase address) with
  | some _ => pure ()
  | none => throw (.invalidAccess (pageBase address) .unmapped)

def resolve (config : Config) (pid : Pid) (fault : PageFault) : UserM Unit := do
  checkAddress config fault.address
  let memory ← require pid
  match memory.pages (pageBase fault.address) with
  | some page =>
      if fault.isWrite && !page.writable then throw (.invalidAccess fault.address .readOnly)
      else pure ()
  | none =>
      if config.isStackAccess fault then reserve config pid (pageBase fault.address) true
      else throw (.invalidAccess fault.address .unmapped)

/-! ## Accesses -/

/-- An access is like a fault with the stack pointer of the process. -/
def access (config : Config) (pid : Pid) (va : Nat) (isWrite : Bool) : UserM Unit := do
  let memory ← require pid
  resolve config pid { address := va, isWrite := isWrite, stackPointer := memory.stackPointer }

def chunkAddress (va done : Nat) : UserM Nat :=
  match checkedSum va done with
  | some address => pure address
  | none => throw (.invalidAccess va .kernelAddress)

def readChunks (config : Config) (pid : Pid) (va length : Nat) :
    Nat → Nat → Array UInt8 → UserM (Array UInt8)
  | 0, _, bytes => pure bytes
  | chunks + 1, done, bytes => do
      let address ← chunkAddress va done
      let count := chunkLength address (length - done)
      access config pid address false
      let memory ← require pid
      readChunks config pid va length chunks (done + count) (bytes ++ memory.load address count)

def writeChunks (config : Config) (pid : Pid) (va : Nat) (bytes : Array UInt8) :
    Nat → Nat → UserM Unit
  | 0, _ => pure ()
  | chunks + 1, done => do
      let address ← chunkAddress va done
      let count := chunkLength address (bytes.size - done)
      access config pid address true
      let memory ← require pid
      set (some (memory.store address (bytes.extract done (done + count))))
      writeChunks config pid va bytes chunks (done + count)

/-! ## Processes -/

def create (config : Config) (pid : Pid) : UserM Unit := do
  match ← get with
  | some _ => throw (.processExists pid)
  | none => set (some (⟨config.stackTop, fun _ => none⟩ : UserMemory))

def exit (pid : Pid) : UserM Unit := do
  let _ ← require pid
  set (none : Option UserMemory)

def setStackPointer (pid : Pid) (stackPointer : Nat) : UserM Unit := do
  let memory ← require pid
  set (some { memory with stackPointer := stackPointer })

def setupStack (config : Config) (pid : Pid) : UserM Unit := do
  let bottom := (config.stackTop + wordLimit - pageSize) % wordLimit
  reserve config pid bottom true
  claim pid bottom
  setStackPointer pid config.stackTop

/-- What a call does to the memory of its process, if it uses no file. A copied process sees no change. -/
def perform (config : Config) : Call → UserM Answer
  | .createProcess pid => do
      create config pid
      pure .done
  | .exitProcess pid => do
      exit pid
      pure .done
  | .allocate pid type va writable =>
      match type with
      | .anonymous => do
          reserve config pid (pageBase va) writable
          pure .done
      | .file => throw (.invalidArgument .filePageWithoutFile)
  | .allocateLazily pid va writable _ => do
      reserve config pid (pageBase va) writable
      pure .done
  | .setupStack pid => do
      setupStack config pid
      pure .done
  | .setStackPointer pid address => do
      setStackPointer pid address
      pure .done
  | .stackPointer pid => do
      let memory ← require pid
      pure (.address memory.stackPointer)
  | .claim pid va => do
      claim pid va
      pure .done
  | .handlePageFault pid fault => do
      UserM.killOnFatal (resolve config pid fault)
      pure .done
  | .readUser pid va length => do
      let bytes ← UserM.killOnFatal
        (readChunks config pid va length (touchedPages va length) 0 #[])
      pure (.bytes bytes)
  | .writeUser pid va bytes => do
      UserM.killOnFatal (writeChunks config pid va bytes (touchedPages va bytes.size) 0)
      pure .done
  | .pageType pid va => do
      let memory ← require pid
      pure (.pageType ((memory.pages (pageBase va)).map fun _ => .anonymous))
  | _ => pure .done

/-- The memory of a process after calls, the latest first, and what those came to that made no copy. -/
def replay (config : Config) : List Call → Option UserMemory × List (Except PagingError Answer)
  | [] => (none, [])
  | call :: earlier =>
      let (memory, outcomes) := replay config earlier
      if call.isFork then (memory, outcomes)
      else match perform config call memory with
        | .ok answer after => (after, .ok answer :: outcomes)
        | .error error after => (after, .error error :: outcomes)

/-! ## What the programs come to -/

section Binds

variable {α : Type}

theorem run_require (pid : Pid) (next : UserMemory → UserM α) (memory : Option UserMemory) :
    (require pid >>= next) memory =
      match memory with
      | some found => next found memory
      | none => .error (.noSuchProcess pid) none := by
  cases memory <;> rfl

theorem run_checkAddress (config : Config) (va : Nat) (next : UserM α) (memory : Option UserMemory) :
    (checkAddress config va >>= fun _ => next) memory =
      if va = 0 then .error (.invalidAccess va .nullAddress) memory
      else if config.kernelBase ≤ va then .error (.invalidAccess va .kernelAddress) memory
      else next memory := by
  unfold checkAddress
  split
  · rfl
  · split <;> rfl

end Binds

theorem run_reserve (config : Config) (pid : Pid) (va : Nat) (writable : Bool)
    (memory : Option UserMemory) :
    reserve config pid va writable memory =
      if va = 0 then .error (.invalidAccess va .nullAddress) memory
      else if config.kernelBase ≤ va then .error (.invalidAccess va .kernelAddress) memory
      else match memory with
        | none => .error (.noSuchProcess pid) none
        | some found =>
            match found.pages va with
            | some _ => .error (.alreadyMapped va) memory
            | none => .ok ⟨⟩ (some (found.put va ⟨writable, Image.zero⟩)) := by
  rw [reserve, run_checkAddress, run_require]
  cases memory with
  | none => rfl
  | some found =>
      dsimp only
      cases found.pages va <;> rfl

theorem run_claim (pid : Pid) (address : Nat) (memory : Option UserMemory) :
    claim pid address memory =
      match memory with
      | none => .error (.noSuchProcess pid) none
      | some found =>
          match found.pages (pageBase address) with
          | some _ => .ok ⟨⟩ memory
          | none => .error (.invalidAccess (pageBase address) .unmapped) memory := by
  rw [claim, run_require]
  cases memory with
  | none => rfl
  | some found =>
      dsimp only
      cases found.pages (pageBase address) <;> rfl

/-- A page that was just reserved can be claimed. -/
theorem run_reserve_claim (config : Config) (pid : Pid) (address : Nat) (writable : Bool)
    (memory : Option UserMemory) :
    (reserve config pid (pageBase address) writable >>= fun _ =>
      claim pid address) memory =
        reserve config pid (pageBase address) writable memory := by
  rw [UserM.run_bind, run_reserve]
  by_cases null : pageBase address = 0
  · simp only [if_pos null]
  · by_cases kernel : config.kernelBase ≤ pageBase address
    · simp only [if_neg null, if_pos kernel]
    · simp only [if_neg null, if_neg kernel]
      cases memory with
      | none => rfl
      | some found =>
          dsimp only
          cases found.pages (pageBase address) with
          | some page => rfl
          | none => simp only [run_claim, put, Function.update_self]

theorem run_resolve (config : Config) (pid : Pid) (fault : PageFault) (memory : Option UserMemory) :
    resolve config pid fault memory =
      if fault.address = 0 then .error (.invalidAccess fault.address .nullAddress) memory
      else if config.kernelBase ≤ fault.address then
        .error (.invalidAccess fault.address .kernelAddress) memory
      else match memory with
        | none => .error (.noSuchProcess pid) none
        | some found =>
            match found.pages (pageBase fault.address) with
            | some page =>
                if fault.isWrite && !page.writable then
                  .error (.invalidAccess fault.address .readOnly) memory
                else .ok ⟨⟩ memory
            | none =>
                if config.isStackAccess fault then
                  reserve config pid (pageBase fault.address) true memory
                else .error (.invalidAccess fault.address .unmapped) memory := by
  rw [resolve, run_checkAddress, run_require]
  cases memory with
  | none => rfl
  | some found =>
      dsimp only
      cases found.pages (pageBase fault.address) with
      | some page | none =>
          dsimp only
          split
          · rfl
          · split
            · rfl
            · split <;> rfl

theorem run_access (config : Config) (pid : Pid) (va : Nat) (isWrite : Bool)
    (memory : Option UserMemory) :
    access config pid va isWrite memory =
      match memory with
      | none => .error (.noSuchProcess pid) none
      | some found =>
          resolve config pid
            { address := va, isWrite := isWrite, stackPointer := found.stackPointer } memory := by
  rw [access, run_require]
  cases memory <;> rfl

theorem run_create (config : Config) (pid : Pid) (memory : Option UserMemory) :
    create config pid memory =
      match memory with
      | some _ => .error (.processExists pid) memory
      | none => .ok ⟨⟩ (some ⟨config.stackTop, fun _ => none⟩) := by
  cases memory <;> rfl

theorem run_exit (pid : Pid) (memory : Option UserMemory) :
    exit pid memory =
      match memory with
      | some _ => .ok ⟨⟩ none
      | none => .error (.noSuchProcess pid) none := by
  cases memory <;> rfl

theorem run_setStackPointer (pid : Pid) (address : Nat) (memory : Option UserMemory) :
    setStackPointer pid address memory =
      match memory with
      | some found => .ok ⟨⟩ (some { found with stackPointer := address })
      | none => .error (.noSuchProcess pid) none := by
  cases memory <;> rfl

end UserMemory

end DemandPaging
