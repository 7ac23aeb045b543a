import DemandPaging.Pager.Fault

/-!
Reads and writes of user memory as the process itself makes them. An access is cut into chunks that
each lie in one page; every chunk is resolved by the page table, after a page fault if need be.
-/

namespace DemandPaging

/-! ## Chunks -/

/-- The number of pages that `length` bytes from an address on touch. -/
def touchedPages (va length : Nat) : Nat :=
  if length = 0 then 0 else (pageOffset va + length - 1) / pageSize + 1

/-- The number of bytes up to the end of the page of an address, at most `left`. -/
def chunkLength (address left : Nat) : Nat :=
  min (pageSize - pageOffset address) left

namespace Pager

/-! ## Resolving -/

/-- Resolves an address if the page table allows the access, and leaves its trace in the accessed and
dirty bits. -/
def lookUp (pid : Pid) (va : Nat) (isWrite : Bool) : PagerM (Option Nat) := do
  let space ← requireSpace pid
  match space.table.resolve? va with
  | none => pure none
  | some address =>
      if isWrite && !space.table.isWritable va then
        pure none
      else
        modify fun pager => pager.modifyTable pid fun table =>
          let accessed := table.setAccessed va true
          if isWrite then accessed.setDirty va true else accessed
        pure (some address)

/-- Resolves an address in rounds. Each looks it up and, if that finds nothing, resolves a page fault, unless
one was resolved before. Nothing is answered if more rounds were needed. -/
def translate (pid : Pid) (va : Nat) (isWrite : Bool) : Nat → (faulted : Bool) → PagerM (Option Nat)
  | 0, _ => pure none
  | rounds + 1, faulted => do
      match ← lookUp pid va isWrite with
      | some address => pure (some address)
      | none =>
          if faulted then
            PagerM.fail (.mappingFailed va)
          else
            let space ← requireSpace pid
            resolveFault pid
              { address := va
                isWrite := isWrite
                isPresent := (space.table.resolve? va).isSome
                stackPointer := space.stackPointer }
            translate pid va isWrite rounds true

/-- Resolves an address. There are no more than two rounds, since the second of them resolves no fault. -/
def physicalAddress (pid : Pid) (va : Nat) (isWrite : Bool) : PagerM Nat := do
  match ← translate pid va isWrite 2 false with
  | some address => pure address
  | none => PagerM.fail (.mappingFailed va)

/-- An address is looked up, and once again after a page fault if nothing was found. -/
theorem physicalAddress_eq (pid : Pid) (va : Nat) (isWrite : Bool) :
    physicalAddress pid va isWrite = (do
      match ← lookUp pid va isWrite with
      | some address => pure address
      | none =>
          let space ← requireSpace pid
          resolveFault pid
            { address := va
              isWrite := isWrite
              isPresent := (space.table.resolve? va).isSome
              stackPointer := space.stackPointer }
          match ← lookUp pid va isWrite with
          | some address => pure address
          | none => PagerM.fail (.mappingFailed va)) := by
  rw [physicalAddress, translate, bind_assoc]
  refine bind_congr fun found => ?_
  cases found with
  | some address => rfl
  | none =>
      simp only [Bool.false_eq_true, if_false, bind_assoc]
      refine bind_congr fun space => bind_congr fun _ => ?_
      rw [translate, bind_assoc]
      refine bind_congr fun again => ?_
      cases again with
      | some address => rfl
      | none => rfl

/-- The address of the byte `done` of an access that starts at `va`. -/
def chunkAddress (va done : Nat) : PagerM Nat :=
  match checkedSum va done with
  | some address => pure address
  | none => PagerM.deny va .kernelAddress

/-! ## Reading and writing -/

/-- Reads the bytes of an access from the byte `done` on, in at most the given number of chunks. -/
def readChunks (pid : Pid) (va length : Nat) : Nat → Nat → Array UInt8 → PagerM (Array UInt8)
  | 0, _, bytes => pure bytes
  | chunks + 1, done, bytes => do
      let address ← chunkAddress va done
      let count := chunkLength address (length - done)
      let physical ← physicalAddress pid address false
      checkPhysical physical count
      let chunk := (← get).frames.load physical count
      readChunks pid va length chunks (done + count) (bytes ++ chunk)

/-- Writes the bytes of an access from the byte `done` on, in at most the given number of chunks. -/
def writeChunks (pid : Pid) (va : Nat) (bytes : Array UInt8) : Nat → Nat → PagerM Unit
  | 0, _ => pure ()
  | chunks + 1, done => do
      let address ← chunkAddress va done
      let count := chunkLength address (bytes.size - done)
      let physical ← physicalAddress pid address true
      checkPhysical physical count
      modify fun pager => pager.modifyFrames fun frames =>
        frames.store physical (bytes.extract done (done + count))
      writeChunks pid va bytes chunks (done + count)

/-- Reads user memory; the process ends if that fails with a fatal error. -/
def readUser (pid : Pid) (va length : Nat) : PagerM (Array UInt8) :=
  killOnFatal pid (readChunks pid va length (touchedPages va length) 0 #[])

/-- Writes user memory; the process ends if that fails with a fatal error. -/
def writeUser (pid : Pid) (va : Nat) (bytes : Array UInt8) : PagerM Unit :=
  killOnFatal pid (writeChunks pid va bytes (touchedPages va bytes.size) 0)

end Pager

end DemandPaging
