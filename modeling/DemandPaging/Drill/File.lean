import DemandPaging.File.Backing

/-!
Exercises of a file on its own, through several handles that share its content.
-/

namespace DemandPaging

/-- What an exercise asks of a file through one of its handles. -/
inductive FileRequest where
  | reopen
  | close
  | read (offset length : Nat)
  | write (offset : Nat) (bytes : Array UInt8)
  | length
  /-- Only for files in memory. -/
  | content
  /-- Only for files in memory. -/
  | resize (length : Nat)
  /-- Only for files in memory. -/
  | reopenBudget (count : Option Nat)
  /-- Only for files in memory. -/
  | handles
  /-- Only for files on the host. -/
  | unlink
  deriving DecidableEq

/-- One step of an exercise of a file. -/
inductive FileStep where
  | malformed
  | ask (handle : Nat) (request : FileRequest)
  deriving DecidableEq

/-- What a step of an exercise of a file answers. -/
inductive FileReply where
  | done
  | refused
  | failed
  | count (count : Nat)
  | read (bytes : Array UInt8)
  | written (count : Nat)
  | content (bytes : Array UInt8)
  deriving DecidableEq

/-- A file with the handles that were made so far. -/
structure FileDrill where
  file : BackingFile
  /-- Whether each handle is still open. -/
  isOpen : Array Bool

namespace FileDrill

def create (medium : Medium) (content : Array UInt8) : FileDrill where
  file := BackingFile.create medium content
  isOpen := #[true]

/-- Answers a request that was made through a handle that is open. -/
def serve (drill : FileDrill) (handle : Nat) : FileRequest → FileDrill × FileReply
  | .reopen =>
      match drill.file.reopen with
      | (file, true) => (⟨file, drill.isOpen.push true⟩, .count drill.isOpen.size)
      | (file, false) => ({ drill with file := file }, .failed)
  | .close => (⟨drill.file.close, drill.isOpen.setIfInBounds handle false⟩, .done)
  | .read offset length =>
      match drill.file.readAt offset length with
      | (file, some bytes) => ({ drill with file := file }, .read bytes)
      | (file, none) => ({ drill with file := file }, .failed)
  | .write offset bytes =>
      match drill.file.writeAt offset bytes with
      | (file, some count) => ({ drill with file := file }, .written count)
      | (file, none) => ({ drill with file := file }, .failed)
  | .length => (drill, .count drill.file.size)
  | .content =>
      match drill.file.store.medium with
      | .memory => (drill, .content drill.file.store.content)
      | .host => (drill, .refused)
  | .resize length =>
      match drill.file.store.medium with
      | .memory => ({ drill with file := drill.file.resize length }, .done)
      | .host => (drill, .refused)
  | .reopenBudget count =>
      match drill.file.store.medium with
      | .memory =>
          ({ drill with file := { drill.file with reopens := Gate.ofBudget count } }, .done)
      | .host => (drill, .refused)
  | .handles =>
      match drill.file.store.medium with
      | .memory => (drill, .count drill.file.handles)
      | .host => (drill, .refused)
  | .unlink =>
      if drill.file.store.isLinkedHost then
        ({ drill with file := { drill.file with store := drill.file.store.unlinked } }, .done)
      else
        (drill, .refused)

/-- Answers one step; nothing can be asked through a handle that is not open. -/
def step (drill : FileDrill) : FileStep → FileDrill × FileReply
  | .malformed => (drill, .refused)
  | .ask handle request =>
      if drill.isOpen.getD handle false then drill.serve handle request else (drill, .refused)

def run (drill : FileDrill) : List FileStep → List FileReply
  | [] => []
  | step :: rest =>
      let (drill, reply) := drill.step step
      reply :: drill.run rest

end FileDrill

end DemandPaging
