import DemandPaging.File.Host
import DemandPaging.File.Memory
import DemandPaging.Gate
import DemandPaging.Medium

/-!
A file as the virtual memory meets it: its content in memory or on the host, the number of handles
open on it, and the schedules by which opening, reading and writing it may fail. All handles of a file
share its content and its schedules.
-/

namespace DemandPaging

/-- The store that holds the content of a file. -/
inductive FileStore where
  | memory (file : MemoryFile)
  | host (file : HostFile)

namespace FileStore

def content : FileStore → Array UInt8
  | memory file => file.content
  | host file => file.content

def medium : FileStore → Medium
  | memory _ => .memory
  | host _ => .host

def canOpen : FileStore → Bool
  | memory _ => true
  | host file => file.linked

def withContent (store : FileStore) (content : Array UInt8) : FileStore :=
  match store with
  | memory _ => memory ⟨content⟩
  | host file => host { file with content := content }

def unlinked : FileStore → FileStore
  | memory file => memory file
  | host file => host { file with linked := false }

/-- Whether the file is on the host and still named by its directory. -/
def isLinkedHost : FileStore → Bool
  | memory _ => false
  | host file => file.linked

/-- Reads at most `length` bytes from `offset` on. -/
def readAt (store : FileStore) (offset length : Nat) : FileStore × Option (Array UInt8) :=
  match store with
  | memory file => (memory file, some (file.readAt offset length))
  | host file =>
      let (file, bytes?) := file.readAt offset length
      (host file, bytes?)

def writeAt (store : FileStore) (offset : Nat) (bytes : Array UInt8) : FileStore × Option Nat :=
  match store with
  | memory file =>
      let (file, count) := file.writeAt offset bytes
      (memory file, some count)
  | host file =>
      let (file, count?) := file.writeAt offset bytes
      (host file, count?)

end FileStore

/-- A file with its open handles. -/
structure BackingFile where
  store : FileStore
  /-- The number of open handles. -/
  handles : Nat := 1
  /-- The attempts to open one more handle that go through. -/
  reopens : Gate := Gate.always
  /-- The reads that reach the file. -/
  reads : Gate := Gate.always
  /-- The writes that reach the file. -/
  writes : Gate := Gate.always
  /-- How many bytes a read brings at most before it is refused, by the number of reads before it. -/
  remnants : Nat → Nat := fun _ => 0

namespace BackingFile

def create (medium : Medium) (content : Array UInt8) : BackingFile :=
  match medium with
  | .memory => { store := .memory ⟨content⟩ }
  | .host => { store := .host { content := content } }

def size (file : BackingFile) : Nat :=
  file.store.content.size

def opens (file : BackingFile) : Bool :=
  file.reopens.isOpen && file.store.canOpen

/-- Tries to open one more handle and tells whether that succeeded. -/
def reopen (file : BackingFile) : BackingFile × Bool :=
  ({ file with
      handles := if file.opens then file.handles + 1 else file.handles
      reopens := file.reopens.next },
    file.opens)

def close (file : BackingFile) : BackingFile :=
  { file with handles := file.handles - 1 }

/-- Reads at most `length` bytes from `offset` on; `none` if that fails. -/
def readAt (file : BackingFile) (offset length : Nat) : BackingFile × Option (Array UInt8) :=
  let asked := { file with reads := file.reads.next }
  if file.reads.isOpen then
    let (store, bytes?) := file.store.readAt offset length
    ({ asked with store := store }, bytes?)
  else
    (asked, none)

/-- The bytes that a read from `offset` on that fails brings before it does: not all that it asks for, and none
if its position cannot be sought. -/
def remnant (file : BackingFile) (offset length : Nat) : Array UInt8 :=
  if file.reads.isOpen then #[]
  else file.store.content.extract offset (offset + min (file.remnants file.reads.asked) (length - 1))

/-- Writes the bytes that lie inside the file and tells how many these are; `none` if that fails. -/
def writeAt (file : BackingFile) (offset : Nat) (bytes : Array UInt8) : BackingFile × Option Nat :=
  let asked := { file with writes := file.writes.next }
  if file.writes.isOpen then
    let (store, count?) := file.store.writeAt offset bytes
    ({ asked with store := store }, count?)
  else
    (asked, none)

/-- Sets the length of the file from outside; new bytes are zero. -/
def resize (file : BackingFile) (length : Nat) : BackingFile :=
  { file with store := file.store.withContent (resized file.store.content length) }

end BackingFile

end DemandPaging
