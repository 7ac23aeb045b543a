import DemandPaging.File.Backing

/-!
The files that can be mapped, by number. Operations on a number without a file fail and change
nothing.
-/

namespace DemandPaging

/-- The files that can be mapped. -/
structure FileTable where
  files : Array BackingFile

namespace FileTable

def get? (table : FileTable) (file : FileId) : Option BackingFile :=
  table.files[file]?

def put (table : FileTable) (file : FileId) (backing : BackingFile) : FileTable :=
  { table with files := table.files.setIfInBounds file backing }

def size (table : FileTable) (file : FileId) : Nat :=
  match table.get? file with
  | some backing => backing.size
  | none => 0

/-- Tries to open one more handle of a file and tells whether that succeeded. -/
def reopen (table : FileTable) (file : FileId) : FileTable × Bool :=
  match table.get? file with
  | some backing =>
      let (backing, opened) := backing.reopen
      (table.put file backing, opened)
  | none => (table, false)

def close (table : FileTable) (file : FileId) : FileTable :=
  match table.get? file with
  | some backing => table.put file backing.close
  | none => table

/-- Reads at most `length` bytes of a file from `offset` on; `none` if that fails. -/
def readAt (table : FileTable) (file : FileId) (offset length : Nat) :
    FileTable × Option (Array UInt8) :=
  match table.get? file with
  | some backing =>
      let (backing, bytes?) := backing.readAt offset length
      (table.put file backing, bytes?)
  | none => (table, none)

/-- The bytes that a read that fails brings before it does. -/
def remnant (table : FileTable) (file : FileId) (offset length : Nat) : Array UInt8 :=
  match table.get? file with
  | some backing => backing.remnant offset length
  | none => #[]

/-- Writes the bytes that lie inside a file and tells how many these are; `none` if that fails. -/
def writeAt (table : FileTable) (file : FileId) (offset : Nat) (bytes : Array UInt8) :
    FileTable × Option Nat :=
  match table.get? file with
  | some backing =>
      let (backing, count?) := backing.writeAt offset bytes
      (table.put file backing, count?)
  | none => (table, none)

end FileTable

end DemandPaging
