import DemandPaging.Image

/-!
A file whose content lives in memory. Reads and writes are cut at the end of the content, and a write
never makes the file longer.
-/

namespace DemandPaging

/-- A file in memory. -/
structure MemoryFile where
  content : Array UInt8
  deriving DecidableEq

namespace MemoryFile

/-- The bytes of the file from `offset` on, at most `length` of them. -/
def readAt (file : MemoryFile) (offset length : Nat) : Array UInt8 :=
  file.content.extract offset (offset + length)

/-- Puts bytes over the content from `offset` on and tells how many lay inside it. -/
def writeAt (file : MemoryFile) (offset : Nat) (bytes : Array UInt8) : MemoryFile × Nat :=
  (⟨overwritten file.content offset bytes⟩, min bytes.size (file.content.size - offset))

end MemoryFile

end DemandPaging
