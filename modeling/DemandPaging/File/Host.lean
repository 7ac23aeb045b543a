import DemandPaging.Image

/-!
A file on the host. A position is sought before every read and before every write that has something
to write. The host may hand over fewer bytes than a read asks for, as long as it hands over one before
the end of the file, so a read is repeated until it has all bytes or meets the end.
-/

namespace DemandPaging

/-- The largest file of the host, 2^32 - 1 blocks of 4096 bytes; no position behind its end can be
sought. -/
def hostReach : Nat := 17592186040320

/-- A file on the host. -/
structure HostFile where
  content : Array UInt8
  /-- Whether the directory still names the file, so that it can be opened again. -/
  linked : Bool := true
  /-- The largest position that can be sought. -/
  reach : Nat := hostReach
  /-- How many bytes behind the first the host hands over at most at each of its reads. -/
  grants : Nat → Nat := fun _ => wordLimit
  /-- The number of reads so far. -/
  reads : Nat := 0

namespace HostFile

def reaches (file : HostFile) (position : Nat) : Bool :=
  decide (position ≤ file.reach)

def piece (file : HostFile) (position wanted : Nat) : Array UInt8 :=
  file.content.extract position (position + min wanted (1 + file.grants file.reads))

def afterRead (file : HostFile) : HostFile :=
  { file with reads := file.reads + 1 }

/-- Repeats reads from `position` on until `wanted` bytes are there or the file ends, in at most the
given number of rounds. -/
def gather (file : HostFile) (position wanted : Nat) : Nat → HostFile × Array UInt8
  | 0 => (file, #[])
  | rounds + 1 =>
      if wanted = 0 then (file, #[])
      else
        let bytes := file.piece position wanted
        if bytes.isEmpty then (file.afterRead, #[])
        else
          let (file, rest) :=
            file.afterRead.gather (position + bytes.size) (wanted - bytes.size) rounds
          (file, bytes ++ rest)

/-- Reads at most `length` bytes from `offset` on; `none` if the position cannot be sought. Every
round but the last brings a byte, so `length` rounds are enough. -/
def readAt (file : HostFile) (offset length : Nat) : HostFile × Option (Array UInt8) :=
  if file.reaches offset then
    let (file, bytes) := file.gather offset length length
    (file, some bytes)
  else
    (file, none)

/-- Writes the bytes that lie inside the file and tells how many these are; `none` if the position
cannot be sought. Behind the end nothing is sought and nothing written. -/
def writeAt (file : HostFile) (offset : Nat) (bytes : Array UInt8) : HostFile × Option Nat :=
  if file.content.size ≤ offset then
    (file, some 0)
  else if file.reaches offset then
    let count := min bytes.size (file.content.size - offset)
    ({ file with content := overwritten file.content offset (bytes.extract 0 count) }, some count)
  else
    (file, none)

end HostFile

end DemandPaging
