import DemandPaging.Gate
import DemandPaging.Image
import DemandPaging.Medium

/-!
The block device that holds evicted pages, read and written one sector at a time. Every access is
recorded, whether it succeeds or not. Besides a schedule of failures a device in memory can be
switched to fail as a whole.
-/

namespace DemandPaging

/-- The direction of a transfer, seen from the virtual memory. -/
inductive Direction where
  | read
  | write
  deriving DecidableEq

/-- One access to one sector. -/
structure Transfer where
  direction : Direction
  sector : Nat
  succeeded : Bool
  deriving DecidableEq

/-- A block device. -/
structure Device where
  medium : Medium
  sectors : Array Sector
  /-- While set, no access succeeds. -/
  failing : Bool := false
  /-- The accesses that reach the device. -/
  gate : Gate := Gate.always
  /-- The accesses so far, the latest first. -/
  transfers : List Transfer := []

namespace Device

def blank (medium : Medium) (sectorCount : Nat) : Device where
  medium := medium
  sectors := Array.replicate sectorCount Sector.zero

def sectorCount (device : Device) : Nat :=
  device.sectors.size

def serves (device : Device) (sector : Nat) : Bool :=
  device.gate.isOpen && !device.failing && decide (sector < device.sectorCount)

def record (device : Device) (direction : Direction) (sector : Nat) : Device :=
  { device with
    gate := device.gate.next
    transfers := ⟨direction, sector, device.serves sector⟩ :: device.transfers }

/-- Reads one sector, `none` if that fails. -/
def read (device : Device) (sector : Nat) : Device × Option Sector :=
  (device.record .read sector, if device.serves sector then device.sectors[sector]? else none)

def write (device : Device) (sector : Nat) (content : Sector) : Device × Bool :=
  let recorded := device.record .write sector
  if device.serves sector then
    ({ recorded with sectors := device.sectors.setIfInBounds sector content }, true)
  else
    (recorded, false)

/-- Reads `count` adjacent sectors up to the first failure. -/
def readRun (device : Device) (first : Nat) : Nat → Device × List Sector
  | 0 => (device, [])
  | count + 1 =>
      match device.read first with
      | (device, none) => (device, [])
      | (device, some sector) =>
          let (device, rest) := device.readRun (first + 1) count
          (device, sector :: rest)

/-- Writes adjacent sectors up to the first failure and tells whether there was none. -/
def writeRun (device : Device) (first : Nat) : List Sector → Device × Bool
  | [] => (device, true)
  | sector :: rest =>
      match device.write first sector with
      | (device, false) => (device, false)
      | (device, true) => device.writeRun (first + 1) rest

/-- The content of `count` sectors as it lies on the device, with no access recorded and no schedule
consulted; `none` if the device is set failing or ends before them. -/
def peek (device : Device) (first count : Nat) : Option (Array UInt8) :=
  if count = 0 then some #[]
  else if device.failing || decide (device.sectorCount < first + count) then none
  else
    some ((device.sectors.extract first (first + count)).foldl
      (fun bytes sector => bytes ++ sector.toArray) #[])

def forgetTransfers (device : Device) : Device :=
  { device with transfers := [] }

end Device

end DemandPaging
