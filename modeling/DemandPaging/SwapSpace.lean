import DemandPaging.Bitmap
import DemandPaging.Device

/-!
The swap space: the device cut into slots of one page each, with a bitmap of the slots in use. A
partial slot at the end of the device is never used.
-/

namespace DemandPaging

/-- A device divided into page sized slots. -/
structure SwapSpace where
  device : Device
  /-- The slots in use. -/
  used : Bitmap

namespace SwapSpace

/-- The swap space of a device, with every slot free. -/
def ofDevice (device : Device) : SwapSpace where
  device := device
  used := Bitmap.empty (device.sectorCount / sectorsPerPage)

def firstSector (slot : Nat) : Nat :=
  slot * sectorsPerPage

def slotCount (swap : SwapSpace) : Nat :=
  swap.used.size

def freeSlots (swap : SwapSpace) : Nat :=
  swap.used.size - swap.used.count

def reserve? (swap : SwapSpace) : Option (Nat × SwapSpace) :=
  match swap.used.take with
  | (_, none) => none
  | (used, some slot) => some (slot, { swap with used := used })

def release (swap : SwapSpace) (slot : Nat) : SwapSpace :=
  { swap with used := swap.used.put slot false }

/-- Writes a page to a slot and tells whether all of it was written. -/
def store (swap : SwapSpace) (slot : Nat) (image : Image) : SwapSpace × Bool :=
  let (device, complete) := swap.device.writeRun (firstSector slot) image.sectors
  ({ swap with device := device }, complete)

/-- Reads the page of a slot over `image` and tells whether all of it was read; after a failure the
sectors read before it are in place. -/
def fetch (swap : SwapSpace) (slot : Nat) (image : Image) : SwapSpace × Image × Bool :=
  let (device, sectors) := swap.device.readRun (firstSector slot) sectorsPerPage
  ({ swap with device := device }, image.withSectors sectors.toArray,
    sectors.length == sectorsPerPage)

/-- The transfers that brought one swap space to a later one, the latest first. -/
def transfersSince (later earlier : SwapSpace) : List Transfer :=
  later.device.transfers.take (later.device.transfers.length - earlier.device.transfers.length)

/-- The slot that is reserved is the lowest free one. -/
theorem reserve?_eq (swap : SwapSpace) :
    swap.reserve? = swap.used.firstClear?.map fun slot =>
      (slot, { swap with used := swap.used.insert slot }) := by
  rw [reserve?]
  cases found : swap.used.firstClear? with
  | none => rw [Bitmap.take_of_none found, Option.map_none]
  | some slot => rw [Bitmap.take_of_some found, Option.map_some]

end SwapSpace

end DemandPaging
