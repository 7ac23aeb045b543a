import DemandPaging.Device

/-!
Exercises of a block device on its own.
-/

namespace DemandPaging

/-- One step of an exercise of a block device. -/
inductive DeviceStep where
  | malformed
  | count
  | read (sector : Nat)
  /-- Writes a sector; refused unless the bytes fill it exactly. -/
  | write (sector : Nat) (bytes : Array UInt8)
  /-- Only for devices in memory. -/
  | fail (on : Bool)
  /-- Asks whether the device has a file on the host. -/
  | onHost
  deriving DecidableEq

/-- What a step of an exercise of a block device answers. -/
inductive DeviceReply where
  | done
  | refused
  | failed
  | count (count : Nat)
  | content (bytes : Array UInt8)
  | onHost (answer : Bool)
  deriving DecidableEq

namespace Device

def drillStep (device : Device) : DeviceStep → Device × DeviceReply
  | .malformed => (device, .refused)
  | .count => (device, .count device.sectorCount)
  | .read sector =>
      match device.read sector with
      | (device, some content) => (device, .content content.toArray)
      | (device, none) => (device, .failed)
  | .write sector bytes =>
      match Sector.ofBytes? bytes with
      | none => (device, .refused)
      | some content =>
          match device.write sector content with
          | (device, true) => (device, .done)
          | (device, false) => (device, .failed)
  | .fail on =>
      match device.medium with
      | .memory => ({ device with failing := on }, .done)
      | .host => (device, .refused)
  | .onHost => (device, .onHost (device.medium == .host))

def drill (device : Device) : List DeviceStep → List DeviceReply
  | [] => []
  | step :: rest =>
      let (device, reply) := device.drillStep step
      reply :: device.drill rest

end Device

end DemandPaging
