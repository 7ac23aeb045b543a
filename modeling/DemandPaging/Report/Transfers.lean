import DemandPaging.Device

/-!
How a report shows the transfers between virtual memory and its device: successful accesses in one
direction to adjacent ascending sectors form one run, a failed access stands alone.
-/

namespace DemandPaging

/-- Transfers that a report shows as one. -/
structure TransferRun where
  direction : Direction
  first : Nat
  count : Nat
  succeeded : Bool
  deriving DecidableEq

namespace TransferRun

def single (transfer : Transfer) : TransferRun :=
  ⟨transfer.direction, transfer.sector, 1, transfer.succeeded⟩

def continues (transfer : Transfer) (run : TransferRun) : Bool :=
  transfer.succeeded && run.succeeded && transfer.direction == run.direction &&
    run.first == transfer.sector + 1

def prepend (transfer : Transfer) (runs : List TransferRun) : List TransferRun :=
  match runs with
  | [] => [single transfer]
  | run :: rest =>
      if continues transfer run then
        { run with first := transfer.sector, count := run.count + 1 } :: rest
      else
        single transfer :: run :: rest

/-- The runs of transfers in the order in which they happened. -/
def ofTransfers (transfers : List Transfer) : List TransferRun :=
  transfers.foldr prepend []

/-- A run as text: direction, first sector, number of sectors, and a mark for a failure. -/
def text (run : TransferRun) : String :=
  let direction := match run.direction with
    | .read => "r"
    | .write => "w"
  let mark := if run.succeeded then "" else "!"
  direction ++ toString run.first ++ "+" ++ toString run.count ++ mark

end TransferRun

namespace Device

/-- The recorded transfers as text, the earliest first. -/
def transferReport (device : Device) : List String :=
  (TransferRun.ofTransfers device.transfers.reverse).map TransferRun.text

end Device

end DemandPaging
