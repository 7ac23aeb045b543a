import DemandPaging.Pager.Stats
import DemandPaging.Record.Skip

/-!
Records of words in notation. A record is written as an object with a word for each of its fields, in
any order and among other fields that are passed over, or as a list of the words in the order of the
fields. A configuration and a snapshot of statistics are such records; an address is a bare word.
-/

namespace DemandPaging

namespace Record

/-- A kind of record whose fields are words. -/
structure Shape (α : Type) where
  /-- The names of the fields. -/
  names : List String
  /-- The record with given words as its fields. -/
  build : List Nat → Option α

namespace Reader

/-- Something else than what is wanted: it is a mismatch if it starts like a value of the notation. -/
def mismatch (first : Char) : Reader α := do
  match first with
  | 'n' => word ['n', 'u', 'l', 'l']
  | 't' => word ['t', 'r', 'u', 'e']
  | 'f' => word ['f', 'a', 'l', 's', 'e']
  | '"' =>
      drop
      let _ ← text true
  | '-' =>
      drop
      let _ ← number true
  | '[' => pure ()
  | '\x7b' => pure ()
  | _ =>
      if (digit? first).isSome then
        let _ ← number false
      else
        throw .malformed
  throw .mismatched

def wordValue : Reader Nat := do
  match ← peekPastSpace with
  | none => throw .truncated
  | some first =>
      if first = '-' ∨ (digit? first).isSome then
        if first = '-' then drop
        match ← number (first == '-') with
        | .word value => pure value
        | .other => throw .mismatched
      else
        mismatch first

/-! ## Lists -/

/-- Tells whether one more element follows, and takes the comma before it off. -/
def nextElement (isFirst : Bool) : Reader Bool := do
  match ← peekPastSpace with
  | none => throw .truncated
  | some ']' => return false
  | some char =>
      if isFirst then return true
      else if char = ',' then
        drop
        match ← peekPastSpace with
        | none => throw .truncated
        | some ']' => throw .malformed
        | some _ => return true
      else throw .malformed

/-- The given number of words as elements of a list, of which none may be missing. -/
def elements (isFirst : Bool) : Nat → Reader (List Nat)
  | 0 => pure []
  | count + 1 => do
      if ← nextElement isFirst then
        let value ← wordValue
        return value :: (← elements false count)
      else
        throw .mismatched

def closeList : Reader Unit := do
  match ← peekPastSpace with
  | none => throw .truncated
  | some ']' => drop
  | some _ => throw .malformed

/-! ## Objects -/

/-- Tells whether one more key follows, and takes the comma and the quote before it off. -/
def nextKey (isFirst : Bool) : Reader Bool := do
  match ← peekPastSpace with
  | none => throw .truncated
  | some '\x7d' => return false
  | some char =>
      if isFirst then
        if char = '"' then
          drop
          return true
        else throw .malformed
      else if char = ',' then
        drop
        match ← peekPastSpace with
        | none => throw .truncated
        | some '"' =>
            drop
            return true
        | some _ => throw .malformed
      else throw .malformed

/-- The fields of an object up to its end; a field that was read before is a mismatch. Every field takes
characters off, which bounds their number. -/
def fields (names : List String) (isFirst : Bool) :
    Nat → List (String × Nat) → Reader (List (String × Nat))
  | 0, _ => throw .truncated
  | bound + 1, found => do
      if ← nextKey isFirst then
        let name ← text true
        if names.contains name then
          if (found.lookup name).isSome then
            throw .mismatched
          else
            colon
            let value ← wordValue
            fields names false bound ((name, value) :: found)
        else
          colon
          skipValue
          fields names false bound found
      else
        pure found

def closeObject : Reader Unit := do
  match ← peekPastSpace with
  | none => throw .truncated
  | some '\x7d' => drop
  | some _ => throw .malformed

/-! ## Records -/

def words (names : List String) : Reader (List Nat) := do
  match ← peekPastSpace with
  | none => throw .truncated
  | some '[' =>
      drop
      let values ← elements true names.length
      closeList
      return values
  | some '\x7b' =>
      drop
      let found ← fields names true ((← get).length + 1) []
      match names.mapM fun name => found.lookup name with
      | none => throw .mismatched
      | some values =>
          closeObject
          return values
  | some first => mismatch first

/-- The end of the text, where only spaces may stand. -/
def finish : Reader Unit := do
  match ← peekPastSpace with
  | none => pure ()
  | some _ => throw .malformed

end Reader

def readAll (reader : Reader α) (text : String) : Except Fault α :=
  let whole : Reader α := do
    let value ← reader
    Reader.finish
    return value
  match whole text.toList with
  | .ok (value, _) => .ok value
  | .error fault => .error fault

def Shape.read (shape : Shape α) (text : String) : Except Fault α :=
  match readAll (Reader.words shape.names) text with
  | .error fault => .error fault
  | .ok values =>
      match shape.build values with
      | some record => .ok record
      | none => .error .mismatched

def readWord (text : String) : Except Fault Nat :=
  readAll Reader.wordValue text

/-! ## The records of the virtual memory -/

def configShape : Shape Config where
  names := ["frame_count", "stack_top", "max_stack_size", "kernel_base", "stack_slack"]
  build
    | [frameCount, stackTop, maxStackSize, kernelBase, stackSlack] =>
        some { frameCount, stackTop, maxStackSize, kernelBase, stackSlack }
    | _ => none

def configFields (config : Config) : List (String × Nat) :=
  configShape.names.zip
    [config.frameCount, config.stackTop, config.maxStackSize, config.kernelBase, config.stackSlack]

def statsShape : Shape Stats where
  names := ["frames_total", "frames_free", "swap_slots_total", "swap_slots_free", "evictions",
    "swap_ins", "swap_outs", "write_backs", "page_faults", "processes"]
  build
    | [framesTotal, framesFree, swapSlotsTotal, swapSlotsFree, evictions, swapIns, swapOuts,
        writeBacks, pageFaults, processes] =>
        some ⟨framesTotal, framesFree, swapSlotsTotal, swapSlotsFree, evictions, swapIns, swapOuts,
          writeBacks, pageFaults, processes⟩
    | _ => none

def statsFields (stats : Stats) : List (String × Nat) :=
  statsShape.names.zip
    [stats.framesTotal, stats.framesFree, stats.swapSlotsTotal, stats.swapSlotsFree, stats.evictions,
      stats.swapIns, stats.swapOuts, stats.writeBacks, stats.pageFaults, stats.processes]

end Record

end DemandPaging
