import DemandPaging.Record.Number
import DemandPaging.Record.Text

/-!
Values of the notation that are passed over, of any depth. The brackets that are open stand on a stack.
-/

namespace DemandPaging

namespace Record

/-- A kind of bracket. -/
inductive Bracket where
  | list
  | object
  deriving DecidableEq

namespace Bracket

def closing : Bracket → Char
  | list => ']'
  | object => '\x7d'

end Bracket

/-- Where a reader stands while it passes over values. -/
inductive SkipState where
  /-- Before a value. -/
  | value
  /-- Before a key. -/
  | key
  /-- Behind an opening bracket. -/
  | opened
  /-- Behind a value. -/
  | closed
  deriving DecidableEq

namespace SkipState

def element : Bracket → SkipState
  | .list => value
  | .object => key

end SkipState

namespace Reader

def skipScalar (first : Char) : Reader Unit := do
  match first with
  | 'n' => word ['n', 'u', 'l', 'l']
  | 't' => word ['t', 'r', 'u', 'e']
  | 'f' => word ['f', 'a', 'l', 's', 'e']
  | '"' =>
      drop
      let _ ← text false
  | '-' =>
      drop
      let _ ← numeral true .malformed
  | _ =>
      if (digit? first).isSome then
        let _ ← numeral false .malformed
      else
        throw .malformed

/-- A colon, with the spaces before it. -/
def colon : Reader Unit := do
  match ← peekPastSpace with
  | some ':' => drop
  | some _ => throw .malformed
  | none => throw .truncated

/-- The opening quote, the text and the colon of a key that is passed over. -/
def skipKey (first : Char) : Reader Unit := do
  if first = '"' then
    drop
    let _ ← text false
    colon
  else
    throw .malformed

/-- Passes over values until the stack of open brackets is empty. Every character is met in at most two
steps, which bounds the number of steps. -/
def skipSteps : Nat → SkipState → List Bracket → Reader Unit
  | 0, _, _ => throw .truncated
  | _ + 1, .closed, [] => pure ()
  | steps + 1, state, stack => do
      match ← peekPastSpace with
      | none => throw .truncated
      | some char =>
          match state, stack with
          | .value, stack =>
              if char = '[' then
                drop
                skipSteps steps .opened (.list :: stack)
              else if char = '\x7b' then
                drop
                skipSteps steps .opened (.object :: stack)
              else
                skipScalar char
                skipSteps steps .closed stack
          | .key, stack =>
              skipKey char
              skipSteps steps .value stack
          | .opened, bracket :: rest =>
              if char = bracket.closing then
                drop
                skipSteps steps .closed rest
              else
                skipSteps steps (SkipState.element bracket) (bracket :: rest)
          | .closed, bracket :: rest =>
              if char = bracket.closing then
                drop
                skipSteps steps .closed rest
              else if char = ',' then
                drop
                skipSteps steps (SkipState.element bracket) (bracket :: rest)
              else
                throw .malformed
          | _, [] => throw .malformed

def skipValue : Reader Unit := do
  let input ← get
  skipSteps (2 * input.length + 2) .value []

end Reader

end Record

end DemandPaging
