/-!
Reading of notation from characters: what can be wrong with a text, and the smallest steps that every
part of the notation is read with.
-/

namespace DemandPaging

namespace Record

/-- What is wrong with a text. -/
inductive Fault where
  /-- The text does not follow the notation. -/
  | malformed
  /-- The text ends too early. -/
  | truncated
  /-- The text follows the notation but has the wrong shape. -/
  | mismatched
  deriving DecidableEq

abbrev Reader := StateT (List Char) (Except Fault)

/-- The characters that may stand between the parts of the notation. -/
def isSpace (char : Char) : Bool :=
  char == ' ' || char == '\n' || char == '\t' || char == '\r'

def digit? (char : Char) : Option Nat :=
  if '0' ≤ char ∧ char ≤ '9' then some (char.toNat - '0'.toNat) else none

def hexDigit? (char : Char) : Option Nat :=
  if '0' ≤ char ∧ char ≤ '9' then some (char.toNat - '0'.toNat)
  else if 'a' ≤ char ∧ char ≤ 'f' then some (char.toNat - 'a'.toNat + 10)
  else if 'A' ≤ char ∧ char ≤ 'F' then some (char.toNat - 'A'.toNat + 10)
  else none

namespace Reader

/-- The next character, which stays. -/
def peek : Reader (Option Char) := do
  return (← get).head?

def drop : Reader Unit :=
  modify List.tail

/-- The next character that is no space; the spaces before it are taken off, the character stays. -/
def peekPastSpace : Reader (Option Char) := do
  modify fun input => input.dropWhile isSpace
  peek

def digits : Reader (List Nat) := do
  let input ← get
  set (input.dropWhile fun char => (digit? char).isSome)
  return (input.takeWhile fun char => (digit? char).isSome).filterMap digit?

def word : List Char → Reader Unit
  | [] => pure ()
  | expected :: rest => do
      match ← peek with
      | none => throw .truncated
      | some char =>
          if char = expected then
            drop
            word rest
          else
            throw .malformed

end Reader

end Record

end DemandPaging
