import DemandPaging.Address
import DemandPaging.Record.Reader

/-!
Numbers of the notation. A number without fraction and exponent that fits a word is a word; every other
number only has to stay below what a binary floating-point number of 64 bits can hold.
-/

namespace DemandPaging

namespace Record

/-- The written parts of a number. -/
structure Numeral where
  negative : Bool
  /-- The digits before the point. -/
  whole : List Nat
  /-- The digits behind the point, if there is one. -/
  fraction : Option (List Nat)
  /-- Whether the exponent is negative, and its digits, if there is one. -/
  exponent : Option (Bool × List Nat)
  deriving DecidableEq

/-- The value of a number. -/
inductive NumberValue where
  | word (value : Nat)
  /-- A number that is no word. -/
  | other
  deriving DecidableEq

def decimalValue (digits : List Nat) : Nat :=
  digits.foldl (fun value digit => value * 10 + digit) 0

/-- Adds digits to a value as long as it stays a word; the count tells how many were left over. -/
def gatherDigits (value : Nat) : List Nat → Nat × Nat
  | [] => (value, 0)
  | digit :: rest =>
      if value * 10 + digit < wordLimit then gatherDigits (value * 10 + digit) rest
      else (value, rest.length + 1)

/-- A natural number rounded to 53 significant bits, a tie to the even neighbour. -/
def roundedToDouble (value : Nat) : Nat :=
  let excess := value.log2 + 1 - 53
  let unit := 1 <<< excess
  let quotient := value / unit
  let remainder := value % unit
  if unit < 2 * remainder ∨ (unit = 2 * remainder ∧ quotient % 2 = 1) then (quotient + 1) * unit
  else quotient * unit

def infiniteFrom : Nat :=
  (1 <<< 1024) - (1 <<< 970)

/-- The largest power of ten that does not round to infinity. -/
def largestTenPower : Nat := 308

def exponentLimit : Nat := 0x80000000

namespace Numeral

/-- The digits that count, as a word, and the power of ten that goes with them. -/
def scientific (numeral : Numeral) : Nat × Int :=
  let (value, leftOver) := gatherDigits 0 numeral.whole
  let fraction := numeral.fraction.getD []
  let (significand, ignored) := gatherDigits value fraction
  (significand, (leftOver : Int) - ((fraction.length - ignored : Nat) : Int))

/-- Whether a significand times a power of ten is too large. -/
def isInfinite (significand : Nat) (power : Int) : Bool :=
  if power < 0 ∨ significand = 0 then false
  else if (largestTenPower : Int) < power then true
  else
    decide (infiniteFrom ≤ roundedToDouble significand * roundedToDouble (Nat.pow 10 power.toNat))

/-- Whether the number is too large. An exponent beyond its limit is too large unless it is negative or
the digits are all zero. -/
def outOfRange (numeral : Numeral) : Bool :=
  let (significand, power) := numeral.scientific
  match numeral.exponent with
  | none => isInfinite significand power
  | some (negative, digits) =>
      let exponent := decimalValue digits
      if exponentLimit ≤ exponent then !negative && decide (significand ≠ 0)
      else isInfinite significand (if negative then power - exponent else power + exponent)

/-- The value of the number, if it is not too large. -/
def value (numeral : Numeral) : Except Fault NumberValue :=
  let plain := numeral.fraction.isNone && numeral.exponent.isNone
  if plain && decide (decimalValue numeral.whole < wordLimit) then
    if numeral.negative then .ok .other else .ok (.word (decimalValue numeral.whole))
  else if numeral.outOfRange then .error .malformed
  else .ok .other

end Numeral

namespace Reader

/-- Digits of which there has to be one; `atEnd` tells what is wrong if the text ends instead. -/
def someDigits (atEnd : Fault) : Reader (List Nat) := do
  match ← digits with
  | [] =>
      match ← peek with
      | none => throw atEnd
      | some _ => throw .malformed
  | found => pure found

def whole (atEnd : Fault) : Reader (List Nat) := do
  match ← someDigits atEnd with
  | 0 :: _ :: _ => throw .malformed
  | found => pure found

/-- The digits behind the point, if there is a point. -/
def fraction (atEnd : Fault) : Reader (Option (List Nat)) := do
  match ← peek with
  | some '.' =>
      drop
      return some (← someDigits atEnd)
  | _ => return none

def exponentSign : Reader Bool := do
  match ← peek with
  | some '+' =>
      drop
      return false
  | some '-' =>
      drop
      return true
  | _ => return false

/-- The exponent, if there is one. -/
def exponent (atEnd : Fault) : Reader (Option (Bool × List Nat)) := do
  match ← peek with
  | some 'e' | some 'E' =>
      drop
      let negative ← exponentSign
      return some (negative, ← someDigits atEnd)
  | _ => return none

def numeral (negative : Bool) (atEnd : Fault) : Reader Numeral := do
  let whole ← whole atEnd
  let fraction ← fraction atEnd
  let exponent ← exponent atEnd
  return ⟨negative, whole, fraction, exponent⟩

def number (negative : Bool) : Reader NumberValue := do
  match (← numeral negative .truncated).value with
  | .ok value => pure value
  | .error fault => throw fault

end Reader

end Record

end DemandPaging
