import DemandPaging.Record.Reader

/-!
Quoted texts of the notation, read character by character behind the opening quote. A text that is only
passed over may hold escapes that stand for no character; one that is used may not.
-/

namespace DemandPaging

namespace Record

/-- Where a reader stands inside a quoted text. -/
inductive TextState where
  /-- Between characters. -/
  | plain
  /-- Behind a backslash. -/
  | escaped
  /-- Inside the four digits of a code unit: the number of digits and their value so far, and the high
  surrogate before them. -/
  | unit (digits value : Nat) (high : Option Nat)
  /-- Behind a high surrogate. -/
  | paired (high : Nat)
  /-- Behind a high surrogate and a backslash. -/
  | pairedEscape (high : Nat)
  deriving DecidableEq

def simpleEscape? : Char → Option Char
  | '"' => some '"'
  | '\\' => some '\\'
  | '/' => some '/'
  | 'b' => some '\x08'
  | 'f' => some '\x0c'
  | 'n' => some '\n'
  | 'r' => some '\r'
  | 't' => some '\t'
  | _ => none

/-- Whether a text has the four bytes that a code unit takes. -/
def holdsUnit (input : List Char) : Bool :=
  decide (4 ≤ (input.take 4).foldr (fun char size => char.utf8Size + size) 0)

def isHigh (unit : Nat) : Bool :=
  decide (0xd800 ≤ unit) && decide (unit ≤ 0xdbff)

def isLow (unit : Nat) : Bool :=
  decide (0xdc00 ≤ unit) && decide (unit ≤ 0xdfff)

/-- What follows a complete code unit: a character, or the wait for the second half of a pair. -/
def completeUnit (unit : Nat) : Option Nat → Except Fault (TextState × Option Char)
  | none =>
      if isLow unit then .error .malformed
      else if isHigh unit then .ok (.paired unit, none)
      else .ok (.plain, some (Char.ofNat unit))
  | some high =>
      if isLow unit then
        .ok (.plain, some (Char.ofNat ((high - 0xd800) * 0x400 + (unit - 0xdc00) + 0x10000)))
      else .error .malformed

/-- Reads a quoted text from a state on; `strict` demands that every escape stands for a character. -/
def readText (strict : Bool) : TextState → List Char → Except Fault (List Char × List Char)
  | _, [] => .error .truncated
  | .plain, char :: rest =>
      if char = '"' then .ok ([], rest)
      else if char = '\\' then readText strict .escaped rest
      else if char < ' ' then .error .malformed
      else
        match readText strict .plain rest with
        | .ok (chars, rest) => .ok (char :: chars, rest)
        | .error fault => .error fault
  | .escaped, char :: rest =>
      if char = 'u' then
        if holdsUnit rest then readText strict (.unit 0 0 none) rest else .error .truncated
      else
        match simpleEscape? char with
        | none => .error .malformed
        | some meant =>
            match readText strict .plain rest with
            | .ok (chars, rest) => .ok (meant :: chars, rest)
            | .error fault => .error fault
  | .unit digits value high, char :: rest =>
      match hexDigit? char with
      | none => .error .malformed
      | some digit =>
          let unit := value * 16 + digit
          if digits < 3 then readText strict (.unit (digits + 1) unit high) rest
          else if strict then
            match completeUnit unit high with
            | .error fault => .error fault
            | .ok (state, none) => readText strict state rest
            | .ok (state, some meant) =>
                match readText strict state rest with
                | .ok (chars, rest) => .ok (meant :: chars, rest)
                | .error fault => .error fault
          else readText strict .plain rest
  | .paired high, char :: rest =>
      if char = '\\' then readText strict (.pairedEscape high) rest else .error .malformed
  | .pairedEscape high, char :: rest =>
      if char = 'u' then
        if holdsUnit rest then readText strict (.unit 0 0 (some high)) rest else .error .truncated
      else .error .malformed

namespace Reader

def text (strict : Bool) : Reader String := fun input =>
  match readText strict .plain input with
  | .ok (chars, rest) => .ok (String.ofList chars, rest)
  | .error fault => .error fault

end Reader

end Record

end DemandPaging
