/-!
Addresses of user memory and of the frame pool. Both are natural numbers, as are frame and slot
numbers; every operation whose result could leave the 64-bit words says so, either by an option or by
reducing modulo the limit.
-/

namespace DemandPaging

/-! ## Words and names -/

/-- The number of values of a 64-bit word; addresses, lengths and offsets lie below it. -/
abbrev wordLimit : Nat := 0x10000000000000000

abbrev Pid := Nat

/-- The index of a file among the files that can be mapped. -/
abbrev FileId := Nat

/-- The sum of two words, if it is a word. -/
def checkedSum (left right : Nat) : Option Nat :=
  if left + right < wordLimit then some (left + right) else none

/-! ## Pages -/

/-- The size of a virtual page and of a physical frame in bytes. -/
abbrev pageSize : Nat := 4096

def pageBase (address : Nat) : Nat :=
  address - address % pageSize

def pageOffset (address : Nat) : Nat :=
  address % pageSize

/-- An address is page aligned when it is the start of its page. -/
def pageAligned (address : Nat) : Bool :=
  pageOffset address == 0

def frameBase (frame : Nat) : Nat :=
  frame * pageSize

/-- The least multiple of the page size that is not below `length`. -/
def roundedLength (length : Nat) : Nat :=
  (length + (pageSize - 1)) / pageSize * pageSize

theorem pageBase_add_pageOffset (address : Nat) :
    pageBase address + pageOffset address = address := by
  simp only [pageBase, pageOffset, pageSize]
  omega

theorem pageBase_idem (address : Nat) :
    pageBase (pageBase address) = pageBase address := by
  simp only [pageBase, pageSize]
  omega

theorem pageOffset_lt (address : Nat) : pageOffset address < pageSize := by
  simp only [pageOffset, pageSize]
  omega

/-! ## Text -/

/-- An address in lower case hexadecimal without leading zeros. -/
def hexText (address : Nat) : String :=
  "0x" ++ String.ofList (Nat.toDigits 16 address)

/-- The text by which messages name an address of user memory. -/
def virtText (address : Nat) : String :=
  "VirtAddr(" ++ hexText address ++ ")"

def physText (address : Nat) : String :=
  "PhysAddr(" ++ hexText address ++ ")"

def frameText (frame : Nat) : String :=
  "Frame#" ++ toString frame

end DemandPaging
