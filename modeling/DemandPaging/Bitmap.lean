/-!
A fixed number of flags, packed eight to a byte. The byte of a flag is found by division, its bit by
remainder; the bits behind the last flag are padding and stay clear.
-/

namespace DemandPaging

/-- `size` flags in as many bytes as they need. -/
structure Bitmap where
  /-- The number of flags. -/
  size : Nat
  /-- The flags, lowest first. -/
  bytes : Array (BitVec 8)
  /-- There are just enough bytes. -/
  size_bytes : bytes.size = (size + 7) / 8
  deriving DecidableEq

namespace Bitmap

def empty (size : Nat) : Bitmap where
  size := size
  bytes := Array.replicate ((size + 7) / 8) 0
  size_bytes := Array.size_replicate

def get (bitmap : Bitmap) (index : Nat) : Bool :=
  (bitmap.bytes.getD (index / 8) 0).getLsbD (index % 8)

def insert (bitmap : Bitmap) (index : Nat) : Bitmap :=
  { bitmap with
    bytes := bitmap.bytes.modify (index / 8) fun byte => byte ||| BitVec.twoPow 8 (index % 8)
    size_bytes := by rw [Array.size_modify, bitmap.size_bytes] }

def erase (bitmap : Bitmap) (index : Nat) : Bitmap :=
  { bitmap with
    bytes := bitmap.bytes.modify (index / 8) fun byte => byte &&& ~~~(BitVec.twoPow 8 (index % 8))
    size_bytes := by rw [Array.size_modify, bitmap.size_bytes] }

/-- Sets or clears a flag. -/
def put (bitmap : Bitmap) (index : Nat) (value : Bool) : Bitmap :=
  if value then bitmap.insert index else bitmap.erase index

/-- The lowest clear bit of a byte, eight if there is none. -/
def lowestClear (byte : BitVec 8) : Nat :=
  (~~~byte).ctz.toNat

/-- The lowest clear flag: full bytes are passed over, and a clear padding bit is no flag. -/
def firstClear? (bitmap : Bitmap) : Option Nat :=
  match bitmap.bytes.findIdx? (· != BitVec.allOnes 8) with
  | none => none
  | some position =>
      let index := position * 8 + lowestClear (bitmap.bytes.getD position 0)
      if index < bitmap.size then some index else none

/-- Sets the lowest clear flag and tells which one that is; `none` if there is none. -/
def take (bitmap : Bitmap) : Bitmap × Option Nat :=
  match bitmap.firstClear? with
  | none => (bitmap, none)
  | some index => (bitmap.insert index, some index)

def count (bitmap : Bitmap) : Nat :=
  bitmap.bytes.foldr (fun byte count => byte.cpop.toNat + count) 0

theorem take_of_none {bitmap : Bitmap} (missing : bitmap.firstClear? = none) :
    bitmap.take = (bitmap, none) := by
  rw [take, missing]

theorem take_of_some {bitmap : Bitmap} {index : Nat} (found : bitmap.firstClear? = some index) :
    bitmap.take = (bitmap.insert index, some index) := by
  rw [take, found]

/-! ## Single flags -/

theorem get_empty (size index : Nat) : (empty size).get index = false := by
  simp only [get, empty, Array.getD_eq_getD_getElem?, Array.getElem?_replicate]
  split <;> simp

/-- Two flags are the same when they have the same byte and the same bit in it. -/
theorem index_eq_iff (left right : Nat) :
    left = right ↔ left / 8 = right / 8 ∧ left % 8 = right % 8 := by
  omega

theorem byte_lt_size (bitmap : Bitmap) {index : Nat} (inside : index < bitmap.size) :
    index / 8 < bitmap.bytes.size := by
  have sized := bitmap.size_bytes
  omega

theorem get_insert (bitmap : Bitmap) {index : Nat} (other : Nat) (inside : index < bitmap.size) :
    (bitmap.insert index).get other = (bitmap.get other || decide (index = other)) := by
  have bound := bitmap.byte_lt_size inside
  have bit : other % 8 < 8 := Nat.mod_lt other (by decide)
  by_cases sameByte : index / 8 = other / 8
  · have present : bitmap.bytes[other / 8]? = some bitmap.bytes[other / 8] := by
      simp [← sameByte, bound]
    simp only [get, insert, Array.getD_eq_getD_getElem?, Array.getElem?_modify, sameByte, if_pos,
      present, Option.map_some, Option.getD_some, BitVec.getLsbD_or, BitVec.getLsbD_twoPow,
      index_eq_iff index other, true_and]
    grind
  · have different : index ≠ other := fun same => sameByte (congrArg (· / 8) same)
    simp [get, insert, Array.getD_eq_getD_getElem?, Array.getElem?_modify, sameByte, different]

theorem get_erase (bitmap : Bitmap) {index : Nat} (other : Nat) (inside : index < bitmap.size) :
    (bitmap.erase index).get other = (bitmap.get other && decide (index ≠ other)) := by
  have bound := bitmap.byte_lt_size inside
  have bit : other % 8 < 8 := Nat.mod_lt other (by decide)
  by_cases sameByte : index / 8 = other / 8
  · have present : bitmap.bytes[other / 8]? = some bitmap.bytes[other / 8] := by
      simp [← sameByte, bound]
    simp only [get, erase, Array.getD_eq_getD_getElem?, Array.getElem?_modify, sameByte, if_pos,
      present, Option.map_some, Option.getD_some, BitVec.getLsbD_and, BitVec.getLsbD_not,
      BitVec.getLsbD_twoPow, ne_eq, index_eq_iff index other, true_and]
    grind
  · have different : index ≠ other := fun same => sameByte (congrArg (· / 8) same)
    simp [get, erase, Array.getD_eq_getD_getElem?, Array.getElem?_modify, sameByte, different]

end Bitmap

end DemandPaging
