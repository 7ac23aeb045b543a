import DemandPaging.Address

/-!
The contents that move between frames, sectors and files. An image holds one page, a sector one unit
of transfer of the swap device; everything else is an array of bytes. Images and sectors are built by
giving the byte at each index, so that every operation has one law about single bytes.
-/

namespace DemandPaging

abbrev sectorSize : Nat := 512

abbrev sectorsPerPage : Nat := pageSize / sectorSize

abbrev Image := Vector UInt8 pageSize

abbrev Sector := Vector UInt8 sectorSize

namespace Sector

def zero : Sector :=
  Vector.replicate sectorSize 0

/-- The sector that holds exactly the given bytes, if there are as many as it takes. -/
def ofBytes? (bytes : Array UInt8) : Option Sector :=
  if sized : bytes.size = sectorSize then some ⟨bytes, sized⟩ else none

end Sector

namespace Image

def zero : Image :=
  Vector.replicate pageSize 0

/-- The page that starts with `bytes` and is zero behind them. -/
def ofBytes (bytes : Array UInt8) : Image :=
  Vector.ofFn fun index => bytes.getD index 0

/-- The page with `bytes` put over it from `start` on. -/
def overlay (image : Image) (start : Nat) (bytes : Array UInt8) : Image :=
  Vector.ofFn fun index =>
    if start ≤ index.val then bytes.getD (index - start) image[index] else image[index]

/-- The page with zeros put over it from `start` on. -/
def zeroFrom (image : Image) (start : Nat) : Image :=
  Vector.ofFn fun index => if start ≤ index.val then 0 else image[index]

/-- The bytes of the page from `start` on, at most `length` of them. -/
def slice (image : Image) (start length : Nat) : Array UInt8 :=
  image.toArray.extract start (start + length)

/-- The part of the page that the sector with number `index` of its slot holds. -/
def sector (image : Image) (index : Nat) : Sector :=
  Vector.ofFn fun position => image.toArray.getD (index * sectorSize + position) 0

def sectors (image : Image) : List Sector :=
  (List.range sectorsPerPage).map image.sector

def withSectors (image : Image) (sectors : Array Sector) : Image :=
  Vector.ofFn fun index =>
    match sectors[index / sectorSize]? with
    | some sector =>
      have within : index.val % sectorSize < sectorSize := Nat.mod_lt _ (by decide)
      sector[index.val % sectorSize]
    | none => image[index]

end Image

/-- `content` with `bytes` put over it from `start` on, cut at its end: the length never changes. -/
def overwritten (content : Array UInt8) (start : Nat) (bytes : Array UInt8) : Array UInt8 :=
  content.mapIdx fun index old =>
    if start ≤ index then bytes.getD (index - start) old else old

/-- `content` cut or filled up with zeros to `length` bytes. -/
def resized (content : Array UInt8) (length : Nat) : Array UInt8 :=
  content.extract 0 length ++ Array.replicate (length - content.size) 0

/-! ## Single bytes -/

namespace Image

theorem getElem_zero {index : Nat} (inside : index < pageSize) : zero[index] = 0 := by
  simp [zero]

theorem getElem_ofBytes (bytes : Array UInt8) {index : Nat} (inside : index < pageSize) :
    (ofBytes bytes)[index] = bytes.getD index 0 := by
  simp only [ofBytes, Vector.getElem_ofFn]

theorem getElem_overlay (image : Image) (start : Nat) (bytes : Array UInt8) {index : Nat}
    (inside : index < pageSize) :
    (image.overlay start bytes)[index] =
      if start ≤ index then bytes.getD (index - start) image[index] else image[index] := by
  simp only [overlay, Vector.getElem_ofFn]
  rfl

theorem getElem_zeroFrom (image : Image) (start : Nat) {index : Nat} (inside : index < pageSize) :
    (image.zeroFrom start)[index] = if start ≤ index then 0 else image[index] := by
  simp only [zeroFrom, Vector.getElem_ofFn]
  rfl

theorem zeroFrom_zero (image : Image) : image.zeroFrom 0 = zero := by
  apply Vector.ext
  intro index inside
  rw [getElem_zeroFrom, if_pos (Nat.zero_le index), getElem_zero]

/-- Of a page that gets bytes at its start and zeros behind them nothing else is left. -/
theorem zeroFrom_overlay (image : Image) (bytes : Array UInt8) :
    (image.overlay 0 bytes).zeroFrom bytes.size = ofBytes bytes := by
  apply Vector.ext
  intro index inside
  rw [getElem_zeroFrom, getElem_ofBytes]
  split
  · rename_i behind
    simp [Array.getD, Nat.not_lt.mpr behind]
  · rename_i before
    have there : index < bytes.size := Nat.not_le.mp before
    rw [getElem_overlay, if_pos (Nat.zero_le index), Nat.sub_zero]
    simp [Array.getD, there]

theorem length_sectors (image : Image) : image.sectors.length = sectorsPerPage := by
  simp only [sectors, List.length_map, List.length_range]

/-- A page that got all sectors of another is the other page. -/
theorem withSectors_sectors (image other : Image) :
    image.withSectors other.sectors.toArray = other := by
  apply Vector.ext
  intro index inside
  have within : index / sectorSize < sectorsPerPage := by
    simp only [sectorSize, sectorsPerPage, pageSize] at *
    omega
  have position : index / sectorSize * sectorSize + index % sectorSize = index :=
    Nat.div_add_mod' index sectorSize
  simp only [withSectors, Vector.getElem_ofFn, sectors, List.getElem?_toArray, List.getElem?_map,
    List.getElem?_range within, Option.map_some, sector, position]
  simp [inside]

end Image

theorem size_overwritten (content : Array UInt8) (start : Nat) (bytes : Array UInt8) :
    (overwritten content start bytes).size = content.size := by
  simp [overwritten]

theorem getElem_overwritten (content : Array UInt8) (start : Nat) (bytes : Array UInt8) {index : Nat}
    (inside : index < (overwritten content start bytes).size)
    (before : index < content.size) :
    (overwritten content start bytes)[index] =
      if start ≤ index then bytes.getD (index - start) content[index] else content[index] := by
  simp only [overwritten, Array.getElem_mapIdx]

theorem size_resized (content : Array UInt8) (length : Nat) :
    (resized content length).size = length := by
  simp only [resized, Array.size_append, Array.size_extract, Array.size_replicate]
  omega

end DemandPaging
