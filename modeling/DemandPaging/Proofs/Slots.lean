import DemandPaging.SwapSpace

/-!
# What a slot holds

The content of a slot is the page that its sectors make up. A store that is complete puts a page into
its slot, and a fetch that is complete answers with it; no store, complete or not, reaches the sectors
of another slot.
-/

namespace DemandPaging

/-! ## Runs of sectors -/

namespace Device

/-- The content of adjacent sectors. -/
def window (device : Device) (first count : Nat) : List Sector :=
  (List.range count).map fun index => device.sectors.getD (first + index) Sector.zero

theorem window_succ (device : Device) (first count : Nat) :
    device.window first (count + 1) =
      device.sectors.getD first Sector.zero :: device.window (first + 1) count := by
  rw [window, window, List.range_succ_eq_map, List.map_cons, List.map_map]
  congr 1
  apply List.map_congr_left
  intro index _
  rw [Function.comp_apply, Nat.succ_eq_add_one, Nat.add_right_comm, Nat.add_assoc]

theorem window_congr
    {device other : Device} {first count : Nat}
    (same : ∀ index, first ≤ index → index < first + count →
      device.sectors.getD index Sector.zero = other.sectors.getD index Sector.zero) :
    device.window first count = other.window first count := by
  apply List.map_congr_left
  intro index member
  have inside := List.mem_range.mp member
  exact same (first + index) (by omega) (by omega)

theorem read_served
    {device after : Device} {sector : Nat} {content : Sector}
    (served : device.read sector = (after, some content)) :
    after.sectors = device.sectors ∧ device.sectors.getD sector Sector.zero = content := by
  unfold read at served
  obtain ⟨recorded, found⟩ := Prod.mk.inj served
  refine ⟨by rw [← recorded, record], ?_⟩
  split at found
  · rw [Array.getD_eq_getD_getElem?, found, Option.getD_some]
  · cases found

theorem read_refused
    {device after : Device} {sector : Nat}
    (refused : device.read sector = (after, none)) :
    after.sectors = device.sectors := by
  unfold read at refused
  rw [← (Prod.mk.inj refused).1, record]

theorem sectors_readRun (device : Device) (first count : Nat) :
    (device.readRun first count).1.sectors = device.sectors := by
  induction count generalizing device first with
  | zero => rfl
  | succ count inductionHypothesis =>
      rw [readRun]
      split
      · rename_i after refused
        exact read_refused refused
      · rename_i after content served
        dsimp only
        rw [inductionHypothesis, (read_served served).1]

/-- A run that brings all sectors brings the content of the device. -/
theorem readRun_complete
    (device : Device) (first count : Nat)
    (complete : (device.readRun first count).2.length = count) :
    (device.readRun first count).2 = device.window first count := by
  induction count generalizing device first with
  | zero => rfl
  | succ count inductionHypothesis =>
      rw [readRun] at complete ⊢
      split at complete
      · cases complete
      · rename_i after content served
        obtain ⟨unchanged, found⟩ := read_served served
        simp only [List.length_cons, Nat.succ_inj] at complete ⊢
        rw [inductionHypothesis _ _ complete, window_succ, found]
        congr 1
        exact window_congr fun index _ _ => by rw [unchanged]

theorem serves_of_read_none
    {device after : Device} {sector : Nat} (refused : device.read sector = (after, none)) :
    device.serves sector = false := by
  obtain ⟨_, missing⟩ := Prod.mk.inj refused
  cases serves : device.serves sector with
  | false => rfl
  | true =>
      have inside : sector < device.sectors.size := by
        simp only [Device.serves, Bool.and_eq_true, decide_eq_true_eq] at serves
        exact serves.2
      rw [if_pos serves, Array.getElem?_eq_getElem inside] at missing
      cases missing

/-- A run of reads that is not complete ended with a read that failed. -/
theorem readRun_incomplete
    (device : Device) (first count : Nat)
    (incomplete : (device.readRun first count).2.length ≠ count) :
    ∃ sector earlier, (device.readRun first count).1.transfers =
      ⟨.read, sector, false⟩ :: (earlier ++ device.transfers) := by
  induction count generalizing device first with
  | zero => exact absurd rfl incomplete
  | succ count inductionHypothesis =>
      rw [readRun] at incomplete ⊢
      split at incomplete
      · rename_i after refused
        have recorded := (Prod.mk.inj refused).1
        refine ⟨first, [], ?_⟩
        rw [← recorded, record, serves_of_read_none refused]
        rfl
      · rename_i after content served
        have recorded := (Prod.mk.inj served).1
        simp only [List.length_cons, ne_eq, Nat.succ_inj] at incomplete
        obtain ⟨sector, earlier, noted⟩ := inductionHypothesis _ _ incomplete
        refine ⟨sector, earlier ++ [⟨.read, first, device.serves first⟩], ?_⟩
        rw [noted, ← recorded, record, List.append_assoc]
        rfl

theorem write_served
    {device after : Device} {sector : Nat} {content : Sector}
    (served : device.write sector content = (after, true)) :
    sector < device.sectors.size ∧
      after.sectors = device.sectors.setIfInBounds sector content := by
  unfold write at served
  dsimp only at served
  split at served
  · rename_i serves
    cases served
    rw [Device.serves, Bool.and_eq_true] at serves
    exact ⟨of_decide_eq_true serves.2, rfl⟩
  · cases served

theorem write_refused
    {device after : Device} {sector : Nat} {content : Sector}
    (refused : device.write sector content = (after, false)) :
    after.sectors = device.sectors ∧ after.transfers.head? = some ⟨.write, sector, false⟩ := by
  unfold write at refused
  dsimp only at refused
  split at refused
  · cases refused
  · rename_i serves
    cases refused
    simp only [record, Bool.not_eq_true] at serves ⊢
    simp [serves]

/-- A run of writes reaches only its own sectors. -/
theorem writeRun_other
    (device : Device) (first : Nat) (contents : List Sector) {index : Nat}
    (outside : index < first ∨ first + contents.length ≤ index) :
    (device.writeRun first contents).1.sectors.getD index Sector.zero =
      device.sectors.getD index Sector.zero := by
  induction contents generalizing device first with
  | nil => rfl
  | cons content rest inductionHypothesis =>
      rw [List.length_cons] at outside
      rw [writeRun]
      split
      · rename_i after refused
        rw [(write_refused refused).1]
      · rename_i after served
        rw [inductionHypothesis _ _ (by omega), (write_served served).2]
        have different : first ≠ index := by omega
        simp [different]

/-- A run of writes that is complete leaves its contents on the device. -/
theorem writeRun_complete
    (device : Device) (first : Nat) (contents : List Sector)
    (complete : (device.writeRun first contents).2 = true) :
    (device.writeRun first contents).1.window first contents.length = contents := by
  induction contents generalizing device first with
  | nil => rfl
  | cons content rest inductionHypothesis =>
      rw [writeRun] at complete ⊢
      split at complete
      · cases complete
      · rename_i after served
        obtain ⟨inside, written⟩ := write_served served
        rw [List.length_cons, window_succ, inductionHypothesis _ _ complete,
          writeRun_other _ _ _ (Or.inl (Nat.lt_succ_self first)), written]
        simp [inside]

/-- A run of writes that is not complete ended with a write that failed. -/
theorem writeRun_incomplete
    (device : Device) (first : Nat) (contents : List Sector)
    (incomplete : (device.writeRun first contents).2 = false) :
    ∃ sector, (device.writeRun first contents).1.transfers.head? =
      some ⟨.write, sector, false⟩ := by
  induction contents generalizing device first with
  | nil => cases incomplete
  | cons content rest inductionHypothesis =>
      rw [writeRun] at incomplete ⊢
      split at incomplete
      · rename_i after refused
        exact ⟨first, (write_refused refused).2⟩
      · exact inductionHypothesis _ _ incomplete

end Device

/-! ## Slots -/

namespace Image

/-- If all sectors are replaced, nothing of the old page is left. -/
theorem withSectors_eq_of_full
    (image other : Image) {sectors : Array Sector} (full : sectors.size = sectorsPerPage) :
    image.withSectors sectors = other.withSectors sectors := by
  apply Vector.ext
  intro index inside
  have within : index / sectorSize < sectors.size := by
    simp only [full, sectorSize, sectorsPerPage, pageSize] at *
    omega
  simp only [withSectors, Vector.getElem_ofFn, Array.getElem?_eq_getElem within]

end Image

namespace SwapSpace

/-- The page that a slot holds. -/
def slotImage (swap : SwapSpace) (slot : Nat) : Image :=
  Image.zero.withSectors (swap.device.window (firstSector slot) sectorsPerPage).toArray

theorem slotImage_congr
    {swap other : SwapSpace} (same : swap.device.sectors = other.device.sectors) (slot : Nat) :
    swap.slotImage slot = other.slotImage slot := by
  rw [slotImage, slotImage]
  congr 2
  exact Device.window_congr fun index _ _ => by rw [same]

theorem used_store (swap : SwapSpace) (slot : Nat) (image : Image) :
    (swap.store slot image).1.used = swap.used :=
  rfl

theorem used_fetch (swap : SwapSpace) (slot : Nat) (image : Image) :
    (swap.fetch slot image).1.used = swap.used :=
  rfl

theorem slotImage_store_self
    {swap : SwapSpace} {slot : Nat} {image : Image}
    (complete : (swap.store slot image).2 = true) :
    (swap.store slot image).1.slotImage slot = image := by
  have written := Device.writeRun_complete swap.device (firstSector slot) image.sectors complete
  rw [Image.length_sectors] at written
  simp only [slotImage, store]
  rw [written]
  exact Image.withSectors_sectors _ image

theorem slotImage_store_of_ne
    (swap : SwapSpace) {slot other : Nat} (image : Image) (different : slot ≠ other) :
    (swap.store slot image).1.slotImage other = swap.slotImage other := by
  simp only [slotImage, store]
  congr 2
  apply Device.window_congr
  intro index lower upper
  apply Device.writeRun_other
  rw [Image.length_sectors]
  simp only [firstSector] at *
  have apart : slot + 1 ≤ other ∨ other + 1 ≤ slot := by omega
  rcases apart with before | behind
  · exact Or.inr (by simp only [sectorsPerPage, pageSize, sectorSize] at *; omega)
  · exact Or.inl (by simp only [sectorsPerPage, pageSize, sectorSize] at *; omega)

theorem slotImage_fetch (swap : SwapSpace) (slot other : Nat) (image : Image) :
    (swap.fetch slot image).1.slotImage other = swap.slotImage other := by
  apply slotImage_congr
  rw [fetch]
  exact Device.sectors_readRun _ _ _

theorem fetch_complete
    {swap : SwapSpace} {slot : Nat} {image : Image}
    (complete : (swap.fetch slot image).2.2 = true) :
    (swap.fetch slot image).2.1 = swap.slotImage slot := by
  simp only [fetch, beq_iff_eq] at complete ⊢
  have read := Device.readRun_complete _ _ _ complete
  rw [slotImage, ← read]
  exact Image.withSectors_eq_of_full _ _ (by simpa using complete)

/-- A fetch that is not complete is noted with a read that failed. -/
theorem fetch_incomplete
    {swap : SwapSpace} {slot : Nat} {image : Image}
    (incomplete : (swap.fetch slot image).2.2 = false) :
    ∃ transfer ∈ (swap.fetch slot image).1.transfersSince swap, transfer.succeeded = false := by
  simp only [fetch, beq_eq_false_iff_ne] at incomplete ⊢
  obtain ⟨sector, earlier, noted⟩ := Device.readRun_incomplete _ _ _ incomplete
  refine ⟨⟨.read, sector, false⟩, ?_, rfl⟩
  rw [transfersSince, noted, ← List.cons_append, List.length_append, Nat.add_sub_cancel, List.take_left]
  exact List.mem_cons_self

theorem store_incomplete
    {swap : SwapSpace} {slot : Nat} {image : Image}
    (incomplete : (swap.store slot image).2 = false) :
    ∃ sector,
      (swap.store slot image).1.device.transfers.head? = some ⟨.write, sector, false⟩ := by
  rw [store] at incomplete ⊢
  exact Device.writeRun_incomplete _ _ _ incomplete

end SwapSpace

end DemandPaging
