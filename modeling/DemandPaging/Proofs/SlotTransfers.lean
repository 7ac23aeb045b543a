import DemandPaging.Proofs.Slots

/-!
# Transfers of slots

A store and a fetch transfer sectors of their slot and no others, in one direction, and they are complete if
no transfer fails. Slots share no sector, so what is stored in a slot stays there whatever happens to others.
-/

namespace DemandPaging

/-- Accesses in one direction to `count` adjacent sectors, without a failure if they are complete. -/
structure Issues (direction : Direction) (first count : Nat) (complete : Bool) (issued : List Transfer) :
    Prop where
  within : ∀ transfer ∈ issued,
    transfer.direction = direction ∧ first ≤ transfer.sector ∧ transfer.sector < first + count
  complete : issued.all Transfer.succeeded = complete

namespace Issues

variable {direction : Direction} {first count : Nat} {complete : Bool} {issued : List Transfer}

theorem nil (direction : Direction) (first count : Nat) : Issues direction first count true [] where
  within _ member := absurd member List.not_mem_nil
  complete := rfl

/-- A run ends with its first access if that fails. -/
theorem refused (direction : Direction) (first count : Nat) :
    Issues direction first (count + 1) false [⟨direction, first, false⟩] where
  within transfer member := by
    rw [List.mem_singleton.mp member]
    exact ⟨rfl, Nat.le_refl first, by dsimp only; omega⟩
  complete := rfl

/-- A run goes on behind its first access if that succeeds. -/
theorem served (rest : Issues direction (first + 1) count complete issued) :
    Issues direction first (count + 1) complete (issued ++ [⟨direction, first, true⟩]) where
  within transfer member := by
    rcases List.mem_append.mp member with later | isFirst
    · obtain ⟨same, lower, upper⟩ := rest.within transfer later
      exact ⟨same, by omega, by omega⟩
    · rw [List.mem_singleton.mp isFirst]
      exact ⟨rfl, Nat.le_refl first, by dsimp only; omega⟩
  complete := by simp [rest.complete]

end Issues

namespace Device

theorem transfers_read (device : Device) (sector : Nat) :
    (device.read sector).1.transfers =
      ⟨.read, sector, (device.read sector).2.isSome⟩ :: device.transfers := by
  cases serves : device.serves sector with
  | false => simp [read, record, serves]
  | true =>
      have inside : sector < device.sectors.size := by
        rw [Device.serves, Bool.and_eq_true] at serves
        exact of_decide_eq_true serves.2
      simp [read, record, serves, inside]

theorem transfers_write (device : Device) (sector : Nat) (content : Sector) :
    (device.write sector content).1.transfers =
      ⟨.write, sector, (device.write sector content).2⟩ :: device.transfers := by
  cases serves : device.serves sector <;> simp [write, record, serves]

theorem readRun_issues (device : Device) (first count : Nat) :
    ∃ issued, (device.readRun first count).1.transfers = issued ++ device.transfers ∧
      Issues .read first count ((device.readRun first count).2.length == count) issued := by
  induction count generalizing device first with
  | zero => exact ⟨[], rfl, .nil ..⟩
  | succ count inductionHypothesis =>
      have issued := device.transfers_read first
      rw [readRun]
      split
      · rename_i after refused
        rw [refused] at issued
        exact ⟨[_], issued, .refused ..⟩
      · rename_i after content served
        rw [served] at issued
        obtain ⟨later, noted, issues⟩ := inductionHypothesis after (first + 1)
        refine ⟨later ++ [⟨.read, first, true⟩], ?_, ?_⟩
        · dsimp only
          rw [noted, issued, List.append_assoc]
          rfl
        · simpa using issues.served

theorem writeRun_issues (device : Device) (first : Nat) (contents : List Sector) :
    ∃ issued, (device.writeRun first contents).1.transfers = issued ++ device.transfers ∧
      Issues .write first contents.length (device.writeRun first contents).2 issued := by
  induction contents generalizing device first with
  | nil => exact ⟨[], rfl, .nil ..⟩
  | cons content rest inductionHypothesis =>
      have issued := device.transfers_write first content
      rw [writeRun]
      split
      · rename_i after refused
        rw [refused] at issued
        exact ⟨[_], issued, .refused ..⟩
      · rename_i after served
        rw [served] at issued
        obtain ⟨later, noted, issues⟩ := inductionHypothesis after (first + 1)
        refine ⟨later ++ [⟨.write, first, true⟩], ?_, issues.served⟩
        rw [noted, issued, List.append_assoc]
        rfl

theorem size_writeRun (device : Device) (first : Nat) (contents : List Sector) :
    (device.writeRun first contents).1.sectors.size = device.sectors.size := by
  induction contents generalizing device first with
  | nil => rfl
  | cons content rest inductionHypothesis =>
      rw [writeRun]
      split
      · rename_i after refused
        rw [(write_refused refused).1]
      · rename_i after served
        rw [inductionHypothesis, (write_served served).2, Array.size_setIfInBounds]

end Device

namespace SwapSpace

variable {swap later : SwapSpace} {slot other sector sectorCount : Nat} {image : Image}

/-! ## Sectors of slots -/

/-- Whether a sector is one of those of a slot. -/
def Contains (slot sector : Nat) : Prop :=
  firstSector slot ≤ sector ∧ sector < firstSector slot + sectorsPerPage

theorem Contains.div_eq (contains : Contains slot sector) : sector / sectorsPerPage = slot := by
  obtain ⟨lower, upper⟩ := contains
  simp only [firstSector, sectorsPerPage, pageSize, sectorSize] at *
  omega

/-- No sector belongs to two slots. -/
theorem Contains.unique (contains : Contains slot sector) (containsToo : Contains other sector) :
    slot = other :=
  contains.div_eq.symm.trans containsToo.div_eq

/-- A slot lies on the device, before the sectors that make up no slot. -/
theorem Contains.lt (contains : Contains slot sector) (inside : slot < sectorCount / sectorsPerPage) :
    sector < sectorCount / sectorsPerPage * sectorsPerPage := by
  obtain ⟨_, upper⟩ := contains
  simp only [firstSector, sectorsPerPage, pageSize, sectorSize] at *
  omega

/-! ## What is issued -/

theorem transfersSince_eq
    {issued : List Transfer} (noted : later.device.transfers = issued ++ swap.device.transfers) :
    later.transfersSince swap = issued := by
  rw [transfersSince, noted, List.length_append, Nat.add_sub_cancel, List.take_left]

theorem store_issues (swap : SwapSpace) (slot : Nat) (image : Image) :
    (swap.store slot image).1.device.transfers =
        (swap.store slot image).1.transfersSince swap ++ swap.device.transfers ∧
      Issues .write (firstSector slot) sectorsPerPage (swap.store slot image).2
        ((swap.store slot image).1.transfersSince swap) := by
  obtain ⟨issued, noted, issues⟩ := swap.device.writeRun_issues (firstSector slot) image.sectors
  rw [Image.length_sectors] at issues
  have stored : (swap.store slot image).1.device.transfers = issued ++ swap.device.transfers := noted
  rw [transfersSince_eq stored]
  exact ⟨stored, issues⟩

theorem fetch_issues (swap : SwapSpace) (slot : Nat) (image : Image) :
    (swap.fetch slot image).1.device.transfers =
        (swap.fetch slot image).1.transfersSince swap ++ swap.device.transfers ∧
      Issues .read (firstSector slot) sectorsPerPage (swap.fetch slot image).2.2
        ((swap.fetch slot image).1.transfersSince swap) := by
  obtain ⟨issued, noted, issues⟩ := swap.device.readRun_issues (firstSector slot) sectorsPerPage
  have fetched : (swap.fetch slot image).1.device.transfers = issued ++ swap.device.transfers := noted
  rw [transfersSince_eq fetched]
  exact ⟨fetched, issues⟩

theorem sectorCount_store (swap : SwapSpace) (slot : Nat) (image : Image) :
    (swap.store slot image).1.device.sectorCount = swap.device.sectorCount :=
  swap.device.size_writeRun (firstSector slot) image.sectors

theorem sectorCount_fetch (swap : SwapSpace) (slot : Nat) (image : Image) :
    (swap.fetch slot image).1.device.sectorCount = swap.device.sectorCount :=
  congrArg Array.size (swap.device.sectors_readRun (firstSector slot) sectorsPerPage)

/-! ## What a slot keeps -/

/-- What may happen to a swap space without a store in some slot: stores in other slots and fetches, whether
they succeed or fail, slots that are reserved and released, and failures of the device that come and go. -/
inductive Spares (slot : Nat) (swap : SwapSpace) : SwapSpace → Prop
  | refl : Spares slot swap swap
  | stored {later : SwapSpace} {other : Nat} (spares : Spares slot swap later) (apart : other ≠ slot)
      (image : Image) : Spares slot swap (later.store other image).1
  | fetched {later : SwapSpace} (spares : Spares slot swap later) (other : Nat) (image : Image) :
      Spares slot swap (later.fetch other image).1
  | reserved {later reserved : SwapSpace} {other : Nat} (spares : Spares slot swap later)
      (taken : later.reserve? = some (other, reserved)) : Spares slot swap reserved
  | released {later : SwapSpace} (spares : Spares slot swap later) (other : Nat) :
      Spares slot swap (later.release other)
  | outside {later : SwapSpace} {device : Device} (spares : Spares slot swap later)
      (same : device.sectors = later.device.sectors) : Spares slot swap { later with device := device }

theorem Spares.slotImage (spares : Spares slot swap later) :
    later.slotImage slot = swap.slotImage slot := by
  induction spares with
  | refl => rfl
  | stored _ apart image inductionHypothesis =>
      rw [slotImage_store_of_ne _ image apart]
      exact inductionHypothesis
  | fetched _ other image inductionHypothesis =>
      rw [slotImage_fetch]
      exact inductionHypothesis
  | reserved _ taken inductionHypothesis =>
      rw [reserve?_eq] at taken
      obtain ⟨_, _, ⟨⟩⟩ := Option.map_eq_some_iff.mp taken
      exact inductionHypothesis
  | released _ other inductionHypothesis => exact inductionHypothesis
  | outside _ same inductionHypothesis => exact (slotImage_congr same slot).trans inductionHypothesis

/-- A page that was stored completely is what a complete fetch brings, whatever the frame held. -/
theorem fetch_of_store
    {last : SwapSpace} {old : Image} (stored : (swap.store slot image).2 = true)
    (spares : Spares slot (swap.store slot image).1 last)
    (fetched : (last.fetch slot old).2.2 = true) : (last.fetch slot old).2.1 = image := by
  rw [fetch_complete fetched, spares.slotImage, slotImage_store_self stored]

end SwapSpace

end DemandPaging
