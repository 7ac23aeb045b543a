import DemandPaging.Proofs.Bitmap
import DemandPaging.Proofs.Ledger

/-!
# Frames and slots in the ledger

The operations of the frame pool and of the swap space as changes of the ledger.
-/

namespace DemandPaging

/-! ## Changes of frames -/

namespace FramePool

/-- What a frame shows of itself. -/
def shown {α : Type} (pool : FramePool) (view : Frame → α) (missing : α) (frame : Nat) : α :=
  match pool.frames[frame]? with
  | some entry => view entry
  | none => missing

theorem shown_modify
    {α : Type} (pool : FramePool) (view : Frame → α) (missing : α) {frame : Nat}
    (inside : frame < pool.frames.size) (change : Frame → Frame) :
    (pool.modify frame change).shown view missing =
      Function.update (pool.shown view missing) frame (view (change pool.frames[frame])) := by
  funext other
  simp only [shown, getElem?_modify]
  by_cases same : other = frame
  · subst same
    rw [Function.update_self, if_pos rfl, Array.getElem?_eq_getElem inside, Option.map_some]
  · rw [Function.update_of_ne same, if_neg (Ne.symm same)]
    rfl

theorem shown_eq
    {α : Type} (pool : FramePool) (view : Frame → α) (missing : α) {frame : Nat}
    (inside : frame < pool.frames.size) :
    pool.shown view missing frame = view pool.frames[frame] := by
  rw [shown, Array.getElem?_eq_getElem inside]

end FramePool

namespace Pager

section Frames

variable {pager : Pager} {frame : Nat}

/-- A change of a frame shows in the ledger only at that frame. -/
theorem ledger_modifyFrame
    (inside : frame < pager.frames.frameCount) (change : Frame → Frame) :
    (pager.modifyFrames fun frames => frames.modify frame change).ledger =
      { pager.ledger with
        owners :=
          Function.update pager.ledger.owners frame (change pager.frames.frames[frame]).owner
        pinned :=
          Function.update pager.ledger.pinned frame (change pager.frames.frames[frame]).pinned
        images :=
          Function.update pager.ledger.images frame
            (change pager.frames.frames[frame]).image } := by
  have owners : (pager.frames.modify frame change).owner? = Function.update pager.frames.owner?
      frame (change pager.frames.frames[frame]).owner :=
    pager.frames.shown_modify Frame.owner none inside change
  have pinned : (pager.frames.modify frame change).isPinned =
      Function.update pager.frames.isPinned frame (change pager.frames.frames[frame]).pinned :=
    pager.frames.shown_modify Frame.pinned false inside change
  have images : (pager.frames.modify frame change).image = Function.update pager.frames.image
      frame (change pager.frames.frames[frame]).image :=
    pager.frames.shown_modify Frame.image Image.zero inside change
  have counted := pager.frames.frameCount_modify frame change
  simp only [ledger, modifyFrames, owners, pinned, images, counted]
  rfl

theorem owner_eq (inside : frame < pager.frames.frameCount) :
    pager.frames.frames[frame].owner = pager.ledger.owners frame :=
  (pager.frames.shown_eq Frame.owner none inside).symm

theorem pinned_eq (inside : frame < pager.frames.frameCount) :
    pager.frames.frames[frame].pinned = pager.ledger.pinned frame :=
  (pager.frames.shown_eq Frame.pinned false inside).symm

theorem image_eq (inside : frame < pager.frames.frameCount) :
    pager.frames.frames[frame].image = pager.ledger.images frame :=
  (pager.frames.shown_eq Frame.image Image.zero inside).symm

theorem ledger_pin (inside : frame < pager.frames.frameCount) :
    (pager.modifyFrames fun frames => frames.pin frame).ledger =
      pager.ledger.setPinned frame true := by
  simp only [FramePool.pin, ledger_modifyFrame inside, owner_eq inside, image_eq inside,
    Function.update_eq_self]
  rfl

theorem ledger_unpin (inside : frame < pager.frames.frameCount) :
    (pager.modifyFrames fun frames => frames.unpin frame).ledger =
      pager.ledger.setPinned frame false := by
  simp only [FramePool.unpin, ledger_modifyFrame inside, owner_eq inside, image_eq inside,
    Function.update_eq_self]
  rfl

theorem ledger_setImage (inside : frame < pager.frames.frameCount) (image : Image) :
    (pager.modifyFrames fun frames => frames.setImage frame image).ledger =
      pager.ledger.setImage frame image := by
  simp only [FramePool.setImage, ledger_modifyFrame inside, owner_eq inside, pinned_eq inside,
    Function.update_eq_self]
  rfl

theorem ledger_store {address : Nat} (inside : address / pageSize < pager.frames.frameCount)
    (bytes : Array UInt8) :
    (pager.modifyFrames fun frames => frames.store address bytes).ledger =
      pager.ledger.setImage (address / pageSize)
        ((pager.ledger.images (address / pageSize)).overlay (address % pageSize) bytes) := by
  simp only [FramePool.store, ledger_modifyFrame inside, owner_eq inside, pinned_eq inside,
    image_eq inside, Function.update_eq_self]
  rfl

theorem ledger_assign (inside : frame < pager.frames.frameCount) (owner : Owner) :
    (pager.modifyFrames fun frames => frames.assign frame owner).ledger =
      pager.ledger.assign frame owner := by
  have changed := ledger_modifyFrame inside fun entry =>
    { entry with owner := some owner, pinned := true }
  simp only [image_eq inside, Function.update_eq_self] at changed
  have told : (pager.modifyFrames fun frames => frames.assign frame owner).ledger =
      { (pager.modifyFrames fun frames => frames.modify frame fun entry =>
          { entry with owner := some owner, pinned := true }).ledger with
        policy := pager.frames.policy.acquired frame } := rfl
  rw [told, changed]
  rfl

theorem ledger_release (inside : frame < pager.frames.frameCount) :
    (pager.modifyFrames fun frames => frames.release frame).ledger =
      pager.ledger.release frame := by
  have changed := ledger_modifyFrame inside fun entry =>
    { entry with owner := none, pinned := false }
  simp only [image_eq inside, Function.update_eq_self] at changed
  have told : (pager.modifyFrames fun frames => frames.release frame).ledger =
      { (pager.modifyFrames fun frames => frames.modify frame fun entry =>
          { entry with owner := none, pinned := false }).ledger with
        policy := pager.frames.policy.released frame
        free := frame :: pager.frames.free } := rfl
  rw [told, changed]
  rfl

/-- Handing out a free frame takes it from the free frames. -/
theorem ledger_takeFree
    {frames : FramePool} {owner : Owner}
    (taken : pager.frames.takeFree? owner = some (frame, frames)) :
    ∃ rest, pager.ledger.free = frame :: rest ∧
      (frame < pager.frames.frameCount →
        { pager with frames := frames }.ledger =
          { pager.ledger with free := rest }.assign frame owner) := by
  unfold FramePool.takeFree? at taken
  split at taken
  · cases taken
  · rename_i rest found
    cases taken
    refine ⟨rest, found, fun inside => ?_⟩
    exact @ledger_assign { pager with frames := { pager.frames with free := rest } } frame
      inside owner

theorem takeFree?_eq_none {owner : Owner} (missing : pager.frames.takeFree? owner = none) :
    pager.ledger.free = [] := by
  unfold FramePool.takeFree? at missing
  split at missing
  · assumption
  · cases missing

end Frames

end Pager

/-! ## Changes of slots -/

namespace Bitmap

theorem get_insert_eq_update (bitmap : Bitmap) {index : Nat} (inside : index < bitmap.size) :
    (bitmap.insert index).get = Function.update bitmap.get index true := by
  funext other
  rw [get_insert _ _ inside, Function.update_apply]
  by_cases same : other = index
  · simp [same]
  · simp [same, Ne.symm same]

theorem get_erase_eq_update (bitmap : Bitmap) {index : Nat} (inside : index < bitmap.size) :
    (bitmap.erase index).get = Function.update bitmap.get index false := by
  funext other
  rw [get_erase _ _ inside, Function.update_apply]
  by_cases same : other = index
  · simp [same]
  · simp [same, Ne.symm same]

end Bitmap

namespace Pager

section Slots

variable {pager : Pager} {slot : Nat}

theorem ledger_releaseSlot (inside : slot < pager.swap.slotCount) :
    (pager.releaseSlot slot).ledger = pager.ledger.setUsed slot false := by
  have used := pager.swap.used.get_erase_eq_update inside
  simp only [ledger, releaseSlot, SwapSpace.release, Bitmap.put, Bool.false_eq_true, if_false, used]
  rfl

/-- A reserved slot was free. -/
theorem reserve?_eq_some
    {swap reserved : SwapSpace} (taken : swap.reserve? = some (slot, reserved)) :
    slot < swap.slotCount ∧ swap.used.get slot = false ∧
      reserved = { swap with used := swap.used.insert slot } := by
  rw [SwapSpace.reserve?_eq] at taken
  obtain ⟨_, found, ⟨⟩⟩ := Option.map_eq_some_iff.mp taken
  obtain ⟨inside, clear⟩ := Bitmap.firstClear?_eq_some found
  exact ⟨inside, clear, rfl⟩

theorem reserve?_eq_none
    {swap : SwapSpace} (missing : swap.reserve? = none) {slot : Nat}
    (inside : slot < swap.slotCount) :
    swap.used.get slot = true := by
  rw [SwapSpace.reserve?_eq, Option.map_eq_none_iff] at missing
  exact Bitmap.firstClear?_eq_none missing inside

/-- A page that is stored completely takes a slot. -/
theorem ledger_store_slot
    {reserved : SwapSpace} {image : Image}
    (taken : pager.swap.reserve? = some (slot, reserved))
    (complete : (reserved.store slot image).2 = true) :
    { pager with swap := (reserved.store slot image).1 }.ledger =
      (pager.ledger.setUsed slot true).setSlotImage slot image := by
  obtain ⟨inside, _, rfl⟩ := reserve?_eq_some taken
  have used := pager.swap.used.get_insert_eq_update inside
  have stored := SwapSpace.slotImage_store_self complete
  have images : (SwapSpace.store { pager.swap with used := pager.swap.used.insert slot }
      slot image).1.slotImage = Function.update pager.swap.slotImage slot image := by
    funext other
    by_cases same : other = slot
    · rw [same, Function.update_self, stored]
    · rw [Function.update_of_ne same, SwapSpace.slotImage_store_of_ne _ _ (Ne.symm same)]
      rfl
  simp only [ledger, images, SwapSpace.used_store, used]
  rfl

end Slots

end Pager

end DemandPaging
