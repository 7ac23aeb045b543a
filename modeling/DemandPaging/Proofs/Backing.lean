import DemandPaging.Proofs.FileChanges

/-!
# What stands behind a page

The store behind a page has one content for it. A page that is brought into a frame shows this content in
every byte, whatever the frame held before: where the store ends there are zeros. So the owner of a frame
leaves nothing behind that the next one could see.
-/

namespace DemandPaging

/-- The content that the store behind a page has for it: the bytes of its range of the file, as far as the
file has them, or its slot; zeros behind them, and where there is no store. -/
def PageKind.backing (kind : PageKind) (swap : SwapSpace) (files : FileTable) : Image :=
  match kind with
  | pending .zero | anonymous none => Image.zero
  | pending (.segment range) | pending (.mapped range) | file range =>
      Image.ofBytes ((files.content range.file).extract range.offset (range.offset + range.length))
  | anonymous (some slot) => swap.slotImage slot

/-! ## Fetching -/

/-- All sectors of a page are replaced by a fetch that is complete. -/
theorem SwapSpace.fetch_other
    {swap : SwapSpace} {slot : Nat} {image : Image} (complete : (swap.fetch slot image).2.2 = true)
    (other : Image) : swap.fetch slot other = swap.fetch slot image := by
  simp only [fetch, beq_iff_eq] at complete ⊢
  rw [Image.withSectors_eq_of_full other image (by simpa using complete)]

namespace PageKind

variable {kind after : PageKind} {swap : SwapSpace} {files : FileTable} {image : Image}

/-- A fetch that succeeds leaves the content of the store in the frame. -/
theorem fetch_image (complete : (kind.fetch swap files image).kind = some after) :
    (kind.fetch swap files image).image = kind.backing swap files := by
  have brings : (kind.fetch swap files image).Brings (kind.fetch swap files image).image :=
    ⟨rfl, by rw [complete]; rfl⟩
  rcases kind with (_ | range | range) | (_ | slot) | range
  · rw [fetch_zero]
    rfl
  · rcases result : files.readAt range.file range.offset range.length with ⟨read, _ | bytes⟩
    · simp [fetch, result] at complete
    · by_cases whole : bytes.size = range.length
      · rw [fetch_segment_of_read result whole, backing,
          FileTable.readAt_eq_some (congrArg Prod.snd result)]
      · simp [fetch, result, whole] at complete
  · exact image_fetch rfl brings
  · rw [fetch_anonymous_none]
    rfl
  · rcases @fetch_slot (.anonymous (some slot)) swap files image slot rfl with
      ⟨_, filled, _⟩ | ⟨_, incomplete⟩
    · exact filled
    · rw [incomplete] at complete
      cases complete
  · exact image_fetch rfl brings

/-- Whether a fetch succeeds, and what it leaves then, does not depend on what the frame held. -/
theorem fetch_other (complete : (kind.fetch swap files image).kind = some after) (other : Image) :
    kind.fetch swap files other = kind.fetch swap files image := by
  rcases kind with (_ | range | range) | (_ | slot) | range
  · rw [fetch_zero, fetch_zero]
  · rcases result : files.readAt range.file range.offset range.length with ⟨read, _ | bytes⟩
    · simp [fetch, result] at complete
    · by_cases whole : bytes.size = range.length
      · rw [fetch_segment_of_read result whole, fetch_segment_of_read result whole]
      · simp [fetch, result, whole] at complete
  · rcases result : files.readAt range.file range.offset range.length with ⟨read, _ | bytes⟩
    · simp [fetch, result] at complete
    · rw [fetch_mapped_of_read result, fetch_mapped_of_read result]
  · rw [fetch_anonymous_none, fetch_anonymous_none]
  · simp only [fetch] at complete ⊢
    split at complete
    · rename_i read
      rw [SwapSpace.fetch_other (by rw [read]) other, read]
    · cases complete
  · rcases result : files.readAt range.file range.offset range.length with ⟨read, _ | bytes⟩
    · simp [fetch, result] at complete
    · rw [fetch_file_of_read result, fetch_file_of_read result]

end PageKind

/-! ## Filling a frame -/

namespace FramePool

theorem setImage_setImage (pool : FramePool) (frame : Nat) (first second : Image) :
    (pool.setImage frame first).setImage frame second = pool.setImage frame second := by
  simp only [setImage, modify, FramePool.mk.injEq, and_true]
  apply Array.ext_getElem?
  intro index
  simp only [Array.getElem?_modify]
  split
  · rw [Option.map_map]
    rfl
  · rfl

end FramePool

namespace Pager

open PagerM

variable {pager after : Pager} {pid : Pid} {va frame : Nat} {page : Page} {kind : PageKind}

/-- What it takes to bring a page into its frame: the frame is one of the pool, the content of the page fits
and can be fetched, and a slot that is emptied by that is in use. -/
structure BringsIn (pager : Pager) (pid : Pid) (va : Nat) (page : Page) (frame : Nat) (kind : PageKind) :
    Prop where
  present : pager.page? pid va = some page
  resident : page.frame = some frame
  inside : frame < pager.frames.frameCount
  fits : page.kind.readLength ≤ pageSize
  complete : (page.kind.fetch pager.swap pager.files (pager.frames.image frame)).kind = some kind
  used : ∀ slot, page.kind.slot? = some slot →
    slot < pager.swap.slotCount ∧ pager.swap.used.get slot = true

/-- What is left when a page was brought into its frame. -/
def broughtIn (pager : Pager) (pid : Pid) (va : Nat) (page : Page) (frame : Nat) (kind : PageKind) : Pager :=
  (pager.putFetched ⟨pid, page.va⟩ page.kind frame
    (page.kind.fetch pager.swap pager.files (pager.frames.image frame))).becomeFetched pid va page.kind kind

theorem BringsIn.run (brings : pager.BringsIn pid va page frame kind) :
    bringIn pid va pager = .ok ⟨⟩ (pager.broughtIn pid va page frame kind) := by
  obtain ⟨present, resident, inside, fits, complete, used⟩ := brings
  apply Meets.run
  have emptied (ending : Ending Unit) :
      (checkEmptied page.kind (page.kind.fetch pager.swap pager.files (pager.frames.image frame))).Meets
        pager ending ↔ ending.answers ⟨⟩ pager := by
    unfold checkEmptied
    split
    · rename_i slot _ slotFound _
      exact meets_checkSlot (used slot slotFound).1 (used slot slotFound).2 ending
    · exact meets_pure ..
  simp only [bringIn, meets_bind, meets_get, present, resident, meets_frameImage inside,
    meets_checkRange 0 fits, emptied, meets_set, complete, meets_modify]
  exact ⟨trivial, rfl⟩

/-- A page that is emptied without a halt holds no slot, or one that is in use. -/
private theorem meets_checkEmptied_iff
    {fetched : Fetched} {answers : Unit → Pager → Prop} (complete : fetched.kind = some kind) :
    (checkEmptied page.kind fetched).Meets pager ⟨answers, fun _ _ => True, fun _ _ => True⟩ ↔
      ((∀ slot, page.kind.slot? = some slot →
        slot < pager.swap.slotCount ∧ pager.swap.used.get slot = true) → answers ⟨⟩ pager) := by
  unfold checkEmptied
  cases held : page.kind.slot? with
  | none => simp [meets_pure]
  | some slot =>
      simp only [complete, checkSlot, checkIndex, meets_bind, meets_get, Option.some.injEq, forall_eq']
      split
      · rename_i inside
        simp [meets_pure, meets_insist, SwapSpace.slotCount, inside]
      · rename_i outside
        simp [meets_halt, SwapSpace.slotCount, outside]

theorem exists_bringsIn (run : bringIn pid va pager = .ok ⟨⟩ after) :
    ∃ page frame kind, pager.BringsIn pid va page frame kind ∧
      after = pager.broughtIn pid va page frame kind := by
  have ends : (bringIn pid va).Meets pager ⟨fun _ after => ∃ page frame kind,
      pager.BringsIn pid va page frame kind ∧ after = pager.broughtIn pid va page frame kind,
      fun _ _ => True, fun _ _ => True⟩ := by
    simp only [bringIn, meets_bind, meets_get]
    cases present : pager.page? pid va with
    | none => exact trivial
    | some page =>
        dsimp only
        cases resident : page.frame with
        | none => exact trivial
        | some frame =>
            simp only [meets_bind, frameImage, checkBytes, checkRange, meets_get]
            split
            · rename_i bounded
              have inside : frame < pager.frames.frameCount := by
                refine Nat.lt_of_mul_lt_mul_right (a := pageSize) (Nat.lt_of_lt_of_le ?_ bounded)
                exact Nat.lt_add_of_pos_right (by decide)
              simp only [meets_pure]
              split
              · rename_i fits
                simp only [meets_pure]
                cases complete :
                    (page.kind.fetch pager.swap pager.files (pager.frames.image frame)).kind with
                | none =>
                    simp only [meets_set, meets_fail]
                    exact Meets.anyway _ _
                | some kind =>
                    rw [meets_checkEmptied_iff complete]
                    exact fun used =>
                      ⟨page, frame, kind, ⟨present, resident, inside, fits, complete, used⟩, rfl⟩
              · exact trivial
            · exact trivial
  exact ends.of_ok run

/-- The frame shows the content of the store. -/
theorem BringsIn.image (brings : pager.BringsIn pid va page frame kind) :
    (pager.broughtIn pid va page frame kind).frames.image frame =
      page.kind.backing pager.swap pager.files := by
  have filled : (pager.broughtIn pid va page frame kind).frames =
      pager.frames.setImage frame
        (page.kind.fetch pager.swap pager.files (pager.frames.image frame)).image := by
    unfold broughtIn becomeFetched putFetched noteTransfers noteLoad
    dsimp only
    split <;> split <;> rfl
  rw [filled, FramePool.image_setImage _ _ _ _ brings.inside, if_pos rfl, PageKind.fetch_image brings.complete]

theorem putFetched_setImage
    (pager : Pager) (owner : Owner) (kind : PageKind) (frame : Nat) (fetched : Fetched) (image : Image) :
    (pager.modifyFrames fun frames => frames.setImage frame image).putFetched owner kind frame fetched =
      pager.putFetched owner kind frame fetched := by
  simp only [putFetched, modifyFrames, FramePool.setImage_setImage]

/-- Nothing of what the frame held before is left. -/
theorem BringsIn.run_setImage (brings : pager.BringsIn pid va page frame kind) (image : Image) :
    bringIn pid va (pager.modifyFrames fun frames => frames.setImage frame image) =
      .ok ⟨⟩ (pager.broughtIn pid va page frame kind) := by
  obtain ⟨present, resident, inside, fits, complete, used⟩ := brings
  let filled := pager.modifyFrames fun frames => frames.setImage frame image
  have same := PageKind.fetch_other complete (filled.frames.image frame)
  have insideThen : frame < filled.frames.frameCount := by
    show frame < (pager.frames.modify frame _).frameCount
    rwa [FramePool.frameCount_modify]
  have brings : filled.BringsIn pid va page frame kind :=
    ⟨present, resident, insideThen, fits, by rw [← complete]; exact congrArg Fetched.kind same, used⟩
  have left : filled.broughtIn pid va page frame kind = pager.broughtIn pid va page frame kind := by
    rw [broughtIn, broughtIn, ← same]
    exact congrArg (becomeFetched · pid va page.kind kind) (pager.putFetched_setImage ..)
  rw [← left]
  exact brings.run

/-- Whatever a frame held before, a page that is brought into it leaves the same state, in which all bytes of
the frame are those that the store behind the page has for it. -/
theorem brought_in_page_shows_backing_only (run : bringIn pid va pager = .ok ⟨⟩ after) :
    ∃ page frame, pager.page? pid va = some page ∧ page.frame = some frame ∧
      after.frames.image frame = page.kind.backing pager.swap pager.files ∧
      ∀ image : Image, bringIn pid va
        (pager.modifyFrames fun frames => frames.setImage frame image) = .ok ⟨⟩ after := by
  obtain ⟨page, frame, kind, brings, rfl⟩ := exists_bringsIn run
  exact ⟨page, frame, brings.present, brings.resident, brings.image, brings.run_setImage⟩

/-- A frame full of ones from which the page of a file of two bytes was taken. -/
def soiledFrame : Option Pager :=
  ((create { frameCount := 1 } .fifo (Device.blank .memory 0) ⟨#[.create .memory #[65, 66]]⟩).play []
    [.createProcess 1, .map 1 4096 2 false 0 0, .readUser 1 4096 1]).map fun result =>
      result.2.modifyFrames fun frames => frames.setImage 0 (Vector.replicate pageSize 255)

/-- The page gets its two bytes back, and zeros where the ones were. -/
theorem brought_in_page_shows_backing_only_of_soiled_frame :
    ∃ pager after, soiledFrame = some pager ∧ (pager.frames.image 0)[2]? = some 255 ∧
      bringIn 1 4096 pager = .ok ⟨⟩ after ∧ after.frames.image 0 = Image.ofBytes #[65, 66] := by
  have ended : (soiledFrame.any fun pager =>
      decide ((pager.frames.image 0)[2]? = some 255) &&
        ((pager.page? 1 4096).any fun page =>
          decide (page.frame = some 0) && decide (page.kind = .file ⟨0, 0, 2⟩)) &&
        decide (pager.files.content 0 = #[65, 66]) &&
        match bringIn 1 4096 pager with
        | .ok _ _ => true
        | .error _ _ => false) = true := by
    decide +kernel
  obtain ⟨pager, soiled, ended⟩ := (Option.any_eq_true ..).mp ended
  simp only [Bool.and_eq_true, decide_eq_true_eq] at ended
  obtain ⟨⟨⟨ones, known⟩, content⟩, ran⟩ := ended
  obtain ⟨page, present, known⟩ := (Option.any_eq_true ..).mp known
  simp only [Bool.and_eq_true, decide_eq_true_eq] at known
  have backing : page.kind.backing pager.swap pager.files = Image.ofBytes #[65, 66] := by
    rw [known.2, PageKind.backing, content]
    rfl
  split at ran
  · rename_i after run
    obtain ⟨other, frame, presentToo, resident, shows, _⟩ := brought_in_page_shows_backing_only run
    cases present.symm.trans presentToo
    cases known.1.symm.trans resident
    exact ⟨pager, after, soiled, ones, run, shows.trans backing⟩
  · cases ran

end Pager

end DemandPaging
