import DemandPaging.Proofs.CleanPages
import DemandPaging.Proofs.Fetching

/-!
# Failed claims can be repeated

A claim that cannot read its page leaves the page as it was and the frame that it took free; all that may have
happened besides is that another page was evicted. So the claim may be repeated: it brings what the store behind
the page has then, unless the page lacks something again.
-/

namespace DemandPaging

namespace Pager

/-! ## What is undone -/

/-- At most one page besides a given one gave up its frame, and no page was added or removed. -/
inductive GivesWay (before after : Pager) (owner : Owner) (frame : Nat) : Prop
  | nothing (same : after.pageOf = before.pageOf) : GivesWay before after owner frame
  | one {victim : Owner} {page new : Page} (apart : victim ≠ owner)
      (present : before.pageOf victim = some page) (resident : page.frame = some frame)
      (moved : after.pageOf = Function.update before.pageOf victim (some new)) (absent : new.frame = none)
      (continues : new.Continues page) : GivesWay before after owner frame

/-- What is left of a claim that took a frame for a page and could not read the page into it. -/
structure Undone (before after : Pager) (owner : Owner) (page : Page) (frame : Nat) : Prop where
  lacks : page.kind.Lacks before.files (after.swap.transfersSince before.swap)
  absent : page.frame = none
  present : before.pageOf owner = some page
  /-- The kind of the page, with its load or its slot, is what it was. -/
  unchanged : after.pageOf owner = some page
  untranslated : after.translationOf owner = none
  slot : ∀ slot, page.kind = .anonymous (some slot) →
    before.swap.used.get slot = true ∧ after.swap.used.get slot = true ∧
      after.swap.slotImage slot = before.swap.slotImage slot
  handles : after.files.handles = before.files.handles
  taken : ∃ noted wasFree, after.journal = noted ++ before.journal ∧ .assigned owner frame wasFree ∈ noted
  free : frame ∈ after.frames.free
  unowned : after.frames.owner? frame = none
  unpinned : after.frames.isPinned frame = false
  owners : ∀ other, other ≠ frame → after.frames.owner? other = before.frames.owner? other
  givesWay : GivesWay before after owner frame
  content : after.ledger.content = before.ledger.content

end Pager

namespace Ledger

variable {ledger held after : Ledger} {owner : Owner} {frame : Nat}

theorem Acquires.owners (acquires : ledger.Acquires owner frame held) :
    held.owners = Function.update ledger.owners frame (some owner) := by
  cases acquires with
  | free first => rfl
  | evicted full present resident unpinned tracks unloads =>
      rw [← unloads.owners]
      rfl

/-- Handing out a frame moves the page that gives it up, if it is taken from one. -/
theorem Acquires.moved (acquires : ledger.Acquires owner frame held) :
    held.pages = ledger.pages ∨ ∃ victim page new, ledger.pages victim = some page ∧
      page.frame = some frame ∧ held.pages = Function.update ledger.pages victim (some new) ∧
        new.frame = none ∧ new.Continues page := by
  cases acquires with
  | free first => exact Or.inl rfl
  | evicted full present resident unpinned tracks unloads =>
      rename_i victim page unloaded policy
      obtain ⟨new, presentThen, absent, continues⟩ := unloads.continues
      refine Or.inr ⟨victim, page, new, present, resident, ?_, absent, continues⟩
      funext other
      by_cases here : other = victim
      · rw [here, Function.update_self]
        exact presentThen
      · rw [Function.update_of_ne here]
        exact unloads.pages_of_ne here

theorem Returns.eq_release (returns : held.Returns frame after) :
    ∃ image, after = (held.setImage frame image).release frame := by
  cases returns
  exact ⟨_, rfl⟩

end Ledger

namespace Pager

open PagerM

variable {before held after later last : Pager} {owner : Owner} {page : Page} {frame : Nat}

/-- A claim that missed its page is undone. -/
theorem Turn.undone (turn : Turn (.missed owner) before after) (sound : before.ledger.Sound none) :
    ∃ page frame, before.Undone after owner page frame := by
  obtain ⟨page, present, absent, lacks⟩ := turn.lacks sound
  have soundThen := turn.sound sound
  have content (other : Owner) : after.ledger.content other = before.ledger.content other :=
    (turn.step sound).content_untouched sound (by simp [Deed.Touches, Deed.Alters])
  cases turn with
  | missed presentToo absent acquires returns =>
      rename_i held _ frame
      cases present.symm.trans presentToo
      have moves := acquires.moves sound
      obtain ⟨flying, presentHeld⟩ := moves.sound sound present absent
      obtain ⟨gaveBack, transfers, _, noted⟩ := returns.moves flying presentHeld
      obtain ⟨wasFree, earlier, _, assigned⟩ := acquires.assigned
      obtain ⟨_, rfl, incomplete, _, files⟩ := returns.fetches presentHeld
      obtain ⟨image, left⟩ := gaveBack.eq_release
      have presentThen : after.ledger.pages owner = some page := gaveBack.pages ▸ presentHeld
      have unfilled (other : Nat) (apart : other ≠ frame) :
          after.ledger.owners other = before.ledger.owners other := by
        rw [left]
        show Function.update held.ledger.owners frame none other = _
        rw [moves.owners, Function.update_idem, Function.update_of_ne apart]
      have pages : after.ledger.pages = held.ledger.pages := gaveBack.pages
      refine ⟨page, frame, {
        lacks := lacks
        absent := absent
        present := present
        unchanged := presentThen
        untranslated := soundThen.untranslated presentThen absent
        slot := fun slot anonymous => ?_
        handles := by
          rw [files, PageKind.handles_fetch_of_incomplete incomplete, acquires.handles]
        taken := ⟨.fetched owner page.kind false :: (transfers ++ .assigned owner frame wasFree :: earlier),
          wasFree, by simp [noted, assigned], by simp⟩
        free := by
          show frame ∈ after.ledger.free
          rw [left]
          exact List.mem_cons_self
        unowned := by
          show after.ledger.owners frame = none
          rw [left]
          exact Function.update_self ..
        unpinned := by
          show after.ledger.pinned frame = false
          rw [left]
          exact Function.update_self ..
        owners := unfilled
        givesWay := ?_
        content := funext content }⟩
      · have used := (sound.slots.slot_of_page owner page slot present anonymous).1
        refine ⟨used, (soundThen.slots.slot_of_page owner page slot presentThen anonymous).1, ?_⟩
        show after.ledger.slotImages slot = before.ledger.slotImages slot
        rw [← moves.slotImages used, left]
        rfl
      · rcases moves.moved with same | ⟨victim, old, new, presentOld, resident, moved, absentNew, continues⟩
        · exact .nothing (pages.trans same)
        · refine .one ?_ presentOld resident (pages.trans moved) absentNew continues
          rintro rfl
          cases present.symm.trans presentOld
          cases absent.symm.trans resident

end Pager

/-! ## Repeating a claim -/

section Laws

open PagerM Pager

variable {config : Config} {kind : PolicyKind} {device : Device} {files : FileTable}
  {events : List Event} {before after : Pager} {pid : Pid} {va address : Nat}

/-- A claim that fails to read its page is undone but for the page that was evicted for it, and may be repeated
at any time: it brings what the store behind the page has then, unless the page lacks something again or
memory is exhausted, which it is not as long as a frame is free. -/
theorem failed_claim_can_be_repeated
    (history : History config kind device files events before)
    (run : (Call.claim pid va).perform before = .error (.failed (.io address)) after) :
    (∃ page frame, address = page.va ∧ before.Undone after ⟨pid, pageBase va⟩ page frame) ∧
      ∀ later page, GoesOn (fun _ _ => True) after later →
        later.pageOf ⟨pid, pageBase va⟩ = some page → page.frame = none →
          (∃ frame last, (Call.claim pid va).perform later = .ok .done last ∧
            later.Brought last ⟨pid, pageBase va⟩ page frame) ∨
          (∃ last, (Call.claim pid va).perform later = .error (.failed (.io address)) last ∧
            page.kind.Lacks later.files (last.swap.transfersSince later.swap)) ∨
          ∃ halt last, (Call.claim pid va).perform later = .error (.halted halt) last ∧
            later.frames.free = [] ∧ last.Exhausted config.frameCount halt := by
  have orderly := history.orderly
  have fails := (ends_call_claim (orderly.unpinned.ready orderly.sound) pid va).of_failed run
  cases fails with
  | missed turn =>
      obtain ⟨page, frame, undone⟩ := turn.undone orderly.sound
      have here := (orderly.sound.placed _ page undone.present).va
      refine ⟨⟨page, frame, here.symm, undone⟩, fun later page goesOn present absent => ?_⟩
      obtain ⟨_, continued⟩ := orderly.ran (attempt_of_failed run)
      obtain ⟨_, orderlyLater⟩ := goesOn.orderly continued
      have sound := orderlyLater.sound
      rcases (ends_call_claim (orderlyLater.unpinned.ready sound) pid va).outcome with
        ⟨_, last, again, rfl, claimed⟩ | ⟨error, last, again, fails⟩ | ⟨halt, last, again, full, exhausted⟩
      · obtain ⟨frame, brought⟩ := claimed.brings sound present absent
        exact Or.inl ⟨frame, last, again, brought⟩
      · obtain ⟨rfl, lacks⟩ := fails.lacks sound present
        exact Or.inr (Or.inl ⟨last, again, lacks⟩)
      · rw [orderlyLater.config] at exhausted
        exact Or.inr (Or.inr ⟨halt, last, again, full, exhausted⟩)

/-- A device of two slots that fails once, at the third sector that is read after two pages were stored. -/
def flakyDevice : Device :=
  { Device.blank .memory 16 with gate := { admits := fun call => call != 18 } }

/-- The first page cannot be fetched although the second one was evicted for it; when it is claimed again it has
what was stored in its slot before. -/
theorem failed_claim_can_be_repeated_of_flaky_device :
    ∃ before after last lost frame, (Call.claim 1 4096).perform before = .error (.failed (.io 4096)) after ∧
      before.Undone after ⟨1, 4096⟩ { va := 4096, writable := true, kind := .anonymous (some 0) } lost ∧
        (Call.claim 1 4096).perform after = .ok .done last ∧
          last.translationOf ⟨1, 4096⟩ = some ⟨frameBase frame, true⟩ ∧
            last.frames.image frame = before.swap.slotImage 0 := by
  have ended : (((Pager.create { frameCount := 1 } .fifo flakyDevice ⟨#[]⟩).play []
      (twoPages ++ [.writeUser 1 8192 #[8]])).any fun result =>
        decide (result.2.pageOf ⟨1, 4096⟩ =
          some { va := 4096, writable := true, kind := .anonymous (some 0) }) &&
        result.2.comesTo (.claim 1 4096) fun outcome after =>
          decide (outcome = .error (.io 4096)) &&
            after.comesTo (.claim 1 4096) fun again _ => decide (again = .ok .done)) = true := by
    decide +kernel
  obtain ⟨⟨events, before⟩, played, ended⟩ := (Option.any_eq_true ..).mp ended
  simp only [Bool.and_eq_true, decide_eq_true_eq] at ended
  obtain ⟨known, comes⟩ := ended
  obtain ⟨outcome, after, attempted, ended⟩ := exists_run_of_comesTo comes
  simp only [Bool.and_eq_true, decide_eq_true_eq] at ended
  obtain ⟨rfl, comesAgain⟩ := ended
  obtain ⟨outcome, last, attemptedAgain, answered⟩ := exists_run_of_comesTo comesAgain
  cases of_decide_eq_true answered
  have run := failed_of_attempt attempted
  have again := ok_of_attempt attemptedAgain
  obtain ⟨⟨page, lost, _, undone⟩, repeats⟩ := failed_claim_can_be_repeated (History.start.play played) run
  cases known.symm.trans undone.present
  rcases repeats after _ .start undone.unchanged undone.absent with
    ⟨frame, _, answered, brought⟩ | ⟨_, failed, _⟩ | ⟨_, _, halted, _⟩
  · cases again.symm.trans answered
    refine ⟨before, after, last, lost, frame, run, undone, again, brought.translated, ?_⟩
    exact brought.image.trans (undone.slot 0 rfl).2.2
  · cases again.symm.trans failed
  · cases again.symm.trans halted

end Laws

end DemandPaging
