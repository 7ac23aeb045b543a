import DemandPaging.Proofs.FileChanges

/-!
# Frames that are handed out

A turn hands out at most one frame: only a page that is claimed gets one, whether or not its content
can be read then. So every note of a frame that was handed out leads back to the moment at which it
was, a state between two turns.
-/

namespace DemandPaging

namespace Activity

/-- The frame that was handed out, if this is what happened. -/
def handed? : Activity → Option Nat
  | assigned _ frame _ => some frame
  | _ => none

/-- What stands behind new activities none of which handed out a frame, stood there before. -/
theorem suffix_of_unhanded
    {activity : Activity} {journal rest earlier : List Activity}
    (unhanded : journal.filterMap handed? = []) (hands : activity.handed? ≠ none)
    (stands : activity :: rest <:+ journal ++ earlier) : activity :: rest <:+ earlier := by
  induction journal with
  | nil => exact stands
  | cons latest journal inductionHypothesis =>
      rw [List.filterMap_eq_nil_iff] at unhanded
      have others : journal.filterMap handed? = [] :=
        List.filterMap_eq_nil_iff.mpr fun other member => unhanded other (List.mem_cons_of_mem _ member)
      rw [List.cons_append, List.suffix_cons_iff] at stands
      rcases stands with here | deeper
      · injection here with same _
        exact absurd (same ▸ unhanded latest List.mem_cons_self) hands
      · exact inductionHypothesis others deeper

end Activity

namespace Pager

variable {before middle moment held after saved : Pager} {deed : Deed} {allowed : Deed → Prop}
  {owner : Owner} {page : Page} {frame : Nat}

/-- The frames that were handed out so far, the latest first. -/
def handouts (pager : Pager) : List Nat :=
  pager.journal.filterMap Activity.handed?

theorem handouts_of_noted
    {journal : List Activity} (noted : after.journal = journal ++ before.journal) :
    after.handouts = journal.filterMap Activity.handed? ++ before.handouts := by
  rw [handouts, noted, List.filterMap_append]
  rfl

theorem unhanded_of_same
    {journal : List Activity} (noted : after.journal = journal ++ before.journal)
    (same : after.handouts = before.handouts) : journal.filterMap Activity.handed? = [] := by
  rw [handouts_of_noted noted] at same
  exact List.append_left_eq_self.mp same

/-! ## Moves that hand out nothing -/

theorem handouts_writeBack (pager : Pager) (owner : Owner) (range : FileRange) (frame : Nat) :
    (pager.writeBack owner range frame).handouts = pager.handouts := by
  unfold writeBack
  split <;> rfl

theorem Saves.handouts (saves : before.Saves owner page frame saved) :
    saved.handouts = before.handouts := by
  cases saves with
  | toSlot => rfl
  | toFile file => exact before.handouts_writeBack ..

theorem handouts_putFetched
    (pager : Pager) (owner : Owner) (kind : PageKind) (frame : Nat) (fetched : Fetched) :
    (pager.putFetched owner kind frame fetched).handouts = pager.handouts :=
  @keeps_putFetched _ owner Pager.handouts (fun _ _ _ _ => rfl) (fun _ _ _ _ => rfl) (fun _ _ _ => rfl)
    (fun _ _ _ => rfl) pager kind frame fetched

theorem Arrives.handouts (arrives : held.Arrives owner frame after) :
    after.handouts = held.handouts := by
  cases arrives with
  | intro => exact handouts_putFetched ..

theorem Returns.handouts (returns : held.Returns owner frame after) :
    after.handouts = held.handouts := by
  cases returns with
  | intro => exact handouts_putFetched ..

theorem handouts_discarded (pager : Pager) (owner : Owner) (page : Page) :
    (pager.discarded owner page).handouts = pager.handouts := by
  have saved (other : Pager) : (other.discardSaved owner page).handouts = other.handouts := by
    unfold discardSaved
    split
    · split
      · exact other.handouts_writeBack ..
      · rfl
    · rfl
  rw [handouts, discarded, journal_released]
  exact saved _

/-! ## Handing out a frame -/

/-- The frame is noted last, together with whether any was free. -/
theorem Acquires.hands (acquires : before.Acquires owner frame held) :
    ∃ (wasFree : Bool) (earlier : List Activity),
      held.journal = .assigned owner frame wasFree :: (earlier ++ before.journal) ∧
        earlier.filterMap Activity.handed? = [] ∧
        (wasFree = true ↔ before.frames.free ≠ []) := by
  cases acquires with
  | free taken =>
      refine ⟨true, [], rfl, rfl, iff_of_true rfl fun none => ?_⟩
      rw [FramePool.takeFree?, none] at taken
      cases taken
  | evicted full chosen present resident saves =>
      rename_i victim page saved
      obtain ⟨transfers, _, noted⟩ := saves.journal
      have quiet := unhanded_of_same noted saves.handouts
      refine ⟨false, .evicted victim page.kind
        ((before.selected.table victim.pid).isDirty victim.va) :: transfers, ?_, quiet,
          iff_of_false Bool.false_ne_true fun some => some full⟩
      rw [List.cons_append, ← before.journal_selected, ← noted]
      rfl

theorem Acquires.handouts (acquires : before.Acquires owner frame held) :
    held.handouts = frame :: before.handouts := by
  obtain ⟨wasFree, earlier, noted, quiet, _⟩ := acquires.hands
  rw [Pager.handouts, noted, List.filterMap_cons, List.filterMap_append, quiet]
  rfl

/-- What a turn hands out: nothing, or one frame to the page it is about. -/
inductive Hands (before after : Pager) : Prop
  | nothing (same : after.handouts = before.handouts)
  | frame {owner : Owner} {frame : Nat} {held : Pager} {later : List Activity}
      (acquires : before.Acquires owner frame held)
      (noted : after.journal = later ++ held.journal)
      (same : after.handouts = held.handouts) : Hands before after

theorem Turn.hands (turn : Turn deed before after) (sound : before.ledger.Sound none) :
    Hands before after := by
  cases turn with
  | discarded => exact .nothing (handouts_discarded ..)
  | claimed present absent acquires arrives =>
      obtain ⟨flying, presentThen⟩ := (acquires.moves sound).sound sound present absent
      obtain ⟨image, transfers, _, _, _, noted⟩ := arrives.moves flying presentThen
      rw [← List.append_assoc, ← List.cons_append] at noted
      exact .frame acquires noted arrives.handouts
  | missed present absent acquires returns =>
      obtain ⟨flying, presentThen⟩ := (acquires.moves sound).sound sound present absent
      obtain ⟨_, transfers, _, noted⟩ := returns.moves flying presentThen
      rw [← List.cons_append] at noted
      exact .frame acquires noted returns.handouts
  | _ => exact .nothing rfl

/-! ## The moment at which a frame was handed out -/

/-- A run in which a frame was handed out, at a moment between two turns. `rest` is what was noted until
then. -/
inductive HandsOut (allowed : Deed → Prop) (before after : Pager) (owner : Owner) (frame : Nat)
    (wasFree : Bool) (rest : List Activity) : Prop
  | at {moment held next : Pager} {deed : Deed} (begun : Runs allowed before moment)
      (acquires : moment.Acquires owner frame held)
      (noted : held.journal = .assigned owner frame wasFree :: rest) (permitted : allowed deed)
      (turn : Turn deed moment next) (goesOn : Runs allowed next after) :
      HandsOut allowed before after owner frame wasFree rest

/-- Every frame that is noted in a run to have been handed out was handed out in it. -/
theorem Runs.handsOut
    {wasFree : Bool} {rest : List Activity} (runs : Runs allowed before after)
    (sound : before.ledger.Sound none)
    (stands : .assigned owner frame wasFree :: rest <:+ after.journal)
    (new : before.journal <:+ rest) :
    HandsOut allowed before after owner frame wasFree rest := by
  have hands : (Activity.assigned owner frame wasFree).handed? ≠ none := nofun
  induction runs with
  | refl =>
      have longer := stands.length_le
      have shorter := new.length_le
      rw [List.length_cons] at longer
      omega
  | tail runs permitted turn inductionHypothesis =>
      rename_i middle after deed
      have soundThen := runs.sound sound
      have longAgo (earlier : .assigned owner frame wasFree :: rest <:+ middle.journal) :
          HandsOut allowed before after owner frame wasFree rest := by
        obtain ⟨begun, acquires, noted, allows, next, goesOn⟩ := inductionHypothesis earlier
        exact .at begun acquires noted allows next (.tail goesOn permitted turn)
      obtain ⟨latest, accounts⟩ := turn.accounts soundThen
      rcases turn.hands soundThen with same | ⟨acquires, noted, same⟩
      · rw [accounts.noted] at stands
        exact longAgo (Activity.suffix_of_unhanded (unhanded_of_same accounts.noted same) hands stands)
      · rename_i other otherFrame held later
        obtain ⟨otherFree, transfers, acquired, quiet, _⟩ := acquires.hands
        rw [noted] at stands
        have there := Activity.suffix_of_unhanded (unhanded_of_same noted same) hands stands
        rw [acquired, List.suffix_cons_iff] at there
        rcases there with here | earlier
        · rw [← here] at acquired
          injection here with sameNote sameRest
          cases sameNote
          exact .at runs acquires acquired permitted turn .refl
        · exact longAgo (Activity.suffix_of_unhanded quiet hands earlier)

/-- What halts a call last hands out no frame. -/
theorem Breaks.unhanded (breaks : before.Breaks after) :
    ∃ journal, after.journal = journal ++ before.journal ∧
      journal.filterMap Activity.handed? = [] := by
  rcases breaks.slots with ⟨noted, _⟩ | ⟨_, _, _, _, _, _, _, noted, _⟩
  · exact ⟨[], noted, rfl⟩
  · exact ⟨[_], noted, rfl⟩

/-- Whatever comes of a call, every frame that is noted in it to have been handed out was handed out in
a run of it. -/
theorem Orderly.handsOut
    {config : Config} {events : List Event} {wasFree : Bool} {rest : List Activity}
    (orderly : before.Orderly config events) (call : Call)
    (stands : .assigned owner frame wasFree :: rest <:+ (call.perform.leaves before).journal)
    (new : before.journal <:+ rest) :
    ∃ last, HandsOut (call.Permits before) before last owner frame wasFree rest := by
  obtain ⟨last, runs, breaks⟩ := orderly.runs_leaves call
  obtain ⟨journal, noted, unhanded⟩ := breaks.unhanded
  rw [noted] at stands
  exact ⟨last, runs.handsOut orderly.sound (Activity.suffix_of_unhanded unhanded nofun stands) new⟩

end Pager

end DemandPaging
