import DemandPaging.Eviction.Policy

/-!
# The replacement policies find a victim

A policy chooses only frames that may be chosen. Second chance finds one within two rounds whenever
there is one: a frame that is passed over for its accessed bit has lost the bit when the hand comes
back. First in first out finds one because its queue holds the frames in use.
-/

namespace DemandPaging

namespace Candidates

theorem size_setAccessed (candidates : Candidates) (frame : Nat) (on : Bool) :
    (candidates.setAccessed frame on).size = candidates.size := by
  rw [setAccessed, Array.size_modify]

theorem evictable_setAccessed (candidates : Candidates) (frame other : Nat) (on : Bool) :
    (candidates.setAccessed frame on).evictable other = candidates.evictable other := by
  simp only [evictable, setAccessed, Array.getElem?_modify]
  by_cases same : frame = other
  · subst same
    cases candidates[frame]? <;> simp
  · simp [same]

theorem accessed_clear_self (candidates : Candidates) (frame : Nat) :
    (candidates.setAccessed frame false).accessed frame = false := by
  simp only [accessed, setAccessed, Array.getElem?_modify]
  cases candidates[frame]? <;> simp

theorem accessed_of_clear (candidates : Candidates) {frame other : Nat}
    (accessed : (candidates.setAccessed frame false).accessed other = true) :
    candidates.accessed other = true := by
  simp only [Candidates.accessed, setAccessed, Array.getElem?_modify] at accessed ⊢
  by_cases same : frame = other
  · subst same
    cases found : candidates[frame]? <;> simp [found] at accessed
  · simpa [same] using accessed

theorem lt_size_of_evictable {candidates : Candidates} {frame : Nat}
    (evictable : candidates.evictable frame = true) :
    frame < candidates.size := by
  rcases Nat.lt_or_ge frame candidates.size with inside | outside
  · exact inside
  · simp [Candidates.evictable, Array.getElem?_eq_none outside] at evictable

end Candidates

/-! ## Second chance -/

namespace Clock

/-- What is left of the candidates when the hand passes a frame without choosing it: only the accessed
bit of that frame may be gone, and a frame that may be chosen had the bit and lost it. -/
structure Passes (candidates : Candidates) (frame : Nat) (left : Candidates) : Prop where
  size : left.size = candidates.size
  evictable : ∀ other, left.evictable other = candidates.evictable other
  accessed : ∀ other, left.accessed other = true → candidates.accessed other = true
  spared :
    candidates.evictable frame = true →
      candidates.accessed frame = true ∧ left.accessed frame = false

/-- Either the hand stops at its frame or passes it. -/
theorem sweep_succ
    (clock : Clock) (candidates : Candidates) (rounds : Nat) :
    (candidates.evictable (clock.hand % candidates.size) = true ∧
      clock.sweep candidates (rounds + 1) =
        (some (clock.hand % candidates.size), candidates, clock.advance candidates.size)) ∨
    ∃ left, Passes candidates (clock.hand % candidates.size) left ∧
      clock.sweep candidates (rounds + 1) =
        (clock.advance candidates.size).sweep left rounds := by
  by_cases evictable : candidates.evictable (clock.hand % candidates.size) = true
  · by_cases accessed : candidates.accessed (clock.hand % candidates.size) = true
    · refine Or.inr ⟨candidates.setAccessed (clock.hand % candidates.size) false, ?_, ?_⟩
      · constructor
        · exact candidates.size_setAccessed _ _
        · exact fun other => candidates.evictable_setAccessed _ other _
        · exact fun other kept => candidates.accessed_of_clear kept
        · exact fun _ => ⟨accessed, candidates.accessed_clear_self _⟩
      · simp only [sweep, if_pos evictable, if_pos accessed]
    · refine Or.inl ⟨evictable, ?_⟩
      simp only [sweep, if_pos evictable, if_neg accessed]
  · refine Or.inr ⟨candidates, ?_, ?_⟩
    · exact ⟨rfl, fun _ => rfl, fun _ kept => kept, fun chosen => absurd chosen evictable⟩
    · simp only [sweep, if_neg evictable]

theorem sweep_evictable
    (rounds : Nat) (clock : Clock) (candidates : Candidates) {victim : Nat}
    (chosen : (clock.sweep candidates rounds).1 = some victim) :
    candidates.evictable victim = true := by
  induction rounds generalizing clock candidates with
  | zero => cases chosen
  | succ rounds inductionHypothesis =>
      rcases sweep_succ clock candidates rounds with ⟨evictable, stops⟩ | ⟨left, passes, moves⟩
      · rw [stops] at chosen
        cases chosen
        exact evictable
      · rw [moves] at chosen
        rw [← passes.evictable]
        exact inductionHypothesis _ _ chosen

/-- The hand changes neither the number of candidates nor which of them may be chosen, and it only
takes accessed bits away. -/
theorem sweep_keeps (rounds : Nat) (clock : Clock) (candidates : Candidates) :
    (clock.sweep candidates rounds).2.1.size = candidates.size ∧
      (∀ frame, (clock.sweep candidates rounds).2.1.evictable frame =
        candidates.evictable frame) ∧
      ∀ frame, (clock.sweep candidates rounds).2.1.accessed frame = true →
        candidates.accessed frame = true := by
  induction rounds generalizing clock candidates with
  | zero => exact ⟨rfl, fun _ => rfl, fun _ kept => kept⟩
  | succ rounds inductionHypothesis =>
      rcases sweep_succ clock candidates rounds with ⟨_, stops⟩ | ⟨left, passes, moves⟩
      · rw [stops]
        exact ⟨rfl, fun _ => rfl, fun _ kept => kept⟩
      · rw [moves]
        obtain ⟨size, evictable, accessed⟩ :=
          inductionHypothesis (clock.advance candidates.size) left
        refine ⟨size.trans passes.size, ?_, ?_⟩
        · exact fun frame => (evictable frame).trans (passes.evictable frame)
        · exact fun frame kept => passes.accessed frame (accessed frame kept)

/-- A hand that passes a frame that may be chosen found its accessed bit and took it away. -/
theorem sweep_passes
    (rounds : Nat) (clock : Clock) (candidates : Candidates) {frame step : Nat}
    (unchosen : (clock.sweep candidates rounds).1 = none)
    (within : step < rounds) (visited : (clock.hand + step) % candidates.size = frame)
    (evictable : candidates.evictable frame = true) :
    candidates.accessed frame = true ∧
      (clock.sweep candidates rounds).2.1.accessed frame = false := by
  induction rounds generalizing clock candidates step with
  | zero => exact absurd within (Nat.not_lt_zero step)
  | succ rounds inductionHypothesis =>
      rcases sweep_succ clock candidates rounds with ⟨_, stops⟩ | ⟨left, passes, moves⟩
      · rw [stops] at unchosen
        cases unchosen
      · rw [moves] at unchosen ⊢
        cases step with
        | zero =>
            rw [Nat.add_zero] at visited
            rw [visited] at passes
            obtain ⟨accessed, taken⟩ := passes.spared evictable
            refine ⟨accessed, ?_⟩
            cases kept : ((clock.advance candidates.size).sweep left rounds).2.1.accessed frame with
            | false => rfl
            | true => rw [← taken, (sweep_keeps _ _ _).2.2 frame kept]
        | succ step =>
            have next : ((clock.advance candidates.size).hand + step) % left.size = frame := by
              rw [← visited, passes.size, advance, Nat.mod_add_mod]
              congr 1
              omega
            rw [← passes.evictable] at evictable
            obtain ⟨accessed, taken⟩ :=
              inductionHypothesis _ _ unchosen (Nat.lt_of_succ_lt_succ within) next evictable
            exact ⟨passes.accessed frame accessed, taken⟩

theorem sweep_add
    (first second : Nat) (clock : Clock) (candidates : Candidates)
    (unchosen : (clock.sweep candidates (first + second)).1 = none) :
    (clock.sweep candidates first).1 = none ∧
      ((clock.sweep candidates first).2.2.sweep (clock.sweep candidates first).2.1 second).1 =
        none := by
  induction first generalizing clock candidates with
  | zero =>
      rw [Nat.zero_add] at unchosen
      exact ⟨rfl, unchosen⟩
  | succ first inductionHypothesis =>
      rw [Nat.succ_add] at unchosen
      simp only [sweep] at unchosen ⊢
      by_cases evictable : candidates.evictable (clock.hand % candidates.size) = true
      · by_cases accessed : candidates.accessed (clock.hand % candidates.size) = true
        · simp only [if_pos evictable, if_pos accessed] at unchosen ⊢
          exact inductionHypothesis _ _ unchosen
        · simp only [if_pos evictable, if_neg accessed] at unchosen
          cases unchosen
      · simp only [if_neg evictable] at unchosen ⊢
        exact inductionHypothesis _ _ unchosen

/-- One round visits every frame. -/
theorem exists_visit (hand : Nat) {frame size : Nat} (inside : frame < size) :
    ∃ step, step < size ∧ (hand + step) % size = frame := by
  have positive : 0 < size := Nat.zero_lt_of_lt inside
  have bound := Nat.mod_lt hand positive
  rcases Nat.lt_or_ge frame (hand % size) with behind | ahead
  · refine ⟨frame + size - hand % size, by omega, ?_⟩
    rw [← Nat.mod_add_mod, Nat.add_sub_cancel' (by omega), Nat.add_mod_right,
      Nat.mod_eq_of_lt inside]
  · refine ⟨frame - hand % size, by omega, ?_⟩
    rw [← Nat.mod_add_mod, Nat.add_sub_cancel' ahead, Nat.mod_eq_of_lt inside]

/-- If any frame may be chosen, two rounds find a victim: a frame that both rounds passed would have
had its accessed bit in the second round although the first took it away. -/
theorem select_finds
    (clock : Clock) {candidates : Candidates} {frame : Nat}
    (evictable : candidates.evictable frame = true) :
    ∃ victim, (clock.select candidates).1 = some victim := by
  rw [← Option.ne_none_iff_exists']
  intro unchosen
  rw [select, Nat.two_mul] at unchosen
  obtain ⟨firstRound, secondRound⟩ := sweep_add _ _ _ _ unchosen
  have inside := Candidates.lt_size_of_evictable evictable
  obtain ⟨size, sameEvictable, _⟩ := sweep_keeps candidates.size clock candidates
  obtain ⟨step, within, visited⟩ := exists_visit clock.hand inside
  obtain ⟨again, withinAgain, visitedAgain⟩ :=
    exists_visit (clock.sweep candidates candidates.size).2.2.hand inside
  have cleared := (sweep_passes _ _ _ firstRound within visited evictable).2
  rw [← sameEvictable] at evictable
  have accessed :=
    (sweep_passes _ _ _ secondRound withinAgain (by rw [size]; exact visitedAgain) evictable).1
  rw [cleared] at accessed
  cases accessed

end Clock

/-! ## First in, first out -/

namespace Fifo

theorem select_evictable
    {fifo : Fifo} {candidates : Candidates} {victim : Nat}
    (chosen : (fifo.select candidates).1 = some victim) :
    candidates.evictable victim = true ∧ victim ∈ fifo.queue ∧
      (fifo.select candidates).2 = ⟨fifo.queue.erase victim⟩ := by
  unfold select at chosen ⊢
  split at chosen
  · cases chosen
  · rename_i found
    cases chosen
    exact ⟨List.find?_some found, List.mem_of_find?_eq_some found, rfl⟩

theorem select_finds
    {fifo : Fifo} {candidates : Candidates} {frame : Nat} (queued : frame ∈ fifo.queue)
    (evictable : candidates.evictable frame = true) :
    ∃ victim, (fifo.select candidates).1 = some victim := by
  unfold select
  split
  · rename_i missing
    exact absurd evictable (List.find?_eq_none.mp missing frame queued)
  · rename_i victim _
    exact ⟨victim, rfl⟩

theorem stray?_eq_none
    {fifo : Fifo} {candidates : Candidates}
    (inside : ∀ frame ∈ fifo.queue, frame < candidates.size) :
    fifo.stray? candidates = none := by
  rw [stray?, List.find?_eq_none]
  intro frame inspected
  have bound := inside frame ((List.takeWhile_sublist _).subset inspected)
  simpa using bound

end Fifo

/-! ## Either policy -/

namespace Policy

/-- A policy keeps track of the frames in use if its queue, where it has one, holds each of them once
and nothing else. -/
def Tracks (policy : Policy) (inUse : Nat → Prop) : Prop :=
  match policy with
  | clock _ => True
  | fifo state => state.queue.Nodup ∧ ∀ frame, frame ∈ state.queue ↔ inUse frame

theorem tracks_create (kind : PolicyKind) {inUse : Nat → Prop} (unused : ∀ frame, ¬ inUse frame) :
    (create kind).Tracks inUse := by
  cases kind with
  | clock => trivial
  | fifo => exact ⟨List.nodup_nil, fun frame => by simp [unused frame]⟩

theorem Tracks.acquired
    {policy : Policy} {inUse inUseThen : Nat → Prop} {frame : Nat}
    (tracks : policy.Tracks inUse) (unused : ¬ inUse frame)
    (step : ∀ other, inUseThen other ↔ inUse other ∨ other = frame) :
    (policy.acquired frame).Tracks inUseThen := by
  cases policy with
  | clock state => trivial
  | fifo state =>
      obtain ⟨nodup, members⟩ := tracks
      refine ⟨?_, fun other => ?_⟩
      · have absent : frame ∉ state.queue := fun queued => unused ((members frame).mp queued)
        exact List.nodup_append.mpr ⟨nodup, by simp, by grind⟩
      · rw [step, ← members]
        simp [Fifo.acquired]

theorem Tracks.released
    {policy : Policy} {inUse inUseThen : Nat → Prop} {frame : Nat}
    (tracks : policy.Tracks inUse)
    (step : ∀ other, inUseThen other ↔ inUse other ∧ other ≠ frame) :
    (policy.released frame).Tracks inUseThen := by
  cases policy with
  | clock state => trivial
  | fifo state =>
      obtain ⟨nodup, members⟩ := tracks
      refine ⟨nodup.filter _, fun other => ?_⟩
      rw [step, ← members]
      simp [Fifo.released]

/-- A victim leaves the queue when it is chosen and returns to its end with its next owner. -/
theorem Tracks.select_acquired
    {policy : Policy} {inUse : Nat → Prop} {candidates : Candidates} {victim : Nat}
    (tracks : policy.Tracks inUse) (chosen : (policy.select candidates).1 = some victim) :
    ((policy.select candidates).2.2.acquired victim).Tracks inUse := by
  cases policy with
  | clock state => trivial
  | fifo state =>
      obtain ⟨nodup, members⟩ := tracks
      obtain ⟨_, queued, rest⟩ := Fifo.select_evictable chosen
      simp only [select, rest]
      refine ⟨?_, fun other => ?_⟩
      · have absent : victim ∉ state.queue.erase victim := nodup.not_mem_erase
        exact List.nodup_append.mpr ⟨nodup.erase victim, by simp, by grind⟩
      · rw [← members, Fifo.acquired, List.mem_append, List.mem_singleton, nodup.mem_erase_iff]
        grind

theorem select_evictable
    {policy : Policy} {candidates : Candidates} {victim : Nat}
    (chosen : (policy.select candidates).1 = some victim) :
    candidates.evictable victim = true := by
  cases policy with
  | clock state => exact Clock.sweep_evictable _ state candidates chosen
  | fifo state => exact (Fifo.select_evictable chosen).1

theorem Tracks.select_finds
    {policy : Policy} {inUse : Nat → Prop} {candidates : Candidates} {frame : Nat}
    (tracks : policy.Tracks inUse) (used : inUse frame)
    (evictable : candidates.evictable frame = true) :
    ∃ victim, (policy.select candidates).1 = some victim := by
  cases policy with
  | clock state => exact state.select_finds evictable
  | fifo state => exact Fifo.select_finds ((tracks.2 frame).mpr used) evictable

theorem Tracks.stray?_eq_none
    {policy : Policy} {inUse : Nat → Prop} {candidates : Candidates}
    (tracks : policy.Tracks inUse) (inside : ∀ frame, inUse frame → frame < candidates.size) :
    policy.stray? candidates = none := by
  cases policy with
  | clock state => rfl
  | fifo state =>
      exact Fifo.stray?_eq_none fun frame queued => inside frame ((tracks.2 frame).mp queued)

end Policy

end DemandPaging
