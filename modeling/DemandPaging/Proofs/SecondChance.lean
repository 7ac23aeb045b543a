import DemandPaging.Proofs.Transit
import Mathlib.Data.List.Find

/-!
# Second chance

The hand of the clock decides by the bits that it takes away on its way. What it does in two rounds is
said here without a walk: the victim is the first frame from the hand on that may be chosen and was
not accessed, or if there is none the first that may be chosen, and the frames that were passed have
lost their bits. Within one round no frame is met twice, so the bits that a round takes away do not
change what the rest of the round sees; a whole round without a victim leaves no bit to spare a frame
in the next.
-/

namespace DemandPaging

namespace Candidates

/-- Whether the hand stops at a frame: it may be chosen and was not accessed. -/
def isIdle (candidates : Candidates) (frame : Nat) : Bool :=
  candidates.evictable frame && !candidates.accessed frame

/-- The candidates when the hand has passed some frames: those of them that may be chosen have lost
their accessed bits. -/
def passed (candidates : Candidates) (frames : List Nat) : Candidates :=
  candidates.mapIdx fun frame candidate =>
    if frame ∈ frames ∧ candidate.evictable = true then
      { candidate with accessed := false }
    else
      candidate

theorem getElem?_passed (candidates : Candidates) (frames : List Nat) (frame : Nat) :
    (candidates.passed frames)[frame]? =
      candidates[frame]?.map fun candidate =>
        if frame ∈ frames ∧ candidate.evictable = true then
          { candidate with accessed := false }
        else
          candidate := by
  rw [passed, Array.getElem?_mapIdx]

theorem size_passed (candidates : Candidates) (frames : List Nat) :
    (candidates.passed frames).size = candidates.size := by
  rw [passed, Array.size_mapIdx]

theorem evictable_passed (candidates : Candidates) (frames : List Nat) (frame : Nat) :
    (candidates.passed frames).evictable frame = candidates.evictable frame := by
  simp only [evictable, getElem?_passed]
  cases candidates[frame]? with
  | none => rfl
  | some candidate =>
      simp only [Option.map_some]
      split <;> rfl

/-- Only the frames that were passed and may be chosen have lost their bits. -/
theorem accessed_passed (candidates : Candidates) (frames : List Nat) (frame : Nat) :
    (candidates.passed frames).accessed frame =
      (candidates.accessed frame && !(decide (frame ∈ frames) && candidates.evictable frame)) := by
  simp only [accessed, evictable, getElem?_passed]
  cases candidates[frame]? with
  | none => rfl
  | some candidate =>
      simp only [Option.map_some]
      by_cases inside : frame ∈ frames <;> cases evictable : candidate.evictable <;>
        simp [inside]

theorem isIdle_passed_of_not_mem
    (candidates : Candidates) {frames : List Nat} {frame : Nat} (apart : frame ∉ frames) :
    (candidates.passed frames).isIdle frame = candidates.isIdle frame := by
  simp [isIdle, evictable_passed, accessed_passed, apart]

theorem isIdle_passed_of_mem
    (candidates : Candidates) {frames : List Nat} {frame : Nat} (inside : frame ∈ frames) :
    (candidates.passed frames).isIdle frame = candidates.evictable frame := by
  cases evictable : candidates.evictable frame <;>
    simp [isIdle, evictable_passed, accessed_passed, inside, evictable]

theorem passed_nil (candidates : Candidates) : candidates.passed [] = candidates := by
  apply Array.ext_getElem?
  intro frame
  cases found : candidates[frame]? <;> simp [getElem?_passed, found]

theorem passed_passed (candidates : Candidates) (first second : List Nat) :
    (candidates.passed first).passed second = candidates.passed (first ++ second) := by
  apply Array.ext_getElem?
  intro frame
  simp only [getElem?_passed, Option.map_map, List.mem_append]
  congr 1
  funext candidate
  by_cases early : frame ∈ first <;> by_cases late : frame ∈ second <;>
    cases evictable : candidate.evictable <;> simp [early, late, evictable]

/-- What the hand leaves depends only on which frames that may be chosen it has passed. -/
theorem passed_congr
    {candidates : Candidates} {first second : List Nat}
    (same : ∀ frame, candidates.evictable frame = true → (frame ∈ first ↔ frame ∈ second)) :
    candidates.passed first = candidates.passed second := by
  apply Array.ext_getElem?
  intro frame
  simp only [getElem?_passed]
  cases found : candidates[frame]? with
  | none => rfl
  | some candidate =>
      have evictable : candidates.evictable frame = candidate.evictable := by
        rw [Candidates.evictable, found]
      simp only [Option.map_some]
      congr 2
      rw [← evictable]
      simp only [eq_iff_iff, and_congr_left_iff]
      exact same frame

/-- The hand leaves the frames alone that may not be chosen. -/
theorem passed_of_spared
    {candidates : Candidates} {frames : List Nat}
    (spared : ∀ frame ∈ frames, candidates.evictable frame = false) :
    candidates.passed frames = candidates := by
  rw [← candidates.passed_nil, passed_passed, List.nil_append]
  refine passed_congr fun frame evictable => ?_
  simp only [List.not_mem_nil, iff_false]
  intro passed
  rw [spared frame passed] at evictable
  cases evictable

/-- A frame that does not stop the hand has lost its bit when the hand moves on, if it may be chosen. -/
theorem setAccessed_eq_passed
    {candidates : Candidates} {frame : Nat} (evictable : candidates.evictable frame = true) :
    candidates.setAccessed frame false = candidates.passed [frame] := by
  apply Array.ext_getElem?
  intro other
  rw [setAccessed, Array.getElem?_modify, getElem?_passed]
  by_cases same : frame = other
  · subst same
    cases found : candidates[frame]? with
    | none => simp
    | some candidate =>
        have chosen : candidate.evictable = true := by
          rwa [Candidates.evictable, found] at evictable
        simp [chosen]
  · have apart : ¬ other = frame := fun equal => same equal.symm
    cases candidates[other]? <;> simp [same, apart]

/-! ## Clearing the bits of several frames -/

theorem ext_of_same
    {first second : Candidates} (size : first.size = second.size)
    (evictable : ∀ frame, first.evictable frame = second.evictable frame)
    (accessed : ∀ frame, first.accessed frame = second.accessed frame) : first = second := by
  apply Array.ext size
  intro frame inFirst inSecond
  have sameEvictable := evictable frame
  have sameAccessed := accessed frame
  simp only [Candidates.evictable, Candidates.accessed, Array.getElem?_eq_getElem inFirst,
    Array.getElem?_eq_getElem inSecond] at sameEvictable sameAccessed
  cases left : first[frame]
  cases right : second[frame]
  simp_all

theorem accessed_setAccessed (candidates : Candidates) (frame other : Nat) :
    (candidates.setAccessed frame false).accessed other =
      (candidates.accessed other && frame != other) := by
  simp only [accessed, setAccessed, Array.getElem?_modify]
  by_cases same : frame = other
  · subst same
    cases candidates[frame]? <;> simp
  · simp [same]

theorem lt_size_of_accessed {candidates : Candidates} {frame : Nat}
    (accessed : candidates.accessed frame = true) :
    frame < candidates.size := by
  rcases Nat.lt_or_ge frame candidates.size with inside | outside
  · exact inside
  · simp [Candidates.accessed, Array.getElem?_eq_none outside] at accessed

/-- The candidates after the bits of the marked ones among the given frames were taken. -/
def clearing (candidates : Candidates) (marked : Nat → Bool) (frames : List Nat) : Candidates :=
  frames.foldl
    (fun candidates frame =>
      if marked frame then candidates.setAccessed frame false else candidates)
    candidates

theorem clearing_keeps (candidates : Candidates) (marked : Nat → Bool) (frames : List Nat) :
    (candidates.clearing marked frames).size = candidates.size ∧
      ∀ frame, (candidates.clearing marked frames).evictable frame = candidates.evictable frame := by
  induction frames generalizing candidates with
  | nil => exact ⟨rfl, fun _ => rfl⟩
  | cons frame rest inductionHypothesis =>
      rw [clearing, List.foldl_cons, ← clearing]
      split
      · obtain ⟨size, evictable⟩ := inductionHypothesis (candidates.setAccessed frame false)
        refine ⟨size.trans (candidates.size_setAccessed frame false), fun other => ?_⟩
        rw [evictable, evictable_setAccessed]
      · exact inductionHypothesis candidates

theorem accessed_clearing
    (candidates : Candidates) (marked : Nat → Bool) (frames : List Nat) (frame : Nat) :
    (candidates.clearing marked frames).accessed frame =
      (candidates.accessed frame && !(marked frame && decide (frame ∈ frames))) := by
  induction frames generalizing candidates with
  | nil => simp [clearing]
  | cons first rest inductionHypothesis =>
      rw [clearing, List.foldl_cons, ← clearing, inductionHypothesis]
      by_cases same : frame = first
      · subst same
        cases marks : marked frame <;> simp [accessed_setAccessed]
      · have different : (first != frame) = true := by simpa using fun equal => same equal.symm
        cases marks : marked first <;> simp [accessed_setAccessed, same, different]

end Candidates

namespace Clock

/-! ## The frames that the hand comes to -/

/-- The frames that the hand comes to in its next steps. -/
def visits (clock : Clock) (frameCount steps : Nat) : List Nat :=
  (List.range steps).map fun step => (clock.hand + step) % frameCount

/-- The frames in the order in which the hand comes to them in one round. -/
def round (clock : Clock) (frameCount : Nat) : List Nat :=
  clock.visits frameCount frameCount

/-- The clock some steps later. -/
def moved (clock : Clock) (frameCount steps : Nat) : Clock :=
  ⟨(clock.hand + steps) % frameCount⟩

theorem visits_succ (clock : Clock) (frameCount steps : Nat) :
    clock.visits frameCount (steps + 1) =
      clock.visits frameCount steps ++ [(clock.moved frameCount steps).hand] := by
  simp only [visits, moved, List.range_succ, List.map_append, List.map_cons, List.map_nil]

theorem length_visits (clock : Clock) (frameCount steps : Nat) :
    (clock.visits frameCount steps).length = steps := by
  simp [visits]

/-- No frame is met twice within one round. -/
theorem moved_not_mem_visits
    (clock : Clock) {frameCount steps : Nat} (within : steps < frameCount) :
    (clock.moved frameCount steps).hand ∉ clock.visits frameCount steps := by
  simp only [visits, moved, List.mem_map, List.mem_range, not_exists, not_and]
  intro step earlier same
  have distance : clock.hand + steps - (clock.hand + step) = steps - step := by omega
  have together := Nat.sub_mod_eq_zero_of_mod_eq same.symm
  rw [distance, Nat.mod_eq_of_lt (by omega)] at together
  omega

theorem mem_round (clock : Clock) {frameCount frame : Nat} (inside : frame < frameCount) :
    frame ∈ clock.round frameCount := by
  obtain ⟨step, within, visited⟩ := exists_visit clock.hand inside
  exact List.mem_map.mpr ⟨step, List.mem_range.mpr within, visited⟩

/-- Part of a round up to one of its frames is what the hand comes to in so many steps. -/
theorem visits_of_round
    {clock : Clock} {frameCount victim : Nat} {first rest : List Nat}
    (split : clock.round frameCount = first ++ victim :: rest) :
    first.length < frameCount ∧ first = clock.visits frameCount first.length ∧
      victim = (clock.moved frameCount first.length).hand := by
  have length := congrArg List.length split
  rw [round, length_visits, List.length_append, List.length_cons] at length
  have within : first.length < frameCount := by omega
  refine ⟨within, ?_, ?_⟩
  · have taken := congrArg (List.take first.length) split
    rw [List.take_left', round, visits, ← List.map_take, List.take_range,
      Nat.min_eq_left (Nat.le_of_lt within)] at taken
    · exact taken.symm
    · rfl
  · have found := congrArg (fun frames => frames[first.length]?) split
    simp only [round, visits, List.getElem?_map, List.getElem?_range within, Option.map_some,
      List.getElem?_append_right (Nat.le_refl _), Nat.sub_self, List.getElem?_cons_zero,
      Option.some.injEq] at found
    exact found.symm

/-! ## The hand goes on -/

/-- The hand stops at an idle frame. -/
theorem sweep_stops
    {clock : Clock} {candidates : Candidates} (rounds : Nat)
    (idle : candidates.isIdle (clock.hand % candidates.size) = true) :
    clock.sweep candidates (rounds + 1) =
      (some (clock.hand % candidates.size), candidates, clock.advance candidates.size) := by
  simp only [Candidates.isIdle, Bool.and_eq_true, Bool.not_eq_true'] at idle
  simp only [sweep, if_pos idle.1, idle.2, Bool.false_eq_true, if_false]

/-- The hand passes every other frame. -/
theorem sweep_goes_on
    {clock : Clock} {candidates : Candidates} (rounds : Nat)
    (busy : candidates.isIdle (clock.hand % candidates.size) = false) :
    clock.sweep candidates (rounds + 1) =
      (clock.advance candidates.size).sweep
        (candidates.passed [clock.hand % candidates.size]) rounds := by
  by_cases evictable : candidates.evictable (clock.hand % candidates.size) = true
  · have accessed : candidates.accessed (clock.hand % candidates.size) = true := by
      simpa [Candidates.isIdle, evictable] using busy
    simp only [sweep, if_pos evictable, if_pos accessed, Candidates.setAccessed_eq_passed evictable]
  · have unchanged : candidates.passed [clock.hand % candidates.size] = candidates := by
      apply Candidates.passed_of_spared
      intro frame passed
      rw [List.mem_singleton.mp passed]
      exact Bool.eq_false_iff.mpr evictable
    simp only [sweep, if_neg evictable, unchanged]

variable {clock : Clock} {candidates : Candidates} {frameCount : Nat}

/-- What the hand has done after some steps of one round in which it met no idle frame. -/
theorem sweep_visits
    (size : candidates.size = frameCount) (inside : clock.hand < frameCount)
    {steps : Nat} (rest : Nat) (within : steps ≤ frameCount)
    (busy : ∀ frame ∈ clock.visits frameCount steps, candidates.isIdle frame = false) :
    clock.sweep candidates (steps + rest) =
      (clock.moved frameCount steps).sweep
        (candidates.passed (clock.visits frameCount steps)) rest := by
  induction steps generalizing rest with
  | zero =>
      have start : clock.moved frameCount 0 = clock := by
        rw [moved, Nat.add_zero, Nat.mod_eq_of_lt inside]
      rw [Nat.zero_add, start, visits, List.range_zero, List.map_nil, candidates.passed_nil]
  | succ steps inductionHypothesis =>
      rw [visits_succ] at busy ⊢
      have here : (clock.moved frameCount steps).hand % frameCount =
          (clock.moved frameCount steps).hand := Nat.mod_mod _ _
      have next : (clock.moved frameCount steps).advance frameCount =
          clock.moved frameCount (steps + 1) := by
        simp only [moved, advance, Nat.mod_add_mod, Nat.add_assoc]
      have unmet := candidates.isIdle_passed_of_not_mem (clock.moved_not_mem_visits within)
      have earlier : ∀ frame ∈ clock.visits frameCount steps, candidates.isIdle frame = false :=
        fun frame visited => busy frame (List.mem_append_left _ visited)
      rw [Nat.succ_add_eq_add_succ,
        inductionHypothesis (rest + 1) (Nat.le_of_succ_le within) earlier,
        sweep_goes_on, Candidates.size_passed, size, here, next, Candidates.passed_passed]
      rw [Candidates.size_passed, size, here, unmet]
      exact busy _ (List.mem_append_right _ (List.mem_singleton_self _))

/-- The hand stops at the first idle frame of a round, and the frames before it have lost their
bits. -/
theorem sweep_finds
    (size : candidates.size = frameCount) (inside : clock.hand < frameCount) (rest : Nat)
    {victim : Nat} (found : (clock.round frameCount).find? candidates.isIdle = some victim) :
    clock.sweep candidates (frameCount + rest) =
      (some victim,
        candidates.passed ((clock.round frameCount).takeWhile fun frame => frame != victim),
        ⟨(victim + 1) % frameCount⟩) := by
  obtain ⟨idle, first, others, split, busy⟩ := List.find?_eq_some_iff_append.mp found
  obtain ⟨within, visited, arrived⟩ := visits_of_round split
  have unmet : victim ∉ first := by
    rw [arrived, visited, length_visits]
    exact clock.moved_not_mem_visits within
  have before : (clock.round frameCount).takeWhile (fun frame => frame != victim) = first := by
    rw [split, List.takeWhile_append_of_pos]
    · simp
    · intro frame passed
      have different : frame ≠ victim := fun same => unmet (same ▸ passed)
      simpa using different
  have busyThere : ∀ frame ∈ clock.visits frameCount first.length,
      candidates.isIdle frame = false := by
    rw [← visited]
    exact fun frame passed => by simpa using busy frame passed
  have here : (clock.moved frameCount first.length).hand % frameCount = victim := by
    rw [arrived]
    exact Nat.mod_mod _ _
  have idleThere : (candidates.passed first).isIdle victim = true := by
    rw [candidates.isIdle_passed_of_not_mem unmet]
    exact idle
  calc clock.sweep candidates (frameCount + rest)
      = clock.sweep candidates
          (first.length + (frameCount - first.length - 1 + rest + 1)) := by
        congr 1
        omega
    _ = (clock.moved frameCount first.length).sweep (candidates.passed first)
          (frameCount - first.length - 1 + rest + 1) := by
        rw [sweep_visits size inside _ (Nat.le_of_lt within) busyThere, ← visited]
    _ = (some victim, candidates.passed first, ⟨(victim + 1) % frameCount⟩) := by
        rw [sweep_stops, Candidates.size_passed, size, here, advance, ← arrived]
        rw [Candidates.size_passed, size, here]
        exact idleThere
    _ = _ := by rw [before]

/-- A round without an idle frame brings the hand back to where it was. -/
theorem sweep_round
    (size : candidates.size = frameCount) (inside : clock.hand < frameCount) (rest : Nat)
    (busy : (clock.round frameCount).find? candidates.isIdle = none) :
    clock.sweep candidates (frameCount + rest) =
      clock.sweep (candidates.passed (clock.round frameCount)) rest := by
  have back : clock.moved frameCount frameCount = clock := by
    rw [moved, Nat.add_mod_right, Nat.mod_eq_of_lt inside]
  have busyThere : ∀ frame ∈ clock.visits frameCount frameCount,
      candidates.isIdle frame = false :=
    fun frame visited => by simpa using List.find?_eq_none.mp busy frame visited
  rw [sweep_visits size inside rest (Nat.le_refl _) busyThere, back, round]

/-! ## Two rounds -/

/-- Second chance, said without a walk. -/
def secondChance (clock : Clock) (candidates : Candidates) : Option Nat × Candidates × Clock :=
  let round := clock.round candidates.size
  match round.find? candidates.isIdle with
  | some victim =>
      (some victim, candidates.passed (round.takeWhile fun frame => frame != victim),
        ⟨(victim + 1) % candidates.size⟩)
  | none =>
      match round.find? candidates.evictable with
      | some victim => (some victim, candidates.passed round, ⟨(victim + 1) % candidates.size⟩)
      | none => (none, candidates, clock)

/-- The second round stops at the first frame that may be chosen, because none of them has its bit
any more. -/
theorem find?_isIdle_passed (candidates : Candidates) (frames : List Nat) :
    frames.find? (candidates.passed frames).isIdle = frames.find? candidates.evictable :=
  List.find?_congr fun _ visited => candidates.isIdle_passed_of_mem visited

theorem select_eq_secondChance (inside : clock.hand < candidates.size) :
    clock.select candidates = clock.secondChance candidates := by
  have size := candidates.size_passed (clock.round candidates.size)
  have again := find?_isIdle_passed candidates (clock.round candidates.size)
  rw [select, secondChance, Nat.two_mul]
  cases found : (clock.round candidates.size).find? candidates.isIdle with
  | some victim => exact sweep_finds rfl inside _ found
  | none =>
      rw [sweep_round rfl inside _ found]
      cases chosen : (clock.round candidates.size).find? candidates.evictable with
      | some victim =>
          have second := sweep_finds size inside 0 (again.trans chosen)
          rw [Nat.add_zero, Candidates.passed_passed] at second
          rw [second, Candidates.passed_congr]
          intro frame _
          rw [List.mem_append, or_iff_left_iff_imp]
          exact fun passed => (List.takeWhile_sublist _).subset passed
      | none =>
          have spared : candidates.passed (clock.round candidates.size) = candidates := by
            apply Candidates.passed_of_spared
            exact fun frame visited =>
              Bool.eq_false_iff.mpr (List.find?_eq_none.mp chosen frame visited)
          have second := sweep_round rfl inside 0 found
          rw [Nat.add_zero, spared] at second
          rw [spared, second, sweep]

/-! ## Call after call -/

theorem hand_secondChance_lt (inside : clock.hand < candidates.size) :
    (clock.secondChance candidates).2.2.hand < candidates.size := by
  have behind : ∀ victim, (victim + 1) % candidates.size < candidates.size :=
    fun victim => Nat.mod_lt _ (Nat.zero_lt_of_lt inside)
  rw [secondChance]
  split
  · exact behind _
  · split
    · exact behind _
    · exact inside

/-- A victim is chosen exactly if there is a frame that may be chosen. -/
theorem isSome_secondChance (clock : Clock) (candidates : Candidates) :
    (clock.secondChance candidates).1.isSome = true ↔
      ∃ frame, candidates.evictable frame = true := by
  rw [secondChance]
  cases found : (clock.round candidates.size).find? candidates.isIdle with
  | some victim =>
      have idle := List.find?_some found
      rw [Candidates.isIdle, Bool.and_eq_true] at idle
      exact iff_of_true rfl ⟨victim, idle.1⟩
  | none =>
      cases chosen : (clock.round candidates.size).find? candidates.evictable with
      | some victim => exact iff_of_true rfl ⟨victim, List.find?_some chosen⟩
      | none =>
          refine iff_of_false Bool.false_ne_true fun ⟨frame, evictable⟩ => ?_
          have visited := clock.mem_round (Candidates.lt_size_of_evictable evictable)
          exact List.find?_eq_none.mp chosen frame visited evictable

/-- The clock after it was asked for victims again and again, whatever became of the frames and their
bits meanwhile. -/
def afterChoices (clock : Clock) (choices : List Candidates) : Clock :=
  choices.foldl (fun clock candidates => (clock.select candidates).2.2) clock

theorem hand_afterChoices_lt
    (choices : List Candidates) (inside : clock.hand < frameCount)
    (sizes : ∀ candidates ∈ choices, candidates.size = frameCount) :
    (clock.afterChoices choices).hand < frameCount := by
  induction choices generalizing clock with
  | nil => exact inside
  | cons candidates rest inductionHypothesis =>
      have size := sizes candidates List.mem_cons_self
      rw [← size] at inside
      have next := hand_secondChance_lt inside
      rw [← select_eq_secondChance inside, size] at next
      exact inductionHypothesis next fun later follows => sizes later (List.mem_cons_of_mem _ follows)

/-- The clock is second chance, and two rounds are enough for it: from the hand on it takes the first
frame that may be chosen and was not accessed, else the first that may be chosen, and clears the
accessed bits of exactly the frames that may be chosen and come before the victim, or in the second
case of all that may be chosen. The hand ends behind the victim; without a victim nothing has
changed. -/
theorem select_is_second_chance (inside : clock.hand < candidates.size) :
    clock.select candidates = clock.secondChance candidates ∧
      ((clock.select candidates).1.isSome = true ↔
        ∃ frame, candidates.evictable frame = true) ∧
      ∀ choices : List Candidates, (∀ later ∈ choices, later.size = candidates.size) →
        (clock.afterChoices (candidates :: choices)).hand < candidates.size := by
  have walk := select_eq_secondChance inside
  refine ⟨walk, ?_, fun choices sizes => ?_⟩
  · rw [walk]
    exact isSome_secondChance clock candidates
  · refine hand_afterChoices_lt _ inside fun later asked => ?_
    rcases List.mem_cons.mp asked with same | follows
    · rw [same]
    · exact sizes later follows

/-- Four frames with the hand at the third: it takes the bit of the third, passes the pinned fourth and
chooses the first. -/
theorem second_chance_of_four :
    (⟨2⟩ : Clock).select #[⟨true, false⟩, ⟨true, true⟩, ⟨true, true⟩, ⟨false, true⟩] =
      (some 0, #[⟨true, false⟩, ⟨true, true⟩, ⟨true, false⟩, ⟨false, true⟩], ⟨1⟩) := by
  refine (@select_is_second_chance ⟨2⟩ _ (by decide)).1.trans ?_
  decide +kernel

end Clock

/-- Choosing a victim takes at most accessed bits away. -/
theorem Policy.select_keeps (policy : Policy) (candidates : Candidates) :
    (policy.select candidates).2.1.size = candidates.size ∧
      (∀ frame, (policy.select candidates).2.1.evictable frame = candidates.evictable frame) ∧
      ∀ frame, (policy.select candidates).2.1.accessed frame = true →
        candidates.accessed frame = true := by
  cases policy with
  | clock state => exact Clock.sweep_keeps _ state candidates
  | fifo state => exact ⟨rfl, fun _ => rfl, fun _ kept => kept⟩

namespace Pager

/-! ## The bits in the page tables -/

theorem isAccessed_clear (pager : Pager) (owner other : Owner) :
    ((pager.modifyTable owner.pid fun table => table.setAccessed owner.va false).table
        other.pid).isAccessed other.va =
      if owner.pid = other.pid ∧ pageBase owner.va = pageBase other.va then false
      else (pager.table other.pid).isAccessed other.va := by
  simp only [table, modifyTable, space?_modifySpace]
  by_cases samePid : owner.pid = other.pid
  · rw [if_pos samePid]
    by_cases samePage : pageBase owner.va = pageBase other.va
    · rw [if_pos ⟨samePid, samePage⟩]
      cases pager.space? other.pid with
      | none => simp [PageTable.isAccessed, PageTable.find?_empty]
      | some space =>
          simp only [Option.map_some, PageTable.isAccessed, PageTable.find?_setAccessed,
            if_pos samePage]
          cases space.table.find? other.va <;> rfl
    · rw [if_neg fun same => samePage same.2]
      cases pager.space? other.pid with
      | none => rfl
      | some space =>
          simp only [Option.map_some, PageTable.isAccessed, PageTable.find?_setAccessed,
            if_neg samePage]
  · rw [if_neg samePid, if_neg fun same => samePid same.1]

/-- No two frames belong to the same page. -/
def KeepsApart (pager : Pager) : Prop :=
  ∀ first second one other,
    pager.frames.owner? first = some one → pager.frames.owner? second = some other →
      one.pid = other.pid → pageBase one.va = pageBase other.va → first = second

theorem keepsApart_of_sound {pager : Pager} (sound : pager.ledger.Sound none) :
    pager.KeepsApart := by
  intro first second one other firstOwned secondOwned samePid samePage
  obtain ⟨page, present, resident⟩ := sound.page_of_owner firstOwned
  obtain ⟨otherPage, otherPresent, otherResident⟩ := sound.page_of_owner secondOwned
  have same : one = other := by
    cases one
    cases other
    have aligned := (sound.placed _ _ present).aligned
    have otherAligned := (sound.placed _ _ otherPresent).aligned
    simp_all
  subst same
  rw [present, Option.some.injEq] at otherPresent
  rw [← otherPresent, resident] at otherResident
  exact Option.some.inj otherResident

theorem getElem?_candidates (pager : Pager) (frame : Nat) :
    pager.candidates[frame]? = pager.frames.frames[frame]?.map pager.candidate :=
  Array.getElem?_map

theorem candidate_of_owner
    (pager : Pager) {entry : Frame} {owner : Owner} (owned : entry.owner = some owner) :
    pager.candidate entry = ⟨!entry.pinned, (pager.table owner.pid).isAccessed owner.va⟩ := by
  rw [candidate, owned]

theorem candidate_of_free (pager : Pager) {entry : Frame} (free : entry.owner = none) :
    pager.candidate entry = ⟨false, false⟩ := by
  rw [candidate, free]

theorem frames_clearAccessed (pager : Pager) (frame : Nat) :
    (pager.clearAccessed frame).frames = pager.frames := by
  unfold clearAccessed
  split <;> rfl

/-- Clearing the bit in the page table of the owner is clearing the bit of the candidate. -/
theorem candidates_clearAccessed {pager : Pager} (apart : pager.KeepsApart) (frame : Nat) :
    (pager.clearAccessed frame).candidates = pager.candidates.setAccessed frame false := by
  apply Array.ext_getElem?
  intro other
  rw [Candidates.setAccessed, Array.getElem?_modify, getElem?_candidates, getElem?_candidates,
    frames_clearAccessed]
  cases found : pager.frames.frames[other]? with
  | none => simp
  | some entry =>
      simp only [Option.map_some]
      cases owned : entry.owner with
      | none => simp [candidate_of_free _ owned]
      | some owner =>
          have otherOwner : pager.frames.owner? other = some owner := by
            rw [FramePool.owner?, found, ← owned]
          rw [candidate_of_owner _ owned, candidate_of_owner _ owned, clearAccessed]
          cases frameOwner : pager.frames.owner? frame with
          | none =>
              have different : frame ≠ other := by
                rintro rfl
                rw [otherOwner] at frameOwner
                cases frameOwner
              simp [different]
          | some holder =>
              simp only [isAccessed_clear]
              by_cases same : frame = other
              · subst same
                rw [otherOwner, Option.some.injEq] at frameOwner
                simp [frameOwner]
              · have different : ¬ (holder.pid = owner.pid ∧ pageBase holder.va = pageBase owner.va) :=
                  fun equal => same (apart _ _ _ _ frameOwner otherOwner equal.1 equal.2)
                simp [different, same]

theorem candidates_foldl_clearAccessed
    {pager : Pager} (apart : pager.KeepsApart) (marked : Nat → Bool) (frames : List Nat) :
    (frames.foldl
        (fun pager frame => if marked frame then pager.clearAccessed frame else pager)
        pager).candidates =
      pager.candidates.clearing marked frames := by
  induction frames generalizing pager with
  | nil => rfl
  | cons frame rest inductionHypothesis =>
      rw [List.foldl_cons, Candidates.clearing, List.foldl_cons, ← Candidates.clearing]
      by_cases marks : marked frame = true
      · have apartThen : (pager.clearAccessed frame).KeepsApart := by
          rw [KeepsApart, frames_clearAccessed]
          exact apart
        rw [if_pos marks, if_pos marks, inductionHypothesis apartThen,
          candidates_clearAccessed apart]
      · rw [if_neg marks, if_neg marks, inductionHypothesis apart]

theorem candidates_clearTaken
    {pager : Pager} (apart : pager.KeepsApart) {left : Candidates}
    (size : left.size = pager.candidates.size)
    (evictable : ∀ frame, left.evictable frame = pager.candidates.evictable frame)
    (accessed : ∀ frame, left.accessed frame = true → pager.candidates.accessed frame = true) :
    (pager.clearTaken pager.candidates left).candidates = left := by
  rw [clearTaken, candidates_foldl_clearAccessed apart
    (fun frame => pager.candidates.accessed frame && !left.accessed frame)]
  obtain ⟨sizeKept, evictableKept⟩ := pager.candidates.clearing_keeps
    (fun frame => pager.candidates.accessed frame && !left.accessed frame)
    (List.range pager.candidates.size)
  refine Candidates.ext_of_same (sizeKept.trans size.symm) (fun frame => ?_) (fun frame => ?_)
  · rw [evictableKept, evictable]
  · rw [Candidates.accessed_clearing]
    cases bit : left.accessed frame with
    | true => simp [accessed frame bit]
    | false =>
        cases had : pager.candidates.accessed frame with
        | false => rfl
        | true => simp [Candidates.lt_size_of_accessed had]

/-- The policy decides about bits of candidates, and the page tables follow it: after the choice they
hold the bits that the policy left. -/
theorem candidates_selected {pager : Pager} (sound : pager.ledger.Sound none) :
    pager.selected.candidates = (pager.frames.policy.select pager.candidates).2.1 := by
  obtain ⟨size, evictable, accessed⟩ := pager.frames.policy.select_keeps pager.candidates
  exact candidates_clearTaken (keepsApart_of_sound sound) size evictable accessed

end Pager

end DemandPaging
