import DemandPaging.Pager.State

/-!
# How programs on the virtual memory end

A program answers, fails or halts. `PagerM.Meets` says what holds in each of the three cases, and has
one rule for every way in which programs are put together. The rules are equivalences, so rewriting
with them executes a program up to its next branch.
-/

namespace DemandPaging

/-- Conditions on the three ways in which a program ends. -/
structure Ending (α : Type) where
  answers : α → Pager → Prop
  fails : PagingError → Pager → Prop
  halts : Halt → Pager → Prop

namespace PagerM

variable {α β : Type}

/-- A program that is started in a state ends as described. -/
def Meets (program : PagerM α) (before : Pager) (ending : Ending α) : Prop :=
  match program before with
  | .ok answer after => ending.answers answer after
  | .error (.failed error) after => ending.fails error after
  | .error (.halted reason) after => ending.halts reason after

theorem Meets.of_ok
    {program : PagerM α} {before after : Pager} {ending : Ending α} {answer : α}
    (meets : program.Meets before ending) (run : program before = .ok answer after) :
    ending.answers answer after := by
  simpa only [Meets, run] using meets

theorem Meets.of_failed
    {program : PagerM α} {before after : Pager} {ending : Ending α} {error : PagingError}
    (meets : program.Meets before ending)
    (run : program before = .error (.failed error) after) :
    ending.fails error after := by
  simpa only [Meets, run] using meets

theorem Meets.of_halted
    {program : PagerM α} {before after : Pager} {ending : Ending α} {reason : Halt}
    (meets : program.Meets before ending)
    (run : program before = .error (.halted reason) after) :
    ending.halts reason after := by
  simpa only [Meets, run] using meets

/-- The state that a program leaves, however it ends. -/
def leaves (program : PagerM α) (before : Pager) : Pager :=
  match program before with
  | .ok _ after | .error _ after => after

/-- What a program came to that was run as an attempt. -/
theorem Meets.of_attempt
    {program : PagerM α} {before after : Pager} {ending : Ending α} {outcome : Except PagingError α}
    (meets : program.Meets before ending) (run : attempt program before = .ok outcome after) :
    (∃ answer, outcome = .ok answer ∧ ending.answers answer after) ∨
      ∃ error, outcome = .error error ∧ ending.fails error after := by
  unfold attempt at run
  cases ended : program before with
  | ok answer state =>
      rw [ended] at run
      cases run
      exact Or.inl ⟨answer, rfl, meets.of_ok ended⟩
  | error stop state =>
      rw [ended] at run
      cases stop with
      | failed error =>
          cases run
          exact Or.inr ⟨error, rfl, meets.of_failed ended⟩
      | halted reason => cases run

/-- A program ends as it does. -/
theorem meets_itself (program : PagerM α) (before : Pager) :
    program.Meets before
      ⟨fun answer after => program before = .ok answer after,
        fun error after => program before = .error (.failed error) after,
        fun reason after => program before = .error (.halted reason) after⟩ := by
  unfold Meets
  split <;> assumption

theorem ok_of_attempt
    {program : PagerM α} {before after : Pager} {answer : α}
    (run : attempt program before = .ok (.ok answer) after) : program before = .ok answer after := by
  rcases (meets_itself program before).of_attempt run with ⟨_, same, answered⟩ | ⟨_, never, _⟩
  · cases same
    exact answered
  · cases never

theorem failed_of_attempt
    {program : PagerM α} {before after : Pager} {error : PagingError}
    (run : attempt program before = .ok (.error error) after) :
    program before = .error (.failed error) after := by
  rcases (meets_itself program before).of_attempt run with ⟨_, never, _⟩ | ⟨_, same, failed⟩
  · cases never
  · cases same
    exact failed

/-- A program answers, fails or halts. -/
theorem Meets.outcome
    {program : PagerM α} {before : Pager} {ending : Ending α} (meets : program.Meets before ending) :
    (∃ answer after, program before = .ok answer after ∧ ending.answers answer after) ∨
      (∃ error after, program before = .error (.failed error) after ∧ ending.fails error after) ∨
        ∃ reason after, program before = .error (.halted reason) after ∧ ending.halts reason after := by
  unfold Meets at meets
  split at meets
  · rename_i answer after run
    exact Or.inl ⟨answer, after, run, meets⟩
  · rename_i error after run
    exact Or.inr (Or.inl ⟨error, after, run, meets⟩)
  · rename_i reason after run
    exact Or.inr (Or.inr ⟨reason, after, run, meets⟩)

/-- A program that can end in no other way answers. -/
theorem Meets.run
    {program : PagerM α} {before after : Pager} {answer : α}
    (meets : program.Meets before
      ⟨fun result state => result = answer ∧ state = after, fun _ _ => False, fun _ _ => False⟩) :
    program before = .ok answer after := by
  rcases meets.outcome with ⟨_, _, run, rfl, rfl⟩ | ⟨_, _, _, never⟩ | ⟨_, _, _, never⟩
  · exact run
  · exact never.elim
  · exact never.elim

theorem Meets.anyway (program : PagerM α) (before : Pager) :
    program.Meets before ⟨fun _ _ => True, fun _ _ => True, fun _ _ => True⟩ := by
  unfold Meets
  split <;> exact trivial

/-- What holds in every end holds of the state that is left. -/
theorem Meets.leaves
    {program : PagerM α} {before : Pager} (holds : Pager → Prop)
    (meets : program.Meets before
      ⟨fun _ after => holds after, fun _ after => holds after, fun _ after => holds after⟩) :
    holds (program.leaves before) := by
  unfold PagerM.leaves
  cases ended : program before with
  | ok answer after => exact meets.of_ok ended
  | error stop after =>
      cases stop with
      | failed error => exact meets.of_failed ended
      | halted reason => exact meets.of_halted ended

/-- What holds at the end may be weakened. -/
theorem Meets.mono
    {program : PagerM α} {before : Pager} {strong weak : Ending α}
    (meets : program.Meets before strong)
    (answers : ∀ answer after, strong.answers answer after → weak.answers answer after)
    (fails : ∀ error after, strong.fails error after → weak.fails error after)
    (halts : ∀ reason after, strong.halts reason after → weak.halts reason after) :
    program.Meets before weak := by
  unfold Meets at meets ⊢
  cases ended : program before with
  | ok answer after =>
      rw [ended] at meets
      exact answers answer after meets
  | error stop after =>
      rw [ended] at meets
      cases stop with
      | failed error => exact fails error after meets
      | halted reason => exact halts reason after meets

/-- What two conditions say of the ends of a program holds together. -/
theorem Meets.and
    {program : PagerM α} {before : Pager} {first second : Ending α}
    (meets : program.Meets before first) (meetsToo : program.Meets before second) :
    program.Meets before
      ⟨fun answer after => first.answers answer after ∧ second.answers answer after,
        fun error after => first.fails error after ∧ second.fails error after,
        fun reason after => first.halts reason after ∧ second.halts reason after⟩ := by
  unfold Meets at meets meetsToo ⊢
  cases ended : program before with
  | ok answer after =>
      rw [ended] at meets meetsToo
      exact ⟨meets, meetsToo⟩
  | error stop after =>
      rw [ended] at meets meetsToo
      cases stop <;> exact ⟨meets, meetsToo⟩

/-! ## One rule for each construct -/

theorem meets_pure (answer : α) (pager : Pager) (ending : Ending α) :
    Meets (pure answer) pager ending ↔ ending.answers answer pager :=
  Iff.rfl

theorem meets_get (pager : Pager) (ending : Ending Pager) :
    Meets get pager ending ↔ ending.answers pager pager :=
  Iff.rfl

theorem meets_set (new pager : Pager) (ending : Ending PUnit) :
    Meets (set new) pager ending ↔ ending.answers ⟨⟩ new :=
  Iff.rfl

theorem meets_modify (change : Pager → Pager) (pager : Pager) (ending : Ending PUnit) :
    Meets (modify change) pager ending ↔ ending.answers ⟨⟩ (change pager) :=
  Iff.rfl

theorem meets_fail (error : PagingError) (pager : Pager) (ending : Ending α) :
    Meets (fail error) pager ending ↔ ending.fails error pager :=
  Iff.rfl

theorem meets_deny
    (va : Nat) (reason : AccessViolation) (pager : Pager) (ending : Ending α) :
    Meets (deny va reason) pager ending ↔ ending.fails (.invalidAccess va reason) pager :=
  Iff.rfl

theorem meets_halt (reason : Halt) (pager : Pager) (ending : Ending α) :
    Meets (halt reason) pager ending ↔ ending.halts reason pager :=
  Iff.rfl

private theorem bind_run (program : PagerM α) (next : α → PagerM β) (pager : Pager) :
    (program >>= next) pager =
      match program pager with
      | .ok answer after => next answer after
      | .error stop after => .error stop after := by
  cases ended : program pager <;> simp [bind, EStateM.bind, ended]

theorem meets_bind
    (program : PagerM α) (next : α → PagerM β) (pager : Pager) (ending : Ending β) :
    Meets (program >>= next) pager ending ↔
      Meets program pager
        ⟨fun answer after => Meets (next answer) after ending, ending.fails, ending.halts⟩ := by
  simp only [Meets, bind_run]
  cases program pager with
  | ok answer after => rfl
  | error stop after => cases stop <;> rfl

/-- A program goes on from where its first part answers. -/
theorem bind_of_ok
    {program : PagerM α} {before middle : Pager} {answer : α} (run : program before = .ok answer middle)
    (next : α → PagerM β) : (program >>= next) before = next answer middle := by
  rw [bind_run, run]

theorem ok_of_bind
    {program : PagerM α} {next : α → PagerM β} {before after : Pager} {result : β}
    (run : (program >>= next) before = .ok result after) :
    ∃ answer middle, program before = .ok answer middle ∧ next answer middle = .ok result after := by
  rw [bind_run] at run
  cases ended : program before with
  | ok answer middle =>
      rw [ended] at run
      exact ⟨answer, middle, rfl, run⟩
  | error stop middle =>
      rw [ended] at run
      cases run

theorem meets_attempt
    (program : PagerM α) (pager : Pager) (ending : Ending (Except PagingError α)) :
    Meets (attempt program) pager ending ↔
      Meets program pager
        ⟨fun answer after => ending.answers (.ok answer) after,
          fun error after => ending.answers (.error error) after, ending.halts⟩ := by
  unfold Meets attempt
  cases program pager with
  | ok answer after => rfl
  | error stop after => cases stop <;> rfl

/-! ## Checks -/

theorem meets_insist
    (holds : Bool) (assertion : Assertion) (pager : Pager) (ending : Ending Unit) :
    Meets (insist holds assertion) pager ending ↔
      (holds = true → ending.answers ⟨⟩ pager) ∧
        (holds = false → ending.halts (.assertionFailed assertion) pager) := by
  cases holds <;> simp [insist, meets_pure, meets_halt]

theorem meets_insist_bind
    {holds : Bool} (isTrue : holds = true) (assertion : Assertion) (next : Unit → PagerM α)
    (pager : Pager) (ending : Ending α) :
    Meets (insist holds assertion >>= next) pager ending ↔ Meets (next ⟨⟩) pager ending := by
  subst isTrue
  rfl

theorem meets_checkIndex
    {index length : Nat} (inside : index < length) (pager : Pager) (ending : Ending Unit) :
    Meets (checkIndex index length) pager ending ↔ ending.answers ⟨⟩ pager := by
  rw [checkIndex, if_pos inside, meets_pure]

theorem meets_checkRange
    {stop length : Nat} (start : Nat) (inside : stop ≤ length) (pager : Pager)
    (ending : Ending Unit) :
    Meets (checkRange start stop length) pager ending ↔ ending.answers ⟨⟩ pager := by
  rw [checkRange, if_pos inside, meets_pure]

theorem meets_addWords (left right : Nat) (pager : Pager) (ending : Ending Nat) :
    Meets (addWords left right) pager ending ↔
      if pager.config.arithmetic = .checked ∧ wordLimit ≤ left + right then
        ending.halts .sumTooLarge pager
      else ending.answers ((left + right) % wordLimit) pager := by
  rw [addWords, meets_bind, meets_get]
  dsimp only
  split
  · rw [meets_halt]
  · rw [meets_pure]

theorem meets_subtractWords (minuend subtrahend : Nat) (pager : Pager) (ending : Ending Nat) :
    Meets (subtractWords minuend subtrahend) pager ending ↔
      if pager.config.arithmetic = .checked ∧ minuend < subtrahend then
        ending.halts .negativeDifference pager
      else ending.answers ((minuend + wordLimit - subtrahend) % wordLimit) pager := by
  rw [subtractWords, meets_bind, meets_get]
  dsimp only
  split
  · rw [meets_halt]
  · rw [meets_pure]

/-- A difference that is not below zero is a word, as its minuend. -/
theorem meets_subtractWords_of_le
    {minuend subtrahend : Nat} (below : subtrahend ≤ minuend) (word : minuend < wordLimit) (pager : Pager)
    (ending : Ending Nat) :
    Meets (subtractWords minuend subtrahend) pager ending ↔ ending.answers (minuend - subtrahend) pager := by
  have difference : (minuend + wordLimit - subtrahend) % wordLimit = minuend - subtrahend := by
    rw [show minuend + wordLimit - subtrahend = minuend - subtrahend + wordLimit by omega, Nat.add_mod_right]
    exact Nat.mod_eq_of_lt (Nat.sub_lt_of_lt word)
  rw [meets_subtractWords, if_neg fun fails => absurd below (Nat.not_le.mpr fails.2), difference]

end PagerM

end DemandPaging
