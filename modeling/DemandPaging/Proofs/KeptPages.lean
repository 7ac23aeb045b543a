import DemandPaging.Proofs.FatalErrors
import DemandPaging.Proofs.FileChanges
import DemandPaging.Proofs.PageLives

/-!
# Pages that stay

A page outside of every region is discarded only when its process ends. So as long as its process goes on, the
page does, whatever is called for and whatever comes of it, and nothing is told of an end of it.
-/

namespace DemandPaging

/-- What a call discards as long as it goes well goes with its process or with a region, or came with the
call. -/
theorem Call.Does.discards
    {call : Call} {before : Pager} {owner : Owner} {page : Page}
    (does : call.Does before (.discarded owner page)) :
    call = .exitProcess owner.pid ∨ page.region ≠ none ∨ before.pageOf owner = none := by
  cases call with
  | exitProcess pid => exact Or.inl (congrArg Call.exitProcess (Eq.symm does))
  | map pid base length writable file offset => exact Or.inr (Or.inr does.2)
  | unmap pid base =>
      obtain ⟨region, _, _, belongs, _⟩ := does
      refine Or.inr (Or.inl ?_)
      rw [belongs]
      exact Option.some_ne_none region.base
  | createProcess | setStackPointer => cases does
  | _ => exact absurd does id

namespace Pager

open PagerM

variable {before after : Pager} {allowed : Deed → Prop} {deed : Deed} {owner : Owner} {page : Page}
  {journal : List Activity}

/-! ## What is told of the end of a page -/

/-- Only what discards a page tells that it was discarded. -/
theorem Turn.undiscarded
    (turn : Turn deed before after) (sound : before.ledger.Sound none)
    (noted : after.journal = journal ++ before.journal) (kept : ∀ page, deed ≠ .discarded owner page)
    (last : Page) (dirty : Bool) : .discarded owner last dirty ∉ journal := by
  have unnoted (same : after.journal = before.journal) : .discarded owner last dirty ∉ journal := by
    rw [List.append_left_eq_self.mp (noted.symm.trans same)]
    exact List.not_mem_nil
  have unattempted {there : Owner} {kind : PageKind} {succeeded : Bool} {image : Image}
      {transfers : List Activity} (are : ∀ activity ∈ transfers, activity.IsTransfer)
      (told : after.journal = Activity.attempted there kind succeeded image (transfers ++ before.journal)) :
      .discarded owner last dirty ∉ journal := by
    rw [noted, Activity.attempted_append, List.append_cancel_right_eq] at told
    rw [told]
    exact Activity.undiscarded_attempted are last dirty
  cases turn with
  | discarded present =>
      obtain ⟨transfers, are, told⟩ := journal_discarded before _ _
      rw [noted, List.append_cons, List.append_cancel_right_eq] at told
      rw [told]
      intro member
      rcases List.mem_append.mp member with transfer | single
      · exact are _ transfer
      · cases List.mem_singleton.mp single
        exact kept last rfl
  | claimed present absent acquires arrives =>
      obtain ⟨earlier, earlierAre, acquired⟩ := acquires.journal
      obtain ⟨flying, presentThen⟩ := (acquires.moves sound).sound sound present absent
      obtain ⟨image, transfers, _, _, are, arrived⟩ := arrives.moves flying presentThen
      rw [acquired, ← List.append_assoc transfers] at arrived
      exact @unattempted _ _ true image _ (Activity.isTransfer_append are earlierAre) arrived
  | missed present absent acquires returns =>
      obtain ⟨earlier, earlierAre, acquired⟩ := acquires.journal
      obtain ⟨flying, presentThen⟩ := (acquires.moves sound).sound sound present absent
      obtain ⟨_, transfers, are, returned⟩ := returns.moves flying presentThen
      rw [acquired, ← List.append_assoc transfers] at returned
      exact @unattempted _ _ false Image.zero _ (Activity.isTransfer_append are earlierAre) returned
  | _ => exact unnoted rfl

/-- Of a page that may not be discarded nothing tells that it was. -/
theorem Runs.undiscarded
    (runs : Runs allowed before after) (sound : before.ledger.Sound none)
    (present : before.ledger.pages owner = some page)
    (kept : ∀ new, new.Continues page → ¬ allowed (.discarded owner new))
    (noted : after.journal = journal ++ before.journal) (last : Page) (dirty : Bool) :
    .discarded owner last dirty ∉ journal := by
  induction runs generalizing journal with
  | refl =>
      rw [List.append_left_eq_self.mp noted.symm]
      exact List.not_mem_nil
  | @tail middle after deed runs permitted turn inductionHypothesis =>
      obtain ⟨earlier, notedFirst⟩ := runs.journal sound
      obtain ⟨later, accounts⟩ := turn.accounts (runs.sound sound)
      obtain ⟨new, presentThen, continues⟩ := runs.continues sound present kept
      have spared (other : Page) : deed ≠ .discarded owner other := by
        rintro rfl
        cases turn with
        | discarded presentToo =>
            cases presentThen.symm.trans presentToo
            exact kept new continues permitted
      have untold := turn.undiscarded (runs.sound sound) accounts.noted spared last dirty
      rw [accounts.noted, notedFirst, ← List.append_assoc, List.append_cancel_right_eq] at noted
      rw [← noted]
      intro member
      rcases List.mem_append.mp member with second | first
      · exact untold second
      · exact inductionHypothesis notedFirst first

/-! ## Pages of a process that goes on -/

/-- A call keeps the pages outside of every region of a process that is there afterwards. -/
theorem Orderly.keeps
    {config : Config} {events : List Event} {call : Call} {outcome : Except PagingError Answer}
    (orderly : before.Orderly config events) (run : attempt call.perform before = .ok outcome after)
    (present : before.pageOf owner = some page) (outside : page.region = none)
    (alive : after.space? owner.pid ≠ none) :
    ∃ allowed, Runs allowed before after ∧ ∀ new, new.Continues page → ¬ allowed (.discarded owner new) := by
  have exits (isExit : call = .exitProcess owner.pid) : False := by
    subst isExit
    rcases (ends_exitProcess orderly.sound).of_answered run with ⟨_, _, _, ended⟩ | ⟨_, _, _, ended⟩
    · exact alive ended.gone
    · exact alive ended.gone
  have spared (new : Page) (continues : new.Continues page) :
      ¬ call.Does before (.discarded owner new) := by
    intro does
    rcases does.discards with isExit | belongs | vacant
    · exact exits isExit
    · exact belongs (continues.region.trans outside)
    · cases vacant.symm.trans present
  rcases (orderly.performs run).2.1 with does | ⟨pid, middle, _, does, ended⟩
  · exact ⟨_, does.runs, spared⟩
  · refine ⟨fun deed => call.Does before deed ∨ deed.Ends pid,
      (does.runs.mono fun _ => Or.inl).trans (ended.ends.runs.mono fun _ => Or.inr), ?_⟩
    rintro new continues (does | ends)
    · exact spared new continues does
    · have same : owner.pid = pid := ends
      exact alive (same ▸ ended.gone)

end Pager

end DemandPaging
