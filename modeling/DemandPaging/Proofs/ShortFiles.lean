import DemandPaging.Proofs.Fetching
import DemandPaging.Proofs.KeptPages

/-!
# Files that are too short

The first content of a page of a segment has to be complete: while the file ends before the range that the page
reads, the page is not filled, whatever is called. The page goes on waiting, so nothing of it can be seen, not
even the bytes that the file has.
-/

namespace DemandPaging

/-- What is read for a segment is as long as it should be, or the page is not filled. -/
theorem PageKind.range_of_fetch
    {swap : SwapSpace} {files : FileTable} {image : Image} {range : FileRange}
    (complete : ((pending (.segment range)).fetch swap files image).kind.isSome = true) :
    range.length ≤ files.size range.file - range.offset := by
  rcases read : files.readAt range.file range.offset range.length with ⟨after, _ | bytes⟩
  · simp only [fetch, read] at complete
    cases complete
  · simp only [fetch, read] at complete
    split at complete
    · rename_i sized
      rw [FileTable.readAt_eq_some (congrArg Prod.snd read), Array.size_extract] at sized
      rw [FileTable.size_eq]
      omega
    · cases complete

namespace Pager

open PagerM

variable {before after : Pager} {allowed : Deed → Prop} {deed : Deed} {owner : Owner} {page : Page}
  {range : FileRange}

/-- Whether a page waits for a range of a file that reaches behind the end of the file. -/
structure WaitsInVain (pager : Pager) (owner : Owner) (page : Page) (range : FileRange) : Prop where
  present : pager.pageOf owner = some page
  pending : page.kind = .pending (.segment range)
  short : (pager.files.content range.file).size - range.offset < range.length

/-- Where a page of a segment gets a frame, its file reaches as far as the page. -/
theorem Turn.range_of_claimed
    (turn : Turn (.claimed owner) before after) (sound : before.ledger.Sound none)
    (present : before.pageOf owner = some page) (pending : page.kind = .pending (.segment range)) :
    range.length ≤ before.files.size range.file - range.offset := by
  cases turn with
  | claimed presentToo absent acquires arrives =>
      cases present.symm.trans presentToo
      obtain ⟨flying, presentThen⟩ := (acquires.moves sound).sound sound present absent
      obtain ⟨image, _, _, ⟨_, complete⟩, _⟩ := arrives.moves flying presentThen
      rw [pending] at complete
      rw [← acquires.readsAs.size]
      exact PageKind.range_of_fetch complete

/-- No file gets longer or shorter. -/
theorem Runs.size_content
    (runs : Runs allowed before after) (sound : before.ledger.Sound none) (tidy : before.Tidy) (file : FileId) :
    (after.files.content file).size = (before.files.content file).size :=
  (@Runs.changedWithin allowed before after (fun _ => True) runs sound tidy
    fun _ _ _ _ _ => trivial).size file

/-- A page that waits for more than its file has goes on waiting for it. -/
theorem WaitsInVain.of_runs
    (waits : before.WaitsInVain owner page range) (runs : Runs allowed before after)
    (sound : before.ledger.Sound none) (tidy : before.Tidy) (kept : ¬ allowed (.discarded owner page)) :
    after.WaitsInVain owner page range := by
  refine ⟨?_, waits.pending, by rw [runs.size_content sound tidy]; exact waits.short⟩
  induction runs with
  | refl => exact waits.present
  | @tail middle after deed runs permitted turn inductionHypothesis =>
      refine (turn.step (runs.sound sound)).waits (runs.sound sound) inductionHypothesis waits.pending ?_ ?_
      · rintro rfl
        exact kept permitted
      · rintro rfl
        have reaches := turn.range_of_claimed (runs.sound sound) inductionHypothesis waits.pending
        rw [FileTable.size_eq, runs.size_content sound tidy] at reaches
        exact absurd waits.short (Nat.not_lt.mpr reaches)

/-- No call fills it, as long as its process is there. -/
theorem WaitsInVain.of_run
    {config : Config} {events : List Event} {call : Call} {outcome : Except PagingError Answer}
    (waits : before.WaitsInVain owner page range) (orderly : before.Orderly config events)
    (run : attempt call.perform before = .ok outcome after) (outside : page.region = none)
    (alive : after.space? owner.pid ≠ none) : after.WaitsInVain owner page range := by
  obtain ⟨allowed, runs, kept⟩ := orderly.keeps run waits.present outside alive
  exact waits.of_runs runs orderly.sound orderly.tidy (kept page (.refl page))

/-- A claim of it fails, unless there is no frame to be had. -/
theorem WaitsInVain.claim
    {pid : Pid} {va : Nat} (waits : before.WaitsInVain ⟨pid, pageBase va⟩ page range)
    (ready : before.Ready) (tidy : before.Tidy) (absent : page.frame = none) :
    (∃ after, (Call.claim pid va).perform before = .error (.failed (.io (pageBase va))) after ∧
        after.WaitsInVain ⟨pid, pageBase va⟩ page range) ∨
      ∃ halt after, (Call.claim pid va).perform before = .error (.halted halt) after ∧
        before.ledger.free = [] ∧ after.Exhausted before.config.frameCount halt := by
  have sound := ready.sound
  rcases (ends_call_claim ready pid va).outcome with
    ⟨_, after, _, _, claimed⟩ | ⟨error, after, run, fails⟩ | ⟨halt, after, run, exhausted⟩
  · exfalso
    cases claimed with
    | resident presentToo resident =>
        cases waits.present.symm.trans presentToo
        cases absent.symm.trans resident
    | fetched _ _ turn =>
        have reaches := turn.range_of_claimed sound waits.present waits.pending
        rw [FileTable.size_eq] at reaches
        exact absurd waits.short (Nat.not_lt.mpr reaches)
  · obtain ⟨rfl, missed⟩ := fails.misses waits.present
    refine Or.inl ⟨after, run, ?_⟩
    exact waits.of_runs (.single rfl missed) sound tidy fun discards => by cases discards
  · exact Or.inr ⟨halt, after, run, exhausted⟩

end Pager

end DemandPaging
