import DemandPaging.Proofs.FileReads
import DemandPaging.Proofs.Handouts

/-!
# First in first out evicts in the order of assignment

The queue of the policy holds the frames that belong to a page, the one that was assigned longest ago
first. Frames come to the end of the queue when they are handed out and leave it when they become
free; a frame that changes hands leaves the queue when it is chosen and comes back at its end. Frames
that are pinned when a victim is chosen keep their places.
-/

namespace DemandPaging

namespace Fifo

/-! ## Queues in the order of assignment -/

/-- Frames stand in a list in the order in which they were last handed out, if `handouts` are the
frames that were handed out, the latest first. -/
structure InOrder (queue handouts : List Nat) : Prop where
  handed : ∀ frame ∈ queue, frame ∈ handouts
  ordered : queue.Pairwise fun first second => handouts.idxOf second < handouts.idxOf first

variable {queue handouts sub : List Nat} {frame : Nat}

theorem InOrder.nil (handouts : List Nat) : InOrder [] handouts :=
  ⟨fun _ member => absurd member List.not_mem_nil, .nil⟩

theorem InOrder.sublist (inOrder : InOrder queue handouts) (sublist : sub.Sublist queue) :
    InOrder sub handouts :=
  ⟨fun frame member => inOrder.handed frame (sublist.subset member),
    inOrder.ordered.sublist sublist⟩

/-- The frame that was handed out last stands last. -/
theorem InOrder.append (inOrder : InOrder queue handouts) (absent : frame ∉ queue) :
    InOrder (queue ++ [frame]) (frame :: handouts) := by
  have other {waiting : Nat} (member : waiting ∈ queue) :
      (frame :: handouts).idxOf waiting = handouts.idxOf waiting + 1 :=
    List.idxOf_cons_ne _ fun same => absent (same ▸ member)
  refine ⟨fun waiting member => ?_, List.pairwise_append.mpr ⟨?_, List.pairwise_singleton .., ?_⟩⟩
  · rcases List.mem_append.mp member with earlier | last
    · exact List.mem_cons_of_mem _ (inOrder.handed waiting earlier)
    · rw [List.mem_singleton.mp last]
      exact List.mem_cons_self
  · refine inOrder.ordered.imp_of_mem fun first second order => ?_
    rw [other first, other second]
    exact Nat.succ_lt_succ order
  · intro waiting member last isLast
    rw [List.mem_singleton.mp isLast, other member, List.idxOf_cons_self]
    exact Nat.succ_pos _

/-- The first frame in a queue that may be chosen is chosen, and the others keep their order. -/
theorem select_eq_some
    {fifo : Fifo} {candidates : Candidates} {victim : Nat} (nodup : fifo.queue.Nodup)
    (chosen : (fifo.select candidates).1 = some victim) :
    ∃ skipped rest, fifo.queue = skipped ++ victim :: rest ∧
      (∀ frame ∈ skipped, candidates.evictable frame = false) ∧
      (fifo.select candidates).2 = ⟨skipped ++ rest⟩ := by
  obtain ⟨_, _, left⟩ := select_evictable chosen
  unfold select at chosen
  split at chosen
  · cases chosen
  · rename_i found
    cases chosen
    obtain ⟨_, skipped, rest, split, spared⟩ := List.find?_eq_some_iff_append.mp found
    refine ⟨skipped, rest, split, fun frame member => by simpa using spared frame member, ?_⟩
    rw [split] at nodup
    have unskipped : victim ∉ skipped := fun member =>
      (List.nodup_append.mp nodup).2.2 victim member victim List.mem_cons_self rfl
    rw [left, split, List.erase_append_right _ unskipped, List.erase_cons_head]

end Fifo

/-! ## What becomes of the policy -/

namespace Ledger

variable {ledger after : Ledger} {owner : Owner} {page : Page} {frame : Nat} {image : Image}

theorem Arrives.policy (arrives : ledger.Arrives owner page frame image after) :
    after.policy = ledger.policy := by
  cases arrives <;> rfl

theorem Returns.policy (returns : ledger.Returns frame after) :
    after.policy = ledger.policy.released frame := by
  cases returns
  rfl

theorem Discards.policy (discards : ledger.Discards owner page after) :
    after.policy = ledger.policy ∨ ∃ frame, after.policy = ledger.policy.released frame := by
  cases discards with
  | untouched => exact Or.inl rfl
  | swapped => exact Or.inl rfl
  | resident => exact Or.inr ⟨_, rfl⟩

end Ledger

/-! ## The queue of a pager -/

namespace Pager

variable {before held after pager : Pager} {deed : Deed} {allowed : Deed → Prop} {owner : Owner}
  {page : Page} {frame : Nat} {queue : List Nat}

/-- The policy is first in first out with a queue that holds the frames that belong to a page, each
once, in the order of their latest assignment. -/
structure Queues (pager : Pager) (queue : List Nat) : Prop where
  policy : pager.frames.policy = .fifo ⟨queue⟩
  once : queue.Nodup
  owned : ∀ frame, frame ∈ queue ↔ pager.ledger.owners frame ≠ none
  inOrder : Fifo.InOrder queue pager.handouts

/-- Whatever is sound keeps track of the frames in use, so only the order is to be shown. -/
theorem queues_of_inOrder
    (sound : pager.ledger.Sound none) (policy : pager.ledger.policy = .fifo ⟨queue⟩)
    (inOrder : Fifo.InOrder queue pager.handouts) : pager.Queues queue := by
  have tracked := sound.tracked
  rw [policy] at tracked
  exact ⟨policy, tracked.1, tracked.2, inOrder⟩

/-! ## Evictions -/

theorem policy_writeBack (pager : Pager) (owner : Owner) (range : FileRange) (frame : Nat) :
    (pager.writeBack owner range frame).frames.policy = pager.frames.policy := by
  unfold writeBack
  split <;> rfl

theorem Saves.policy {saved : Pager} (saves : before.Saves owner page frame saved) :
    saved.frames.policy = before.frames.policy := by
  cases saves with
  | toSlot => rfl
  | toFile => exact before.policy_writeBack ..

/-- Without free frames the policy chooses the frame, and is told of its next owner. -/
theorem Acquires.chosen
    (acquires : before.Acquires owner frame held) (full : before.frames.free = []) :
    (before.frames.policy.select before.candidates).1 = some frame ∧
      held.frames.policy = (before.frames.policy.select before.candidates).2.2.acquired frame := by
  cases acquires with
  | free taken =>
      rw [FramePool.takeFree?, full] at taken
      cases taken
  | evicted full chosen present resident saves =>
      exact ⟨chosen, congrArg (Policy.acquired · frame) saves.policy⟩

/-- A frame changes hands that belongs to a page and is not pinned, and that was assigned before all
other such frames. The frames in front of it in the queue are pinned; they keep their places, the
others their order, and the frame comes to the end. -/
structure EvictsLongestAssigned (moment held : Pager) (frame : Nat) : Prop where
  owned : moment.ledger.owners frame ≠ none
  unpinned : moment.ledger.pinned frame = false
  longest : ∀ other, other ≠ frame → moment.ledger.owners other ≠ none →
    moment.ledger.pinned other = false →
      moment.handouts.idxOf other < moment.handouts.idxOf frame
  queue : ∃ skipped rest, moment.frames.policy = .fifo ⟨skipped ++ frame :: rest⟩ ∧
    (∀ other ∈ skipped, moment.ledger.pinned other = true) ∧
      held.frames.policy = .fifo ⟨skipped ++ rest ++ [frame]⟩

/-- Frames that belong to a page and may not be chosen are pinned. -/
theorem Queues.pinned_of_spared
    (queues : pager.Queues queue) (member : frame ∈ queue)
    (spared : pager.candidates.evictable frame = false) : pager.ledger.pinned frame = true := by
  obtain ⟨owner, owned⟩ := Option.ne_none_iff_exists'.mp ((queues.owned frame).mp member)
  cases pinned : pager.ledger.pinned frame with
  | true => rfl
  | false =>
      rw [pager.evictable_of_unpinned owned pinned] at spared
      cases spared

theorem Queues.evicts
    (queues : before.Queues queue) (acquires : before.Acquires owner frame held)
    (full : before.frames.free = []) : before.EvictsLongestAssigned held frame := by
  obtain ⟨chosen, policy⟩ := acquires.chosen full
  obtain ⟨unpinned, victim, owned⟩ := before.candidates_evictable (Policy.select_evictable chosen)
  rw [queues.policy] at chosen policy
  obtain ⟨skipped, rest, split, spared, left⟩ := Fifo.select_eq_some queues.once chosen
  dsimp only at split
  subst split
  have pinned : ∀ other ∈ skipped, before.ledger.pinned other = true := fun other member =>
    queues.pinned_of_spared (List.mem_append_left _ member) (spared other member)
  refine ⟨by simp [owned], unpinned, fun other different otherOwned free => ?_,
    skipped, rest, queues.policy, pinned, ?_⟩
  · have member := (queues.owned other).mpr otherOwned
    rcases List.mem_append.mp member with inFront | behind
    · rw [pinned other inFront] at free
      cases free
    · have later : other ∈ rest := (List.mem_cons.mp behind).resolve_left different
      have order := (List.pairwise_append.mp queues.inOrder.ordered).2.1
      exact (List.pairwise_cons.mp order).1 other later
  · rw [policy]
    simp only [Policy.select, left, Policy.acquired, Fifo.acquired]

/-! ## Turns and runs -/

/-- A frame that is handed out comes to the end of the queue. -/
theorem Queues.acquires
    (queues : before.Queues queue) (sound : before.ledger.Sound none)
    (acquires : before.Acquires owner frame held) :
    ∃ next, held.ledger.policy = .fifo ⟨next⟩ ∧ Fifo.InOrder next held.handouts := by
  rw [acquires.handouts]
  by_cases full : before.frames.free = []
  · obtain ⟨skipped, rest, policy, _, afterwards⟩ := (queues.evicts acquires full).queue
    have same : queue = skipped ++ frame :: rest := by
      simpa using queues.policy.symm.trans policy
    have once := queues.once
    rw [same] at once
    refine ⟨skipped ++ rest ++ [frame], afterwards, Fifo.InOrder.append ?_ ?_⟩
    · refine queues.inOrder.sublist ?_
      rw [same]
      exact (List.sublist_cons_self frame rest).append_left skipped
    · exact fun member => (List.nodup_middle.mp once).notMem member
  · cases acquires with
    | evicted none => exact absurd none full
    | free taken =>
        obtain ⟨rest, first, handed⟩ := ledger_takeFree taken
        obtain ⟨inside, free⟩ := (sound.listed.mem_free frame).mp (by simp [first])
        have unqueued : frame ∉ queue := fun member => (queues.owned frame).mp member free
        refine ⟨queue ++ [frame], ?_, queues.inOrder.append unqueued⟩
        rw [ledger_note, handed inside]
        exact congrArg (Policy.acquired · frame) queues.policy

/-- A frame that becomes free leaves the queue, wherever it stands. -/
theorem inOrder_released
    {handouts : List Nat} (inOrder : Fifo.InOrder queue handouts) (frame : Nat) :
    Fifo.InOrder (Fifo.released ⟨queue⟩ frame).queue handouts :=
  inOrder.sublist List.filter_sublist

theorem Queues.turn
    (queues : before.Queues queue) (sound : before.ledger.Sound none)
    (turn : Turn deed before after) : ∃ next, after.Queues next := by
  have soundThen := turn.sound sound
  have still (policy : after.ledger.policy = before.ledger.policy)
      (handouts : after.handouts = before.handouts) : ∃ next, after.Queues next := by
    refine ⟨queue, queues_of_inOrder soundThen (policy.trans queues.policy) ?_⟩
    rw [handouts]
    exact queues.inOrder
  cases turn with
  | discarded present =>
      rename_i owner page
      have handouts := before.handouts_discarded owner page
      rcases (ledger_discarded sound present).policy with same | ⟨frame, released⟩
      · exact still same handouts
      · refine ⟨_, queues_of_inOrder soundThen
          (released.trans (congrArg (Policy.released · frame) queues.policy)) ?_⟩
        rw [handouts]
        exact inOrder_released queues.inOrder frame
  | claimed present absent acquires arrives =>
      obtain ⟨flying, presentThen⟩ := (acquires.moves sound).sound sound present absent
      obtain ⟨next, policy, inOrder⟩ := queues.acquires sound acquires
      obtain ⟨_, _, arrived, _⟩ := arrives.moves flying presentThen
      rw [← arrives.handouts] at inOrder
      exact ⟨next, queues_of_inOrder soundThen (arrived.policy.trans policy) inOrder⟩
  | missed present absent acquires returns =>
      rename_i held page frame
      obtain ⟨flying, presentThen⟩ := (acquires.moves sound).sound sound present absent
      obtain ⟨next, policy, inOrder⟩ := queues.acquires sound acquires
      have returned := (returns.moves flying presentThen).1.policy
      rw [policy] at returned
      rw [← returns.handouts] at inOrder
      exact ⟨_, queues_of_inOrder soundThen returned
        (inOrder_released inOrder frame)⟩
  | _ => exact still rfl rfl

theorem Queues.runs
    (queues : before.Queues queue) (sound : before.ledger.Sound none)
    (runs : Runs allowed before after) : ∃ next, after.Queues next := by
  induction runs with
  | refl => exact ⟨queue, queues⟩
  | tail runs _ turn inductionHypothesis =>
      obtain ⟨next, meanwhile⟩ := inductionHypothesis
      exact meanwhile.turn (runs.sound sound) turn

end Pager

/-! ## Histories -/

variable {config : Config} {device : Device} {files : FileTable} {events : List Event}
  {before : Pager}

theorem History.queues (history : History config .fifo device files events before) :
    ∃ queue, before.Queues queue := by
  induction history with
  | start =>
      have orderly := Pager.orderly_create config .fifo device files
      exact ⟨[], Pager.queues_of_inOrder orderly.sound rfl (.nil _)⟩
  | call history run _ inductionHypothesis =>
      obtain ⟨queue, queues⟩ := inductionHypothesis
      obtain ⟨reaches, _⟩ := history.orderly.performs run
      exact queues.runs history.orderly.sound reaches.runs
  | outside history same inductionHypothesis =>
      obtain ⟨queue, queues⟩ := inductionHypothesis
      exact ⟨queue, queues.policy, queues.once, queues.owned, queues.inOrder⟩

/-- First in first out evicts in the order of assignment. In every state the queue of the policy holds
the frames that belong to a page, each once, in the order of their latest assignment, and so it does
between any two turns of a call; the policy finds a victim then whenever a frame belongs to a page and
is not pinned. Whatever comes of a call, each frame that changed hands in it was of all these frames
the one that was assigned longest ago, and no other frame changed its place among the others. No call
halts for want of a victim if there are frames at all. -/
theorem fifo_evicts_longest_assigned
    (history : History config .fifo device files events before) :
    (∃ queue, before.Queues queue) ∧
      ∀ call : Call,
        (∀ moment, Pager.Runs (call.Permits before) before moment →
          (∃ queue, moment.Queues queue) ∧
            ∀ frame, moment.ledger.owners frame ≠ none → moment.ledger.pinned frame = false →
              ∃ victim, (moment.frames.policy.select moment.candidates).1 = some victim) ∧
        (∀ owner frame rest,
          .assigned owner frame false :: rest <:+ (call.perform.leaves before).journal →
            before.journal <:+ rest →
              ∃ moment held, Pager.Runs (call.Permits before) before moment ∧
                moment.Acquires owner frame held ∧
                  held.journal = .assigned owner frame false :: rest ∧
                    moment.EvictsLongestAssigned held frame) ∧
        (call.IsAdmissible config → ∀ after,
          call.perform before = .error (.halted .noVictim) after → config.frameCount = 0) := by
  obtain ⟨queue, queues⟩ := history.queues
  have sound := history.orderly.sound
  refine ⟨⟨queue, queues⟩, fun call => ⟨fun moment runs => ⟨queues.runs sound runs, ?_⟩,
    fun owner frame rest stands new => ?_, fun admissible after halted => ?_⟩⟩
  · intro frame isOwned unpinned
    obtain ⟨owner, owned⟩ := Option.ne_none_iff_exists'.mp isOwned
    exact (runs.sound sound).tracked.select_finds isOwned (moment.evictable_of_unpinned owned unpinned)
  · obtain ⟨last, handsOut⟩ := history.orderly.handsOut call stands new
    cases handsOut with
    | «at» begun acquires noted permitted turn goesOn =>
        rename_i moment held next deed
        obtain ⟨wasFree, earlier, acquired, _, free⟩ := acquires.hands
        obtain ⟨line, lined⟩ := queues.runs sound begun
        rw [noted] at acquired
        injection acquired with sameNote
        cases sameNote
        have full : moment.frames.free = [] := by simpa using free
        exact ⟨moment, held, begun, acquires, noted, lined.evicts acquires full⟩
  · obtain ⟨sound, unpinned, tidy, same, _, _⟩ := history.orderly
    subst same
    rcases ((Pager.meets_perform sound unpinned tidy call admissible).of_halted halted).cause with
      exhausted | overflows
    · exact exhausted
    · cases overflows.isSum

/-- A process with two pages of anonymous memory, both touched. -/
def twoTouched : List Call :=
  [.createProcess 1, .allocate 1 .anonymous 4096 true, .allocate 1 .anonymous 8192 true,
    .writeUser 1 4096 #[7], .writeUser 1 8192 #[8]]

/-- With two frames the first page of a copy takes the second frame: the first, which was assigned
before it, is pinned while the page in it is copied, and stays in front. -/
theorem fifo_evicts_longest_assigned_of_fork :
    ∃ events before, History { frameCount := 2 } .fifo (Device.blank .memory 32) ⟨#[]⟩ events before ∧
      ∃ moment held, Pager.Runs ((Call.fork 1 2).Permits before) before moment ∧
        moment.Acquires ⟨2, 4096⟩ 1 held ∧ moment.EvictsLongestAssigned held 1 := by
  have ended : (((Pager.create { frameCount := 2 } .fifo (Device.blank .memory 32) ⟨#[]⟩).play []
      twoTouched).any fun result =>
        decide (.assigned ⟨2, 4096⟩ 1 false ∈
          ((Call.fork 1 2).perform.leaves result.2).journalSince result.2)) = true := by
    decide +kernel
  obtain ⟨⟨events, before⟩, played, assigned⟩ := (Option.any_eq_true ..).mp ended
  have history := History.start.play played
  obtain ⟨journal, reads⟩ := history.orderly.reads (.fork 1 2)
  obtain ⟨later, earlier, split⟩ := List.append_of_mem (of_decide_eq_true assigned)
  have stands : .assigned ⟨2, 4096⟩ 1 false :: (earlier ++ before.journal) <:+
      ((Call.fork 1 2).perform.leaves before).journal := by
    rw [Pager.journal_eq_since reads.noted, split, List.append_assoc]
    exact List.suffix_append ..
  obtain ⟨_, order⟩ := fifo_evicts_longest_assigned history
  obtain ⟨moment, held, runs, acquires, _, evicts⟩ :=
    (order (.fork 1 2)).2.1 _ _ _ stands (List.suffix_append ..)
  exact ⟨events, before, history, moment, held, runs, acquires, evicts⟩

end DemandPaging
