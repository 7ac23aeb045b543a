import DemandPaging.Proofs.HandleBalance
import DemandPaging.Proofs.HeedingCalls

/-!
# Programs that keep handles in balance

A program that opens a handle records it with a page or a region, or closes it again before it ends; it
never loses one, whether it answers or fails. A handle that is in hand between two steps counts as loose.
-/

namespace DemandPaging

namespace PagerM

open Pager

variable {α β : Type} {program : PagerM α} {next : α → PagerM β} {before : Pager}
  {failed loose : FileId → Nat} {middle : α → FileId → Nat} {answered : β → FileId → Nat}
  {allowed : Deed → Prop} {answers : α → Pager → Prop} {fails : PagingError → Pager → Prop}

/-- Whether a program answers or fails, the handles balance; which of them are loose may depend on its
answer. -/
def settling (answered : α → FileId → Nat) (failed : FileId → Nat) : Ending α :=
  ⟨fun answer after => after.Balances (answered answer), fun _ after => after.Balances failed,
    fun _ _ => True⟩

/-- The same if the program leaves the loose handles as they are. -/
def balancing (loose : FileId → Nat) : Ending α :=
  settling (fun _ => loose) loose

/-- A program may go on with the handles that another left to it, and with all that is known of it. -/
theorem settling_bind_of
    (known : program.Meets before (Proceeds allowed before answers fails))
    (first : program.Meets before (settling middle failed))
    (rest : ∀ answer after, Reaches allowed before after → answers answer after →
      after.Balances (middle answer) → (next answer).Meets after (settling answered failed)) :
    (program >>= next).Meets before (settling answered failed) :=
  (meets_bind ..).mpr ((known.and first).mono
    (fun answer after ⟨⟨reaches, holds⟩, balances⟩ => rest answer after reaches holds balances)
    (fun _ _ => And.right) fun _ _ _ => trivial)

theorem settling_bind
    (first : program.Meets before (settling middle failed))
    (rest : ∀ answer after, after.Balances (middle answer) →
      (next answer).Meets after (settling answered failed)) :
    (program >>= next).Meets before (settling answered failed) :=
  (meets_bind ..).mpr (first.mono rest (fun _ _ => id) fun _ _ => id)

/-- A program may go on when another failed. -/
theorem settling_attempt
    {next : Except PagingError α → PagerM β} {broken : FileId → Nat}
    (first : program.Meets before (settling middle broken))
    (answer : ∀ answer after, after.Balances (middle answer) →
      (next (.ok answer)).Meets after (settling answered failed))
    (failure : ∀ error after, after.Balances broken →
      (next (.error error)).Meets after (settling answered failed)) :
    (attempt program >>= next).Meets before (settling answered failed) :=
  (meets_bind ..).mpr ((meets_attempt ..).mpr (first.mono answer failure fun _ _ => id))

theorem settling_attempt_of
    {next : Except PagingError α → PagerM β} {broken : FileId → Nat}
    (known : program.Meets before (Proceeds allowed before answers fails))
    (first : program.Meets before (settling middle broken))
    (answer : ∀ answer after, Reaches allowed before after → answers answer after →
      after.Balances (middle answer) → (next (.ok answer)).Meets after (settling answered failed))
    (failure : ∀ error after, Reaches allowed before after → after.Balances broken →
      (next (.error error)).Meets after (settling answered failed)) :
    (attempt program >>= next).Meets before (settling answered failed) :=
  (meets_bind ..).mpr ((meets_attempt ..).mpr ((known.and first).mono
    (fun result after ⟨⟨reaches, holds⟩, balances⟩ => answer result after reaches holds balances)
    (fun error after ⟨⟨reaches, _⟩, balances⟩ => failure error after reaches balances)
    fun _ _ _ => trivial))

/-- A program that only looks may come first. -/
theorem settling_after_look
    (still : program.IsStill) (balances : before.Balances failed)
    (rest : ∀ answer, (next answer).Meets before (settling answered failed)) :
    (program >>= next).Meets before (settling answered failed) :=
  (meets_bind ..).mpr ((still before).mono (fun answer _ same => same ▸ rest answer)
    (fun _ _ same => same ▸ balances) fun _ _ _ => trivial)

theorem settling_insist
    {next : Unit → PagerM β} {holds : Bool} {assertion : Assertion}
    (rest : (next ⟨⟩).Meets before (settling answered failed)) :
    (insist holds assertion >>= next).Meets before (settling answered failed) :=
  (meets_bind ..).mpr ((meets_insist ..).mpr ⟨fun _ => rest, fun _ => trivial⟩)

theorem balancing_of_still (still : program.IsStill) (balances : before.Balances loose) :
    program.Meets before (balancing loose) :=
  (still before).mono (fun _ _ same => same ▸ balances) (fun _ _ same => same ▸ balances)
    fun _ _ _ => trivial

/-- A program that serves a process closes the handles that the process gives up. -/
theorem balancing_of_amends
    {pid : Pid} (meets : program.Meets before (Proceeds allowed before answers fails))
    (amends : ∀ deed, allowed deed → deed.Amends pid) (sound : before.ledger.Sound none)
    (balances : before.Balances loose) : program.Meets before (balancing loose) :=
  meets.mono
    (fun _ _ ⟨reaches, _⟩ => balances.givesUp (reaches.runs.givesUp sound amends))
    (fun _ _ ⟨reaches, _⟩ => balances.givesUp (reaches.runs.givesUp sound amends))
    fun _ _ _ => trivial

end PagerM

namespace Pager

open PagerM

variable {before pager : Pager} {pid parent child : Pid} {page : Page} {region : Region} {va : Nat}
  {loose : FileId → Nat}

theorem settling_reopenFile (balances : before.Balances loose) (file : FileId) (failed : FileId → Nat) :
    (reopenFile file).Meets before
      (settling (fun opened => bif opened then loose + inHand (some file) else loose) failed) :=
  (meets_reopenFile ..).mpr (balances.reopen file)

/-! ## Pages -/

/-- A page that is added holds its handle. -/
theorem handleAt_insertPage
    {space : AddressSpace} (found : pager.space? pid = some space) (page : Page) :
    (pager.modifySpace pid fun space => { space with
        pages := space.pages.insert page.va page }).handleAt =
      Function.update pager.handleAt (.page ⟨pid, page.va⟩) page.kind.handle? := by
  have shown := pager.ledger_insertPage pid found page
  have layout : (pager.modifySpace pid fun space => { space with
      pages := space.pages.insert page.va page }).layout? = pager.layout? :=
    layout?_modifySpace fun _ => rfl
  generalize pager.modifySpace pid _ = after at *
  have presentThen : after.ledger.pages ⟨pid, page.va⟩ = some page := by
    rw [shown]
    exact Function.update_self ..
  have given := @handleAt_update pager after ⟨pid, page.va⟩ layout fun other apart => by
    rw [handleAt, handleAt, shown]
    exact congrArg (Option.bind · _) (Function.update_of_ne apart ..)
  rw [given, handleAt_page presentThen]

/-- A page that is not added leaves its handle in hand. -/
theorem settling_insertPage (balances : before.Balances (loose + inHand page.kind.handle?)) :
    (insertPage pid page).Meets before
      (settling (fun _ => loose) (loose + inHand page.kind.handle?)) := by
  refine settling_after_look (still_checkUserAddress _) balances fun _ => ?_
  rw [meets_bind, meets_requireSpace]
  cases found : before.space? pid with
  | none => exact balances
  | some space =>
      dsimp only
      split
      · exact balances
      · rename_i free
        have vacant : before.ledger.pages ⟨pid, page.va⟩ = none := by
          rw [← pages_of_space found]
          simpa using free
        exact balances.take (handleAt_of_vacant vacant) (handleAt_insertPage found page) rfl

/-- A page holds the handle in hand, or the handle is closed. -/
theorem balancing_reservePage (balances : before.Balances (loose + inHand page.kind.handle?)) :
    (reservePage pid page).Meets before (balancing loose) := by
  refine settling_insist (settling_insist ?_)
  apply settling_attempt (settling_insertPage balances)
  · exact fun _ _ reserved => reserved
  · exact fun _ _ kept => kept.closeHandle

/-- Zeros need no handle. -/
theorem balancing_reserveZeros
    (balances : before.Balances loose) (zero : page.kind = .pending .zero) :
    (reservePage pid page).Meets before (balancing loose) := by
  apply balancing_reservePage
  rw [zero]
  exact balances

theorem balancing_allocate
    (balances : before.Balances loose) (pid : Pid) (type : PageType) (va : Nat) (writable : Bool) :
    (allocate pid type va writable).Meets before (balancing loose) := by
  cases type with
  | anonymous => exact balancing_reserveZeros balances rfl
  | file => exact balances

theorem balancing_claim
    (balances : before.Balances loose) (ready : before.Ready) (pid : Pid) (address : Nat) :
    (claim pid address).Meets before (balancing loose) :=
  balancing_of_amends (serves_claim ready pid address) (fun _ => Deed.Serves.amends) ready.sound balances

/-! ## Segments and the stack -/

theorem settling_segmentLoad
    (balances : before.Balances loose) (file : FileId) (va offset left : Nat) :
    (segmentLoad file va offset left).Meets before
      (settling (fun load => loose + inHand (PageKind.pending load).handle?) loose) := by
  unfold segmentLoad
  split
  · exact balances
  · apply settling_bind (settling_reopenFile balances file loose)
    intro opened middle settled
    cases opened with
    | true => exact settled
    | false => exact settled

/-- Each page of a segment gets a handle of its own, and the pages before a failure keep theirs. -/
theorem balancing_reserveSegment
    (balances : before.Balances loose) (pid : Pid) (file : FileId) (writable : Bool)
    (pages va offset left : Nat) :
    (reserveSegment pid file writable pages va offset left).Meets before (balancing loose) := by
  induction pages generalizing before va offset left with
  | zero => exact balances
  | succ pages inductionHypothesis =>
      apply settling_bind (settling_segmentLoad balances file va offset left)
      intro load middle inHand
      apply settling_bind (balancing_reservePage inHand)
      intro _ after reserved
      refine settling_after_look (still_addWords _ _) reserved fun _ => ?_
      split
      · exact reserved
      · exact inductionHypothesis reserved ..

theorem balancing_loadSegment
    (balances : before.Balances loose) (pid : Pid) (file : FileId) (segment : Segment) :
    (loadSegment pid file segment).Meets before (balancing loose) := by
  unfold loadSegment
  split
  · exact balances
  · iterate 3 (split; exact balances)
    exact balancing_reserveSegment balances ..

theorem balancing_setStackPointer (balances : before.Balances loose) (pid : Pid) (address : Nat) :
    (setStackPointer pid address).Meets before (balancing loose) :=
  settling_after_look (still_requireSpace pid) balances fun _ =>
    balances.congr (handleAt_modifySpace pid (fun _ => rfl) fun _ => rfl) rfl

theorem balancing_setupStack
    (balances : before.Balances loose) (ready : before.Ready) (pid : Pid)
    (has : before.config.HasStackPage) :
    (setupStack pid).Meets before (balancing loose) := by
  refine meets_setupStack_of_bottom has fun bottom bottomAligned => ?_
  apply settling_bind_of (meets_reservePage ready.sound bottomAligned readLength_zero rfl rfl)
    (balancing_reserveZeros balances rfl)
  intro _ reserved reaches _ balanced
  apply settling_bind (balancing_claim balanced (reaches.ready ready) pid bottom)
  intro _ claimed balanced
  exact settling_after_look (still_requireSpace pid) balanced fun _ =>
    balanced.congr (handleAt_modifySpace pid (fun _ => rfl) fun _ => rfl) rfl

/-! ## Processes -/

theorem handleAt_createProcess (absent : pager.space? pid = none) (stackTop : Nat) :
    handleAt { pager with spaces := pager.spaces.insert pid (AddressSpace.empty stackTop) } =
      pager.handleAt := by
  have created : ({ pager with spaces := pager.spaces.insert pid (AddressSpace.empty stackTop) } :
      Pager).space? pid = some (AddressSpace.empty stackTop) := by
    simp [space?]
  funext holder
  by_cases own : holder.pid = pid
  · subst own
    rw [handleAt_of_absent absent]
    cases holder with
    | page owner => exact handleAt_of_vacant (pages_of_space created owner.va).symm
    | region pid base => exact congrArg (Option.map Region.file) (region?_of_space created base)
  · apply handleAt_congr
    simp [space?, Std.ExtTreeMap.getElem?_insert, Ne.symm own]

theorem balancing_createProcess (balances : before.Balances loose) (pid : Pid) :
    (createProcess pid).Meets before (balancing loose) := by
  rw [createProcess, meets_bind, meets_get]
  dsimp only
  split
  · exact balances
  · rename_i free
    have absent : before.space? pid = none := by simpa [space?] using free
    exact balances.congr (handleAt_createProcess absent _) rfl

/-- A process that ends closes all handles that it held. -/
theorem balancing_exitProcess
    (balances : before.Balances loose) (sound : before.ledger.Sound none) (pid : Pid) :
    (exitProcess pid).Meets before (balancing loose) :=
  (meets_exitProcess sound).mono (fun _ _ ⟨_, _, _, given⟩ => balances.givesUp given)
    (fun _ _ ⟨_, _, _, _, same⟩ => same ▸ balances) fun _ _ _ => trivial

/-! ## Mappings -/

/-- Regions hold handles apart from each other. -/
theorem handleAt_update_region
    {after : Pager} {base : Nat} (pages : after.ledger.pages = before.ledger.pages)
    (regions : ∀ other start, (other, start) ≠ (pid, base) →
      after.region? other start = before.region? other start) :
    after.handleAt = Function.update before.handleAt (.region pid base)
      (after.handleAt (.region pid base)) := by
  funext holder
  by_cases here : holder = .region pid base
  · rw [here, Function.update_self]
  · rw [Function.update_of_ne here]
    cases holder with
    | page owner => rw [handleAt, handleAt, pages]
    | region other start =>
        have apart : (other, start) ≠ (pid, base) := by
          rintro ⟨⟩
          exact here rfl
        rw [handleAt, handleAt, regions other start apart]

theorem region?_modifySpace_of_ne
    {change : AddressSpace → AddressSpace} {base other start : Nat}
    (kept : ∀ space start, start ≠ base → (change space).regions[start]? = space.regions[start]?)
    (apart : (other, start) ≠ (pid, base)) :
    (pager.modifySpace pid change).region? other start = pager.region? other start := by
  rw [region?, region?, layout?, layout?, space?_modifySpace]
  split
  · rename_i same
    subst same
    cases pager.space? pid with
    | none => rfl
    | some space => exact kept space start fun same => apart (by rw [same])
  · rfl

theorem handleAt_eraseRegion (pager : Pager) (pid : Pid) (base : Nat) :
    (pager.eraseRegion pid base).handleAt =
      Function.update pager.handleAt (.region pid base) none := by
  have gone : (pager.eraseRegion pid base).handleAt (.region pid base) = none := by
    rw [handleAt, region?_eraseRegion]
    rfl
  rw [← gone]
  apply handleAt_update_region
  · exact pager.shown_modifySpace_of_same pid fun _ _ => rfl
  · intro other start apart
    apply region?_modifySpace_of_ne _ apart
    intro space start apart
    simp [Std.ExtTreeMap.getElem?_erase, Ne.symm apart]

theorem handleAt_insertRegion
    {space : AddressSpace} (found : pager.space? pid = some space) (region : Region) :
    (pager.insertRegion pid region).handleAt =
      Function.update pager.handleAt (.region pid region.base) (some region.file) := by
  have recorded : (pager.insertRegion pid region).handleAt (.region pid region.base) =
      some region.file := by
    rw [handleAt, region?_insertRegion found]
    rfl
  rw [← recorded]
  apply handleAt_update_region
  · exact pager.shown_modifySpace_of_same pid fun _ _ => rfl
  · intro other start apart
    apply region?_modifySpace_of_ne _ apart
    intro space start apart
    simp [Std.ExtTreeMap.getElem?_insert, Ne.symm apart]

/-- Pages that are discarded close their handles, and discarding them does not fail. -/
theorem settling_discardMapped
    (balances : before.Balances loose) (sound : before.ledger.Sound none) (pid : Pid)
    (region : Region) (indices : List Nat) (failed : FileId → Nat) :
    (discardMapped pid region indices).Meets before (settling (fun _ => loose) failed) := by
  induction indices generalizing before with
  | nil => exact balances
  | cons index rest inductionHypothesis =>
      simp only [discardMapped, meets_bind, meets_get]
      have same := before.page?_eq pid (region.base + index * pageSize)
      cases found : before.page? pid (region.base + index * pageSize) with
      | none => exact inductionHypothesis balances sound
      | some page =>
          rw [found] at same
          have present : before.ledger.pages ⟨pid, page.va⟩ = some page := by
            rw [(sound.placed _ page same.symm).va]
            exact same.symm
          dsimp only
          split
          · rw [meets_bind, meets_discardPage sound present]
            exact inductionHypothesis (balances.givesUp (givesUp_discarded sound present))
              ((Turn.discarded present).sound sound)
          · exact inductionHypothesis balances sound

/-- A region that is removed closes its handle after those of its pages. -/
theorem balancing_unmap
    (balances : before.Balances loose) (sound : before.ledger.Sound none) (pid : Pid) (base : Nat) :
    (unmap pid base).Meets before (balancing loose) := by
  rw [unmap, meets_bind, meets_requireSpace]
  cases found : before.space? pid with
  | none => exact balances
  | some space =>
      have recorded := region?_of_space found base
      dsimp only
      cases held : space.regions[base]? with
      | none => exact balances
      | some region =>
          rw [held] at recorded
          have holds : before.handleAt (.region pid base) = some region.file := by
            rw [handleAt, recorded]
            rfl
          have given := before.handleAt_eraseRegion pid base
          have gone : (before.eraseRegion pid base).handleAt (.region pid base) = none := by
            rw [given, Function.update_self]
          have inHand := balances.leave gone given rfl
          rw [holds] at inHand
          have erasedSound := (turn_eraseRegion before pid base).sound sound
          dsimp only
          rw [meets_bind, meets_modify]
          exact settling_bind (settling_discardMapped inHand erasedSound pid region _ _)
            fun _ _ discarded => discarded.close

/-- The handles of pages that are made and not reserved yet. -/
def inHandFor (pages : List Page) : FileId → Nat :=
  (pages.map fun page => inHand page.kind.handle?).sum

theorem inHandFor_cons (page : Page) (rest : List Page) :
    inHandFor (page :: rest) = inHand page.kind.handle? + inHandFor rest :=
  List.sum_cons

theorem Balances.closeHandles {pages : List Page} (balances : pager.Balances (loose + inHandFor pages)) :
    (pages.foldl Pager.closeHandle pager).Balances loose := by
  induction pages generalizing pager with
  | nil => exact balances
  | cons page rest inductionHypothesis =>
      rw [inHandFor_cons, add_left_comm, add_comm] at balances
      exact inductionHypothesis balances.closeHandle

/-- Each page of a mapping is made with a handle of its own. -/
theorem settling_makePages
    (balances : before.Balances loose) (region : Region) (length fileSize : Nat) (writable : Bool)
    (pages index : Nat) :
    (makePages region length fileSize writable pages index).Meets before
      (settling (fun made => loose + inHandFor made) loose) := by
  induction pages generalizing before loose index with
  | zero => exact balances
  | succ pages inductionHypothesis =>
      rw [makePages]
      refine settling_after_look (still_subtractWords _ _) balances fun left => ?_
      apply settling_bind (settling_reopenFile balances region.file loose)
      intro opened middle settled
      cases opened with
      | false => exact settled
      | true =>
          apply settling_attempt (inductionHypothesis settled (index + 1))
          · intro rest after made
            rw [cond_true, add_assoc] at made
            exact made
          · exact fun _ _ kept => kept.close

/-- Pages that are reserved keep their handles, and those that are not lose them. -/
theorem balancing_reservePages {pages : List Page} (balances : before.Balances (loose + inHandFor pages)) :
    (reservePages pid pages).Meets before (balancing loose) := by
  induction pages generalizing before with
  | nil => exact balances
  | cons page rest inductionHypothesis =>
      rw [inHandFor_cons, add_left_comm, add_comm] at balances
      apply settling_attempt (balancing_reservePage balances)
      · exact fun _ _ reserved => inductionHypothesis reserved
      · exact fun _ _ kept => kept.closeHandles

theorem balancing_mapPages
    (balances : before.Balances loose) (pid : Pid) (base length fileSize : Nat) (writable : Bool) :
    (mapPages pid base length fileSize writable).Meets before (balancing loose) := by
  refine settling_after_look (still_requireSpace pid) balances fun space => ?_
  split
  · exact balances
  · exact settling_bind (settling_makePages balances ..) fun _ _ made => balancing_reservePages made

/-- The handle that was opened for a region goes with it, where no region is replaced. -/
theorem balancing_mapRegion
    {space : AddressSpace} {length : Nat} (balances : before.Balances (loose + inHand (some region.file)))
    (sound : before.ledger.Sound none) (found : before.space? pid = some space)
    (free : before.handleAt (.region pid region.base) = none) (aligned : pageAligned region.base = true)
    (whole : region.length = roundedLength length) (word : region.length < wordLimit)
    (fileSize : Nat) (writable : Bool) :
    (mapRegion pid region length fileSize writable).Meets before (balancing loose) := by
  have inserted := balances.take free (handleAt_insertRegion found region) rfl
  have insertedSound := (turn_insertRegion before pid region).sound sound
  have recorded := region?_insertRegion found region
  rw [mapRegion, meets_bind, meets_modify]
  apply settling_attempt_of (meets_mapPages insertedSound aligned rfl whole word recorded)
    (balancing_mapPages inserted ..)
  · exact fun _ _ _ _ made => made
  · intro error after reaches broken
    exact settling_bind (balancing_unmap broken (reaches.runs.sound insertedSound) pid region.base)
      fun _ _ unmapped => unmapped

/-- A mapping that is not made as a whole closes every handle that was opened for it. No region may start
where the mapping does, since the region would be replaced with its handle. -/
theorem balancing_map
    (balances : before.Balances loose) (sound : before.ledger.Sound none) (pid : Pid)
    (base length : Nat) (writable : Bool) (file : FileId) (offset : Nat)
    (covered : before.ledger.pages ⟨pid, base⟩ = none → before.region? pid base = none) :
    (map pid base length writable file offset).Meets before (balancing loose) := by
  rw [Pager.map]
  apply settling_bind_of (@meets_checkMapping before (fun _ => False) base length file offset)
    (balancing_of_still (still_checkMapping base length file offset) balances)
  rintro mapped middle _ ⟨same, rfl, word, placed⟩ balances
  subst same
  have aligned : pageAligned base = true := placed.aligned
  rw [meets_bind, meets_requireSpace]
  dsimp only
  cases found : middle.space? pid with
  | none => exact balances
  | some space =>
      dsimp only
      split
      · exact balances
      · rename_i apart
        rw [Bool.not_eq_true] at apart
        let region : Region := ⟨base, roundedLength length, file, offset⟩
        have vacant := @vacant_of_not_overlaps middle pid space region 0 found aligned apart
          placed.pageCount_pos
        rw [Nat.zero_mul, Nat.add_zero, pageBase_of_pageAligned aligned] at vacant
        have free : middle.handleAt (.region pid base) = none := by
          rw [handleAt, covered vacant]
          rfl
        have opened := balances.reopen file
        have openedSound := (Turn.reopened middle file).sound sound
        rw [meets_bind, meets_reopenFile]
        cases outcome : (middle.files.reopen file).2 with
        | false =>
            rw [outcome] at opened
            exact opened
        | true =>
            rw [outcome] at opened
            have maps := @balancing_mapRegion { middle with files := (middle.files.reopen file).1 } pid region
              loose space length opened openedSound found free aligned rfl ((Nat.le_add_left ..).trans_lt word)
              ((middle.files.reopen file).1.size file) writable
            simp only [if_true]
            rw [meets_bind, meets_get]
            exact settling_bind maps fun _ _ mapped => mapped

end Pager

end DemandPaging
