import DemandPaging.Proofs.CleanPages
import DemandPaging.Proofs.FileReads

/-!
# The lives of pages

A page lives from its reservation until it is discarded. What it is follows from the load it was reserved with
and from the attempts to fetch it: it waits while they fail, becomes what its load describes with the first one
that succeeds, and stays that.
-/

namespace DemandPaging

/-! ## What the journal tells of a page -/

/-- What is told of a page since it was reserved, the latest first. -/
structure PageRecord where
  /-- The kind of the page at each attempt to fetch its content, and whether the attempt succeeded. -/
  attempts : List (PageKind × Bool) := []
  /-- The loads that brought its first content. -/
  loads : List LazyLoad := []
  deriving DecidableEq

/-- The load of a page that was not touched yet. -/
def PageKind.load? : PageKind → Option LazyLoad
  | pending load => some load
  | _ => none

/-- The record of a page after an attempt to fetch it. -/
def PageRecord.attempt (record : PageRecord) (kind : PageKind) (succeeded : Bool) : PageRecord where
  attempts := (kind, succeeded) :: record.attempts
  loads := if succeeded then kind.load?.toList ++ record.loads else record.loads

namespace Activity

/-- What is told of a page after something happened. -/
def recorded (activity : Activity) (owner : Owner) (record : PageRecord) : PageRecord :=
  match activity with
  | fetched other kind succeeded =>
      if other = owner then { record with attempts := (kind, succeeded) :: record.attempts } else record
  | loaded other load _ =>
      if other = owner then { record with loads := load :: record.loads } else record
  | discarded other _ _ => if other = owner then {} else record
  | _ => record

/-- What a journal tells of a page. -/
def record (owner : Owner) (journal : List Activity) : PageRecord :=
  journal.foldr (fun activity record => activity.recorded owner record) {}

variable {owner there : Owner} {transfers earlier : List Activity} {kind : PageKind} {succeeded : Bool}

theorem record_cons (activity : Activity) :
    record owner (activity :: earlier) = activity.recorded owner (record owner earlier) :=
  rfl

theorem record_of_transfers (are : ∀ activity ∈ transfers, activity.IsTransfer) :
    record owner (transfers ++ earlier) = record owner earlier := by
  induction transfers with
  | nil => rfl
  | cons activity rest inductionHypothesis =>
      have now := are activity List.mem_cons_self
      rw [← inductionHypothesis fun other member => are other (List.mem_cons_of_mem _ member)]
      cases activity <;> first | rfl | exact absurd now id

/-- An attempt to fetch a page is told of that page only. -/
theorem record_attempted (image : Image) :
    record owner (attempted there kind succeeded image earlier) =
      if there = owner then (record owner earlier).attempt kind succeeded else record owner earlier := by
  have loads : record owner ((if succeeded then kind.firstLoads there image else []) ++ earlier) =
      if there = owner ∧ succeeded = true then
        { record owner earlier with loads := kind.load?.toList ++ (record owner earlier).loads }
      else record owner earlier := by
    cases succeeded with
    | false => simp
    | true => cases kind <;> simp [PageKind.firstLoads, PageKind.load?, record, recorded]
  rw [attempted, record_cons, loads]
  by_cases here : there = owner <;> cases succeeded <;> simp [recorded, here, PageRecord.attempt]

/-- No page is discarded by an attempt to fetch one. -/
theorem undiscarded_attempted {image : Image} (are : ∀ activity ∈ transfers, activity.IsTransfer) (last : Page)
    (dirty : Bool) : .discarded owner last dirty ∉ attempted there kind succeeded image transfers := by
  intro member
  rcases List.mem_append.mp ((List.mem_cons.mp member).resolve_left (by simp)) with load | transfer
  · cases succeeded <;> cases kind <;> simp [PageKind.firstLoads] at load
  · exact are _ transfer

/-- Of a page that is discarded nothing is told anymore. -/
theorem record_discarded (are : ∀ activity ∈ transfers, activity.IsTransfer) (last : Page) (dirty : Bool) :
    record owner ((transfers ++ [.discarded there last dirty]) ++ earlier) =
      if there = owner then {} else record owner earlier := by
  rw [List.append_assoc, record_of_transfers are]
  rfl

/-- The page that is discarded is the only one, and what is noted with it comes later. -/
theorem eq_of_discarded
    {last other : Page} {dirty late : Bool} {later : List Activity}
    (are : ∀ activity ∈ transfers, activity.IsTransfer)
    (same : transfers ++ [.discarded there last dirty] = later ++ .discarded owner other late :: earlier) :
    owner = there ∧ other = last ∧ earlier = [] := by
  rcases List.append_eq_append_iff.mp same with ⟨between, _, split⟩ | ⟨between, rfl, split⟩
  · cases between with
    | nil =>
        cases split
        exact ⟨rfl, rfl, rfl⟩
    | cons => simp at split
  · cases between with
    | nil =>
        cases split
        exact ⟨rfl, rfl, rfl⟩
    | cons =>
        cases split
        exact (are _ (List.mem_append_right _ List.mem_cons_self)).elim

end Activity

/-! ## What a load leads to -/

namespace LazyLoad

variable {load : LazyLoad} {record : PageRecord} {kind : PageKind}

/-- What a page is once it got its first content: anonymous memory, in a frame or in a slot, or the range of a
mapped file. -/
def Becomes (load : LazyLoad) (kind : PageKind) : Prop :=
  match load with
  | zero | segment _ => ∃ slot, kind = .anonymous slot
  | mapped range => kind = .file range

/-- What a page is that was reserved with a load, by the attempts to fetch it. -/
inductive Leads (load : LazyLoad) : PageRecord → PageKind → Prop
  /-- The page waits as long as every attempt fails. -/
  | waits {failed : List (PageKind × Bool)}
      (failing : ∀ attempt ∈ failed, attempt = (.pending load, false)) :
      Leads load ⟨failed, []⟩ (.pending load)
  /-- The first attempt that succeeds is the only one to run the load, and every later one finds the page to be
  what its load describes. -/
  | settled {failed later : List (PageKind × Bool)} {kind : PageKind}
      (failing : ∀ attempt ∈ failed, attempt = (.pending load, false))
      (fetching : ∀ attempt ∈ later, load.Becomes attempt.1) (becomes : load.Becomes kind) :
      Leads load ⟨later ++ (.pending load, true) :: failed, [load]⟩ kind

theorem Becomes.not_pending (becomes : load.Becomes kind) (other : LazyLoad) : kind ≠ .pending other := by
  rintro rfl
  cases load with
  | zero | segment => cases becomes with | intro _ same => cases same
  | mapped => cases becomes

theorem becomes_settled (load : LazyLoad) : load.Becomes (PageKind.pending load).settled := by
  cases load with
  | zero | segment => exact ⟨none, rfl⟩
  | mapped => rfl

/-- A page that got its first content stays what its load describes when it is fetched again. -/
theorem Becomes.settled (becomes : load.Becomes kind) : load.Becomes kind.settled := by
  cases load with
  | zero | segment =>
      obtain ⟨slot, rfl⟩ := becomes
      exact ⟨none, rfl⟩
  | mapped =>
      cases becomes
      rfl

/-- It also stays that wherever it is moved. -/
theorem Becomes.of_continues {new old : Page} (becomes : load.Becomes old.kind) (continues : new.Continues old) :
    load.Becomes new.kind := by
  have type := continues.type
  have mapped := continues.mapped
  rcases kind : new.kind with other | slot | range
  · exact absurd (continues.pending other kind) (becomes.not_pending other)
  · cases load with
    | zero | segment => exact ⟨slot, rfl⟩
    | mapped =>
        rw [Page.type, Page.type, kind, becomes] at type
        cases type
  · cases load with
    | zero | segment =>
        obtain ⟨_, same⟩ := becomes
        rw [Page.type, Page.type, kind, same] at type
        cases type
    | mapped =>
        rw [kind, becomes] at mapped
        cases mapped
        rfl

theorem Leads.fails (leads : load.Leads record kind) : load.Leads (record.attempt kind false) kind := by
  cases leads with
  | waits failing => exact .waits (List.forall_mem_cons.mpr ⟨rfl, failing⟩)
  | settled failing fetching becomes =>
      exact @settled _ _ (_ :: _) _ failing (List.forall_mem_cons.mpr ⟨becomes, fetching⟩) becomes

theorem Leads.succeeds (leads : load.Leads record kind) :
    load.Leads (record.attempt kind true) kind.settled := by
  cases leads with
  | waits failing => exact @settled _ _ [] _ failing (fun _ => nofun) load.becomes_settled
  | settled failing fetching becomes =>
      have without : kind.load? = none := by
        cases kind with
        | pending other => exact absurd rfl (becomes.not_pending other)
        | _ => rfl
      rw [PageRecord.attempt, if_pos rfl, without]
      exact @settled _ _ (_ :: _) _ failing (List.forall_mem_cons.mpr ⟨becomes, fetching⟩) becomes.settled

/-- A page that moves while it does not wait leads the same life. -/
theorem Leads.of_continues
    {new old : Page} (leads : load.Leads record old.kind) (continues : new.Continues old)
    (still : ∀ load, old.kind = .pending load → new = old) : load.Leads record new.kind := by
  generalize kind : old.kind = before at leads
  cases leads with
  | waits failing =>
      rw [still load kind, kind]
      exact .waits failing
  | settled failing fetching becomes =>
      rw [← kind] at becomes
      exact .settled failing fetching (becomes.of_continues continues)

end LazyLoad

/-! ## How pages go on -/

/-- Whether a page is still what it was reserved as, but for what its load has led to by now. -/
structure Page.Lives (page laid : Page) (record : PageRecord) : Prop extends Page.Alike page laid where
  leads : ∃ load, laid.kind = .pending load ∧ load.Leads record page.kind

/-- Whether a page is an earlier one, which was not discarded since and lives on. -/
structure Page.Persists (new old : Page) (owner : Owner) (later earlier : List Activity) : Prop where
  undiscarded : ∀ last dirty, Activity.discarded owner last dirty ∉ later
  continues : new.Continues old
  lives : ∀ laid, old.Lives laid (Activity.record owner earlier) →
    new.Lives laid (Activity.record owner (later ++ earlier))

namespace Pager

/-- Where a page comes from: it persists, or was reserved in the meantime. -/
def Stems (before : Pager) (allowed : Deed → Prop) (journal : List Activity) (owner : Owner) (page : Page) :
    Prop :=
  (∃ old, before.pageOf owner = some old ∧ page.Persists old owner journal before.journal) ∨
    ∃ laid, allowed (.reserved owner laid) ∧
      page.Lives laid (Activity.record owner (journal ++ before.journal))

/-- Whether nothing is told of a page where there is none. -/
def Blank (pager : Pager) : Prop :=
  ∀ owner, pager.pageOf owner = none → Activity.record owner pager.journal = {}

/-- How pages go on in the meantime, by deeds of some kind: each page persists until it is discarded, and each
page that is there or is discarded persists from before or was reserved. -/
structure Ages (allowed : Deed → Prop) (before after : Pager) (journal : List Activity) : Prop where
  noted : after.journal = journal ++ before.journal
  persists : ∀ owner page, before.pageOf owner = some page →
    (∀ last dirty, Activity.discarded owner last dirty ∉ journal) →
      ∃ new, after.pageOf owner = some new ∧ new.Persists page owner journal before.journal
  stems : ∀ owner page, after.pageOf owner = some page → before.Stems allowed journal owner page
  discarded : ∀ later owner last dirty earlier, journal = later ++ .discarded owner last dirty :: earlier →
    before.Stems allowed earlier owner last
  blank : before.Blank → after.Blank

end Pager

namespace Page.Persists

variable {first second third : Page} {owner : Owner} {later earlier journal : List Activity}

theorem refl (page : Page) (owner : Owner) (journal : List Activity) :
    page.Persists page owner [] journal :=
  ⟨fun _ _ => List.not_mem_nil, .refl page, fun _ => id⟩

theorem trans (persists : third.Persists second owner later (earlier ++ journal))
    (before : second.Persists first owner earlier journal) :
    third.Persists first owner (later ++ earlier) journal where
  undiscarded last dirty member :=
    (List.mem_append.mp member).elim (persists.undiscarded last dirty) (before.undiscarded last dirty)
  continues := persists.continues.trans before.continues
  lives laid lives := by
    rw [List.append_assoc]
    exact persists.lives laid (before.lives laid lives)

/-- A page of which nothing is told in the meantime may move, but only once it does not wait anymore. -/
theorem of_continues (record : Activity.record owner (later ++ journal) = Activity.record owner journal)
    (undiscarded : ∀ last dirty, Activity.discarded owner last dirty ∉ later)
    (continues : second.Continues first) (still : ∀ load, first.kind = .pending load → second = first) :
    second.Persists first owner later journal where
  undiscarded := undiscarded
  continues := continues
  lives laid lives := by
    obtain ⟨load, pending, leads⟩ := lives.leads
    rw [record]
    exact ⟨continues.toAlike.trans lives.toAlike, load, pending, leads.of_continues continues still⟩

end Page.Persists

namespace Pager

variable {before middle after : Pager} {allowed more : Deed → Prop} {deed : Deed} {owner : Owner}
  {page : Page} {journal later earlier : List Activity}

namespace Ages

theorem mono (ages : Ages allowed before after journal) (fewer : ∀ deed, allowed deed → more deed) :
    Ages more before after journal where
  noted := ages.noted
  persists := ages.persists
  stems owner page present := (ages.stems owner page present).imp id
    fun ⟨laid, permitted, lives⟩ => ⟨laid, fewer _ permitted, lives⟩
  discarded later owner last dirty earlier same := (ages.discarded later owner last dirty earlier same).imp id
    fun ⟨laid, permitted, lives⟩ => ⟨laid, fewer _ permitted, lives⟩
  blank := ages.blank

/-- What comes from a page in the meantime comes from where that page comes from. -/
theorem rebase (first : Ages allowed before middle earlier)
    (stems : middle.Stems allowed later owner page) : before.Stems allowed (later ++ earlier) owner page := by
  rcases stems with ⟨old, present, persists⟩ | ⟨laid, permitted, lives⟩
  · rw [first.noted] at persists
    rcases first.stems owner old present with ⟨oldest, presentFirst, persistsFirst⟩ | ⟨laid, permitted, lives⟩
    · exact Or.inl ⟨oldest, presentFirst, persists.trans persistsFirst⟩
    · refine Or.inr ⟨laid, permitted, ?_⟩
      rw [List.append_assoc]
      exact persists.lives laid lives
  · refine Or.inr ⟨laid, permitted, ?_⟩
    rw [List.append_assoc, ← first.noted]
    exact lives

theorem trans (first : Ages allowed before middle earlier) (second : Ages allowed middle after later) :
    Ages allowed before after (later ++ earlier) where
  noted := by rw [second.noted, first.noted, List.append_assoc]
  persists owner page present undiscarded := by
    obtain ⟨meanwhile, presentThen, persists⟩ := first.persists owner page present
      fun last dirty member => undiscarded last dirty (List.mem_append_right _ member)
    obtain ⟨new, presentNow, persistsThen⟩ := second.persists owner meanwhile presentThen
      fun last dirty member => undiscarded last dirty (List.mem_append_left _ member)
    rw [first.noted] at persistsThen
    exact ⟨new, presentNow, persistsThen.trans persists⟩
  stems owner page present := first.rebase (second.stems owner page present)
  discarded latest owner last dirty early same := by
    rcases List.append_eq_append_iff.mp same with ⟨between, rfl, split⟩ | ⟨between, rfl, split⟩
    · exact first.discarded between owner last dirty early split
    · cases between with
      | nil => exact first.discarded [] owner last dirty early split.symm
      | cons activity rest =>
          cases split
          exact first.rebase (second.discarded latest owner last dirty rest rfl)
  blank blank := second.blank (first.blank blank)

end Ages

/-- Where pages stay and no page is fetched or discarded, all go on. -/
theorem ages_of_transfers
    (noted : after.journal = journal ++ before.journal) (are : ∀ activity ∈ journal, activity.IsTransfer)
    (pages : after.pageOf = before.pageOf) : Ages allowed before after journal := by
  have record (owner : Owner) :
      Activity.record owner (journal ++ before.journal) = Activity.record owner before.journal :=
    Activity.record_of_transfers are
  have undiscarded (owner : Owner) (last : Page) (dirty : Bool) :
      Activity.discarded owner last dirty ∉ journal := are _
  have persists (owner : Owner) (page : Page) : page.Persists page owner journal before.journal :=
    .of_continues (record owner) (undiscarded owner) (.refl page) fun _ _ => rfl
  refine ⟨noted, fun owner page present _ => ?_, fun owner page present => ?_,
    fun later owner last dirty earlier same => ?_, fun blank owner vacant => ?_⟩
  · exact ⟨page, by rw [pages]; exact present, persists owner page⟩
  · exact Or.inl ⟨page, by rw [← pages]; exact present, persists owner page⟩
  · exact absurd (by rw [same]; simp) (undiscarded owner last dirty)
  · rw [noted, record]
    exact blank owner (by rw [← pages]; exact vacant)

/-! ## Turns and runs -/

/-- A page that is reserved begins to live. -/
private theorem ages_reserved
    (turn : Turn (.reserved owner page) before after) (sound : before.ledger.Sound none)
    (noted : after.journal = before.journal) (blank : before.Blank) :
    Ages (fun deed => deed = .reserved owner page) before after [] := by
  obtain ⟨vacant, ⟨load, pending⟩, pages⟩ := (turn.step sound).begins
  have elsewhere (other : Owner) (apart : other ≠ owner) : after.pageOf other = before.pageOf other :=
    (congrFun pages other).trans (Function.update_of_ne apart ..)
  refine ⟨noted, fun other old present _ => ?_, fun other new present => ?_,
    fun _ _ _ _ _ same => absurd same.symm (by simp), fun _ other gone => ?_⟩
  · have apart : other ≠ owner := by
      rintro rfl
      cases present.symm.trans vacant
    exact ⟨old, (elsewhere other apart).trans present, .refl old other before.journal⟩
  · by_cases here : other = owner
    · subst here
      have same : after.pageOf other = some page := (congrFun pages other).trans (Function.update_self ..)
      cases present.symm.trans same
      refine Or.inr ⟨page, rfl, .refl page, load, pending, ?_⟩
      rw [List.nil_append, blank other vacant, pending]
      exact .waits fun _ => nofun
    · exact Or.inl ⟨new, (elsewhere other here).symm.trans present, .refl new other before.journal⟩
  · have apart : other ≠ owner := by
      rintro rfl
      have same : after.pageOf other = some page := (congrFun pages other).trans (Function.update_self ..)
      cases gone.symm.trans same
    rw [noted]
    exact blank other ((elsewhere other apart).symm.trans gone)

/-- A page that is discarded ends, and its record with it. -/
private theorem ages_discarded
    (sound : before.ledger.Sound none) (present : before.ledger.pages owner = some page) :
    ∃ journal, Ages (fun deed => deed = .discarded owner page) before (before.discarded owner page)
      journal := by
  obtain ⟨transfers, are, noted⟩ := before.journal_discarded owner page
  have pages := (ledger_discarded sound present).pages
  have elsewhere (other : Owner) (apart : other ≠ owner) :
      (before.discarded owner page).pageOf other = before.pageOf other :=
    (congrFun pages other).trans (Function.update_of_ne apart ..)
  have gone : (before.discarded owner page).pageOf owner = none :=
    (congrFun pages owner).trans (Function.update_self ..)
  generalize (before.table owner.pid).isDirty owner.va = dirty at noted
  have noted : (before.discarded owner page).journal =
      (transfers ++ [.discarded owner page dirty]) ++ before.journal := by
    rw [List.append_assoc]
    exact noted
  have persists (other : Owner) (old : Page) (apart : other ≠ owner) :
      old.Persists old other (transfers ++ [.discarded owner page dirty]) before.journal := by
    refine .of_continues ?_ (fun last late member => ?_) (.refl old) fun _ _ => rfl
    · rw [Activity.record_discarded are, if_neg (Ne.symm apart)]
    · obtain ⟨later, earlier, same⟩ := List.append_of_mem member
      exact apart (Activity.eq_of_discarded are same).1
  refine ⟨_, noted, fun other old presentOld undiscarded => ?_, fun other new presentNew => ?_,
    fun later other last late earlier same => ?_, fun blank other vacant => ?_⟩
  · have apart : other ≠ owner := by
      rintro rfl
      exact undiscarded page dirty (by simp)
    exact ⟨old, (elsewhere other apart).trans presentOld, persists other old apart⟩
  · have apart : other ≠ owner := by
      rintro rfl
      cases presentNew.symm.trans gone
    exact Or.inl ⟨new, (elsewhere other apart).symm.trans presentNew, persists other new apart⟩
  · obtain ⟨rfl, rfl, rfl⟩ := Activity.eq_of_discarded are same
    exact Or.inl ⟨_, present, .refl ..⟩
  · rw [noted, Activity.record_discarded are]
    split
    · rfl
    · rename_i apart
      exact blank other ((elsewhere other (Ne.symm apart)).symm.trans vacant)

/-- A turn by which no page begins or ends, in which what is told of each page agrees with what becomes of it. -/
private theorem ages_of_steady
    (turn : Turn deed before after) (sound : before.ledger.Sound none)
    (noted : after.journal = journal ++ before.journal)
    (undiscarded : ∀ owner last dirty, Activity.discarded owner last dirty ∉ journal)
    (steady : ∀ owner page, deed ≠ .reserved owner page ∧ deed ≠ .discarded owner page)
    (untold : ∀ owner, before.pageOf owner = none →
      Activity.record owner (journal ++ before.journal) = Activity.record owner before.journal)
    (persists : ∀ owner old new, before.pageOf owner = some old → after.pageOf owner = some new →
      new.Continues old → new.Persists old owner journal before.journal) :
    Ages (fun other => other = deed) before after journal := by
  have step := turn.step sound
  refine ⟨noted, fun owner page present _ => ?_, fun owner page present => ?_,
    fun later owner last dirty earlier same => ?_, fun blank owner vacant => ?_⟩
  · obtain ⟨new, presentThen, continues⟩ := step.continues present (steady owner page).2
    exact ⟨new, presentThen, persists owner page new present presentThen continues⟩
  · obtain ⟨old, presentThen, continues⟩ := step.continued present (steady owner page).1
    exact Or.inl ⟨old, presentThen, persists owner old page presentThen present continues⟩
  · exact absurd (by rw [same]; simp) (undiscarded owner last dirty)
  · have vacantThen : before.pageOf owner = none := by
      cases present : before.pageOf owner with
      | none => rfl
      | some page =>
          obtain ⟨new, presentThen, _⟩ := step.continues present (steady owner page).2
          cases vacant.symm.trans presentThen
    rw [noted, untold owner vacantThen]
    exact blank owner vacantThen

/-- An attempt to fetch a page, by which it becomes what its load describes or stays what it is. -/
private theorem ages_attempted
    {there : Owner} {tried : Page} {image : Image} {succeeded : Bool} (turn : Turn deed before after)
    (sound : before.ledger.Sound none) (present : before.ledger.pages there = some tried)
    (are : ∀ activity ∈ journal, activity.IsTransfer)
    (noted : after.journal = Activity.attempted there tried.kind succeeded image (journal ++ before.journal))
    (claims : deed = if succeeded then .claimed there else .missed there)
    (settles : succeeded = true →
      ∃ new, after.ledger.pages there = some new ∧ new.kind = tried.kind.settled) :
    ∃ journal, Ages (fun other => other = deed) before after journal := by
  have step := turn.step sound
  rw [Activity.attempted_append] at noted
  have record (owner : Owner) :
      Activity.record owner
          (Activity.attempted there tried.kind succeeded image journal ++ before.journal) =
        if there = owner then (Activity.record owner before.journal).attempt tried.kind succeeded
        else Activity.record owner before.journal := by
    rw [← Activity.attempted_append, Activity.record_attempted, Activity.record_of_transfers are]
  have steady (owner : Owner) (page : Page) :
      deed ≠ .reserved owner page ∧ deed ≠ .discarded owner page := by
    rw [claims]
    cases succeeded <;> simp
  refine ⟨_, ages_of_steady turn sound noted (fun _ => Activity.undiscarded_attempted are) steady
    (fun owner vacant => ?_) ?_⟩
  · have apart : there ≠ owner := by
      rintro rfl
      cases present.symm.trans vacant
    rw [record, if_neg apart]
  · intro owner old new presentOld presentNew continues
    have still (unclaimed : deed ≠ .claimed owner) (load : LazyLoad) (pending : old.kind = .pending load) :
        new = old :=
      Option.some.inj (presentNew.symm.trans
        (step.waits sound presentOld pending (steady owner old).2 unclaimed))
    by_cases here : there = owner
    · subst here
      cases presentOld.symm.trans present
      refine ⟨Activity.undiscarded_attempted are, continues, fun laid lives => ?_⟩
      obtain ⟨load, pending, leads⟩ := lives.leads
      rw [record, if_pos rfl]
      refine ⟨continues.toAlike.trans lives.toAlike, load, pending, ?_⟩
      cases succeeded with
      | false => exact leads.fails.of_continues continues (still (by simp [claims]))
      | true =>
          obtain ⟨settled, presentThen, kind⟩ := settles rfl
          cases presentNew.symm.trans presentThen
          rw [kind]
          exact leads.succeeds
    · refine .of_continues ((record owner).trans (if_neg here)) (Activity.undiscarded_attempted are) continues
        (still ?_)
      rw [claims]
      cases succeeded <;> simp [here]

/-- Pages go on by every turn. -/
theorem Turn.ages (turn : Turn deed before after) (sound : before.ledger.Sound none) (blank : before.Blank) :
    ∃ journal, Ages (fun other => other = deed) before after journal := by
  have whole := turn
  have step := turn.step sound
  have unnoted (noted : after.journal = before.journal)
      (steady : ∀ owner page, deed ≠ .reserved owner page ∧ deed ≠ .discarded owner page)
      (unclaimed : ∀ owner, deed ≠ .claimed owner) :
      ∃ journal, Ages (fun other => other = deed) before after journal := by
    refine ⟨[], ages_of_steady whole sound noted (fun _ _ _ => List.not_mem_nil) steady (fun _ _ => rfl) ?_⟩
    intro owner old new present presentThen continues
    refine .of_continues rfl (fun _ _ => List.not_mem_nil) continues fun load pending => ?_
    have waits := step.waits sound present pending (steady owner old).2 (unclaimed owner)
    exact Option.some.inj (presentThen.symm.trans waits)
  cases turn with
  | reserved => exact ⟨[], ages_reserved whole sound rfl blank⟩
  | discarded present => exact ages_discarded sound present
  | claimed present absent acquires arrives =>
      rename_i held there tried frame
      obtain ⟨earlier, earlierAre, acquired⟩ := acquires.journal
      obtain ⟨flying, presentThen⟩ := (acquires.moves sound).sound sound present absent
      obtain ⟨image, transfers, arrived, _, are, noted⟩ := arrives.moves flying presentThen
      refine @ages_attempted _ _ _ (transfers ++ earlier) _ _ image true whole sound present
        (Activity.isTransfer_append are earlierAre) ?_ rfl fun _ => ⟨_, arrived.settles, rfl⟩
      rw [noted, acquired, List.append_assoc]
      rfl
  | missed present absent acquires returns =>
      rename_i held there tried frame
      obtain ⟨earlier, earlierAre, acquired⟩ := acquires.journal
      obtain ⟨flying, presentThen⟩ := (acquires.moves sound).sound sound present absent
      obtain ⟨_, transfers, are, noted⟩ := returns.moves flying presentThen
      refine @ages_attempted _ _ _ (transfers ++ earlier) _ _ Image.zero false whole sound present
        (Activity.isTransfer_append are earlierAre) ?_ rfl nofun
      rw [noted, acquired, List.append_assoc]
      rfl
  | _ => exact unnoted rfl (by simp) (by simp)

theorem Runs.ages (runs : Runs allowed before after) (sound : before.ledger.Sound none) (blank : before.Blank) :
    ∃ journal, Ages allowed before after journal := by
  induction runs with
  | refl => exact ⟨[], ages_of_transfers rfl (by simp) rfl⟩
  | tail runs permitted turn inductionHypothesis =>
      obtain ⟨earlier, first⟩ := inductionHypothesis
      obtain ⟨later, second⟩ := turn.ages (runs.sound sound) (first.blank blank)
      exact ⟨later ++ earlier, first.trans (second.mono fun _ same => same ▸ permitted)⟩

/-- A store that comes to nothing leaves every page as it is. -/
theorem Breaks.ages (breaks : before.Breaks after) : ∃ journal, Ages allowed before after journal := by
  rcases breaks.slots with ⟨noted, _⟩ | ⟨owner, slot, reserved, stored, _, _, _, noted, _⟩
  · exact ⟨[], ages_of_transfers noted (by simp) breaks.pages⟩
  · refine ⟨[.swapped owner .write slot (reserved.used.get slot) (stored.transfersSince reserved)],
      ages_of_transfers noted ?_ breaks.pages⟩
    simp [Activity.IsTransfer]

/-- Pages go on by every call, whatever comes of it. -/
theorem Orderly.ages
    {config : Config} {events : List Event} (orderly : before.Orderly config events) (blank : before.Blank)
    (call : Call) : ∃ journal, Ages (call.Permits before) before (call.perform.leaves before) journal := by
  obtain ⟨last, runs, breaks⟩ := orderly.runs_leaves call
  obtain ⟨earlier, first⟩ := runs.ages orderly.sound blank
  obtain ⟨later, second⟩ := breaks.ages
  exact ⟨later ++ earlier, first.trans second⟩

end Pager

open PagerM Pager

section Laws

variable {config : Config} {kind : PolicyKind} {device : Device} {files : FileTable}
  {events : List Event} {start before after : Pager} {allowed : Deed → Prop} {journal : List Activity}

/-- Pages that live as they should go on to do so. -/
theorem Pager.Ages.lives
    (ages : Ages allowed before after journal)
    (live : ∀ owner page, before.pageOf owner = some page →
      ∃ laid, page.Lives laid (Activity.record owner before.journal))
    (owner : Owner) (page : Page) (present : after.pageOf owner = some page) :
    ∃ laid, page.Lives laid (Activity.record owner after.journal) := by
  rw [ages.noted]
  rcases ages.stems owner page present with ⟨old, presentThen, persists⟩ | ⟨laid, _, lives⟩
  · obtain ⟨laid, lives⟩ := live owner old presentThen
    exact ⟨laid, persists.lives laid lives⟩
  · exact ⟨laid, lives⟩

/-- In every state of a history nothing is told of pages that are not there, and pages live as they should. -/
theorem History.lives (history : History config kind device files events before) :
    before.Blank ∧ ∀ owner page, before.pageOf owner = some page →
      ∃ laid, page.Lives laid (Activity.record owner before.journal) := by
  induction history with
  | start =>
      refine ⟨fun _ _ => rfl, fun owner page present => ?_⟩
      have vacant : (Pager.create config kind device files).pageOf owner = none := by
        simp [pageOf, shown, space?, create]
      cases vacant.symm.trans present
  | call history run noted inductionHypothesis =>
      obtain ⟨blank, lives⟩ := inductionHypothesis
      obtain ⟨journal, ages⟩ := (history.orderly.performs run).1.runs.ages history.orderly.sound blank
      exact ⟨ages.blank blank, ages.lives lives⟩
  | outside _ _ inductionHypothesis => exact inductionHypothesis

/-- Pages go on also from call to call. -/
theorem GoesOn.ages
    {permitted : Pager → Call → Prop} (goesOn : GoesOn permitted start before)
    (orderly : start.Orderly config events) (blank : start.Blank) :
    ∃ journal, Ages (fun _ => True) start before journal := by
  induction goesOn with
  | start => exact ⟨[], ages_of_transfers rfl (by simp) rfl⟩
  | call earlier _ run inductionHypothesis =>
      obtain ⟨journal, first⟩ := inductionHypothesis
      obtain ⟨_, orderlyThen⟩ := earlier.orderly orderly
      obtain ⟨later, second⟩ :=
        (orderlyThen.performs run).1.runs.ages orderlyThen.sound (first.blank blank)
      exact ⟨later ++ journal, first.trans (second.mono fun _ _ => trivial)⟩
  | outside earlier same inductionHypothesis =>
      obtain ⟨journal, ages⟩ := inductionHypothesis
      exact ⟨journal, ages.noted, ages.persists, ages.stems, ages.discarded, ages.blank⟩

/-- A page that waits becomes what its load describes if it can be claimed, and waits on if it cannot. -/
theorem Pager.Orderly.claims_waiting
    {pid : Pid} {va : Nat} {page : Page} {load : LazyLoad} (orderly : before.Orderly config events)
    (present : before.pageOf ⟨pid, pageBase va⟩ = some page) (pending : page.kind = .pending load) :
    (∀ answer after, (Call.claim pid va).perform before = .ok answer after →
      ∃ new, after.pageOf ⟨pid, pageBase va⟩ = some new ∧ new.frame ≠ none ∧ load.Becomes new.kind) ∧
        ∀ error after, (Call.claim pid va).perform before = .error (.failed error) after →
          after.pageOf ⟨pid, pageBase va⟩ = some page := by
  have sound := orderly.sound
  have absent : page.frame = none :=
    Option.eq_none_iff_forall_ne_some.mpr fun frame resident => sound.not_pending present resident load pending
  have claims := ends_call_claim (orderly.unpinned.ready sound) pid va
  constructor
  · intro answer after run
    obtain ⟨_, claimed⟩ := claims.of_ok run
    obtain ⟨frame, brought⟩ := claimed.brings sound present absent
    refine ⟨_, brought.present, Option.some_ne_none frame, ?_⟩
    rw [pending]
    exact load.becomes_settled
  · intro error after run
    obtain ⟨_, turn⟩ := (claims.of_failed run).misses present
    exact (turn.step sound).waits sound present pending nofun nofun

/-- Every page lives from its reservation until it is discarded by the load that it was reserved with. Whatever
is called and whatever comes of it, a page keeps its address, its permission, its place in the stack or in a
region and its type; it waits while no attempt to fetch it succeeds, the first one that succeeds is the only one
to run its load, and from then on it is anonymous memory or the range of a file as its load describes. A page
that is there or is discarded after a call was there before or was reserved as the call permits. Files are asked
for one read by each attempt to fetch a page that has a range of theirs, so by none once a segment is loaded. -/
theorem pages_live_by_their_load
    (history : History config kind device files events start)
    (goesOn : GoesOn (fun _ _ => True) start before) (call : Call) :
    (∀ owner page, start.pageOf owner = some page →
      ∃ laid, page.Lives laid (Activity.record owner start.journal)) ∧
    (∃ journal, start.Ages (fun _ => True) (call.perform.leaves before) journal) ∧
    (∃ journal, before.Ages (call.Permits before) (call.perform.leaves before) journal ∧
      before.Reads (call.perform.leaves before) journal) ∧
    ∀ pid va page load, before.pageOf ⟨pid, pageBase va⟩ = some page → page.kind = .pending load →
      (∀ answer after, (Call.claim pid va).perform before = .ok answer after →
        ∃ new, after.pageOf ⟨pid, pageBase va⟩ = some new ∧ new.frame ≠ none ∧ load.Becomes new.kind) ∧
      ∀ error after, (Call.claim pid va).perform before = .error (.failed error) after →
        after.pageOf ⟨pid, pageBase va⟩ = some page := by
  obtain ⟨blank, live⟩ := history.lives
  obtain ⟨_, orderly⟩ := goesOn.orderly history.orderly
  obtain ⟨earlier, first⟩ := goesOn.ages history.orderly blank
  obtain ⟨later, second⟩ := orderly.ages (first.blank blank) call
  obtain ⟨_, reads⟩ := orderly.reads call
  cases List.append_cancel_right (reads.noted.symm.trans second.noted)
  exact ⟨live, ⟨later ++ earlier, first.trans (second.mono fun _ _ => trivial)⟩, ⟨later, second, reads⟩,
    fun _ _ _ _ present pending => orderly.claims_waiting present pending⟩

/-- A file of two bytes whose first read fails. -/
def reluctantFile : FileTable :=
  ⟨#[{ BackingFile.create .memory #[7, 8] with reads := { admits := fun call => call != 0 } }]⟩

/-- With one frame a page of a segment is loaded by the second attempt, goes to a slot and comes back from
there. -/
theorem pages_live_by_their_load_of_reluctant_file :
    ∃ before new laid, ((Call.claim 1 4096).perform.leaves before).pageOf ⟨1, 4096⟩ = some new ∧
      new.kind = .anonymous none ∧
        new.Lives laid ⟨[(.anonymous (some 0), true), (.pending (.segment ⟨0, 0, 2⟩), true),
          (.pending (.segment ⟨0, 0, 2⟩), false)], [.segment ⟨0, 0, 2⟩]⟩ := by
  have ended : (((Pager.create { frameCount := 1 } .fifo (Device.blank .memory 16) reluctantFile).play []
      [.createProcess 1, .allocateLazily 1 4096 true (.segment ⟨0, 0, 2⟩), .claim 1 4096]).any fun first =>
        (first.2.play [] [.claim 1 4096, .allocate 1 .anonymous 8192 true, .writeUser 1 8192 #[8]]).any
          fun second =>
            (((Call.claim 1 4096).perform.leaves second.2).pageOf ⟨1, 4096⟩).any fun new =>
              decide (new.kind = .anonymous none) &&
                decide (Activity.record ⟨1, 4096⟩ ((Call.claim 1 4096).perform.leaves second.2).journal =
                  ⟨[(.anonymous (some 0), true), (.pending (.segment ⟨0, 0, 2⟩), true),
                    (.pending (.segment ⟨0, 0, 2⟩), false)], [.segment ⟨0, 0, 2⟩]⟩)) = true := by
    decide +kernel
  obtain ⟨⟨events, start⟩, played, ended⟩ := (Option.any_eq_true ..).mp ended
  obtain ⟨⟨later, before⟩, playedOn, ended⟩ := (Option.any_eq_true ..).mp ended
  obtain ⟨new, present, ended⟩ := (Option.any_eq_true ..).mp ended
  simp only [Bool.and_eq_true, decide_eq_true_eq] at ended
  obtain ⟨kind, record⟩ := ended
  have goesOn : GoesOn (fun _ _ => True) start before :=
    GoesOn.start.play (fun _ _ _ => trivial) playedOn
  obtain ⟨live, ⟨journal, ages⟩, _⟩ :=
    pages_live_by_their_load (History.start.play played) goesOn (.claim 1 4096)
  obtain ⟨laid, lives⟩ := ages.lives live ⟨1, 4096⟩ new present
  rw [record] at lives
  exact ⟨before, new, laid, present, kind, lives⟩

end Laws

end DemandPaging
