import DemandPaging.Proofs.Bitmap
import DemandPaging.SwapSpace

/-!
# Handing out flags

A bitmap that is asked again and again to set a flag, to clear a flag or to set the lowest clear one.
After every history the set flags are those that were set and not cleared since, the padding is clear,
and the next flag to be handed out is the lowest that is not set.
-/

namespace DemandPaging

/-- What is asked of a bitmap that hands out its flags. -/
inductive FlagRequest where
  | put (index : Nat) (value : Bool)
  /-- Sets the lowest clear flag. -/
  | take
  deriving DecidableEq

/-- The request names no flag that the bitmap does not have. -/
def FlagRequest.IsWithin (size : Nat) : FlagRequest → Prop
  | put index _ => index < size
  | take => True

instance (size : Nat) : (request : FlagRequest) → Decidable (request.IsWithin size)
  | .put index _ => inferInstanceAs (Decidable (index < size))
  | .take => inferInstanceAs (Decidable True)

namespace Bitmap

/-- The bitmap after a request, and the flag that was handed out by it. -/
def serve (bitmap : Bitmap) : FlagRequest → Bitmap × Option Nat
  | .put index value => (bitmap.put index value, none)
  | .take => bitmap.take

def after (bitmap : Bitmap) (requests : List FlagRequest) : Bitmap :=
  requests.foldl (fun bitmap request => (bitmap.serve request).1) bitmap

/-- The request sets the flag: it names it, or the flag is handed out by it. -/
def SetBy (bitmap : Bitmap) (index : Nat) (request : FlagRequest) : Prop :=
  request = .put index true ∨ request = .take ∧ bitmap.take.2 = some index

/-- One of the requests sets the flag, and no later one clears it. -/
def LeftSet (bitmap : Bitmap) (index : Nat) (requests : List FlagRequest) : Prop :=
  ∃ earlier request later, requests = earlier ++ request :: later ∧
    (bitmap.after earlier).SetBy index request ∧ .put index false ∉ later

variable {bitmap : Bitmap} {index : Nat} {request : FlagRequest} {requests : List FlagRequest}

/-! ## The flag that is handed out -/

theorem IsLowestClear.unique {other : Nat}
    (lowest : bitmap.IsLowestClear index) (otherLowest : bitmap.IsLowestClear other) :
    index = other := by
  rcases Nat.lt_trichotomy index other with below | same | above
  · have set := otherLowest.2.2 index below
    rw [lowest.2.1] at set
    cases set
  · exact same
  · have set := lowest.2.2 other above
    rw [otherLowest.2.1] at set
    cases set

theorem firstClear?_eq_some_iff : bitmap.firstClear? = some index ↔ bitmap.IsLowestClear index := by
  refine ⟨isLowestClear_of_firstClear?, fun lowest => ?_⟩
  cases found : bitmap.firstClear? with
  | none =>
      have set := firstClear?_eq_none found lowest.1
      rw [lowest.2.1] at set
      cases set
  | some other => rw [(isLowestClear_of_firstClear? found).unique lowest]

theorem take_eq_firstClear? (bitmap : Bitmap) : bitmap.take.2 = bitmap.firstClear? := by
  cases found : bitmap.firstClear? with
  | none => rw [take_of_none found]
  | some index => rw [take_of_some found]

theorem taken_iff : bitmap.take.2 = some index ↔ bitmap.IsLowestClear index := by
  rw [take_eq_firstClear?, firstClear?_eq_some_iff]

/-- Nothing is handed out exactly if every flag is set. -/
theorem take_eq_none_iff :
    bitmap.take.2 = none ↔ ∀ index < bitmap.size, bitmap.get index = true := by
  rw [take_eq_firstClear?]
  refine ⟨fun missing index inside => firstClear?_eq_none missing inside, fun full => ?_⟩
  cases found : bitmap.firstClear? with
  | none => rfl
  | some index =>
      obtain ⟨inside, clear⟩ := firstClear?_eq_some found
      rw [full index inside] at clear
      cases clear

theorem get_taken (taken : bitmap.take.2 = some index) (other : Nat) :
    bitmap.take.1.get other = (bitmap.get other || decide (index = other)) := by
  rw [take_eq_firstClear?] at taken
  rw [take_of_some taken]
  exact get_insert bitmap other (firstClear?_eq_some taken).1

theorem take_of_full (full : bitmap.take.2 = none) : bitmap.take.1 = bitmap := by
  rw [take_eq_firstClear?] at full
  rw [take_of_none full]

/-! ## One request -/

theorem size_serve (bitmap : Bitmap) (request : FlagRequest) :
    (bitmap.serve request).1.size = bitmap.size := by
  cases request with
  | put index value => cases value <;> rfl
  | take =>
      rw [serve]
      cases found : bitmap.firstClear? with
      | none => rw [take_of_none found]
      | some index =>
          rw [take_of_some found]
          rfl

theorem IsPadded.serve (padded : bitmap.IsPadded) (within : request.IsWithin bitmap.size) :
    (bitmap.serve request).1.IsPadded := by
  cases request with
  | put index value =>
      cases value with
      | true => exact padded.insert within
      | false => exact padded.erase within
  | take =>
      rw [Bitmap.serve]
      cases found : bitmap.firstClear? with
      | none =>
          rw [take_of_none found]
          exact padded
      | some index =>
          rw [take_of_some found]
          exact padded.insert (firstClear?_eq_some found).1

/-- A flag is set after a request if the request sets it, or if it was set and the request does not
clear it. -/
theorem get_serve_iff (within : request.IsWithin bitmap.size) (index : Nat) :
    (bitmap.serve request).1.get index = true ↔
      bitmap.SetBy index request ∨ bitmap.get index = true ∧ request ≠ .put index false := by
  cases request with
  | put other value =>
      cases value with
      | true =>
          change (bitmap.insert other).get index = true ↔ _
          rw [get_insert bitmap index within]
          simp [SetBy, or_comm]
      | false =>
          change (bitmap.erase other).get index = true ↔ _
          rw [get_erase bitmap index within]
          simp [SetBy]
  | take =>
      rw [serve]
      cases found : bitmap.take.2 with
      | none => simp [take_of_full found, SetBy, found]
      | some other => simp [get_taken found, SetBy, found, or_comm]

/-! ## Histories -/

theorem after_cons (bitmap : Bitmap) (request : FlagRequest) (requests : List FlagRequest) :
    bitmap.after (request :: requests) = (bitmap.serve request).1.after requests :=
  rfl

theorem size_after (bitmap : Bitmap) (requests : List FlagRequest) :
    (bitmap.after requests).size = bitmap.size := by
  induction requests generalizing bitmap with
  | nil => rfl
  | cons request requests inductionHypothesis =>
      rw [after_cons, inductionHypothesis, size_serve]

theorem IsPadded.after
    (padded : bitmap.IsPadded) (within : ∀ request ∈ requests, request.IsWithin bitmap.size) :
    (bitmap.after requests).IsPadded := by
  induction requests generalizing bitmap with
  | nil => exact padded
  | cons request requests inductionHypothesis =>
      obtain ⟨first, rest⟩ := List.forall_mem_cons.mp within
      refine inductionHypothesis (padded.serve first) ?_
      rw [size_serve]
      exact rest

theorem leftSet_cons_iff :
    bitmap.LeftSet index (request :: requests) ↔
      bitmap.SetBy index request ∧ .put index false ∉ requests ∨
        (bitmap.serve request).1.LeftSet index requests := by
  constructor
  · rintro ⟨earlier, setting, later, split, sets, kept⟩
    cases earlier with
    | nil =>
        obtain ⟨rfl, rfl⟩ := List.cons.inj split
        exact .inl ⟨sets, kept⟩
    | cons first earlier =>
        obtain ⟨rfl, rfl⟩ := List.cons.inj split
        exact .inr ⟨earlier, setting, later, rfl, sets, kept⟩
  · rintro (⟨sets, kept⟩ | ⟨earlier, setting, later, rfl, sets, kept⟩)
    · exact ⟨[], request, requests, rfl, sets, kept⟩
    · exact ⟨request :: earlier, setting, later, rfl, sets, kept⟩

/-- A flag is set after a history if it was left set by it, or if it was set before and never
cleared. -/
theorem get_after_iff (within : ∀ request ∈ requests, request.IsWithin bitmap.size) (index : Nat) :
    (bitmap.after requests).get index = true ↔
      bitmap.LeftSet index requests ∨ bitmap.get index = true ∧ .put index false ∉ requests := by
  induction requests generalizing bitmap with
  | nil => simp [after, LeftSet]
  | cons request requests inductionHypothesis =>
      obtain ⟨first, rest⟩ := List.forall_mem_cons.mp within
      rw [← size_serve bitmap request] at rest
      rw [after_cons, inductionHypothesis rest, leftSet_cons_iff, get_serve_iff first,
        List.mem_cons, not_or]
      -- Either the rest sets the flag, or this request does and the rest keeps it, or all keep it.
      grind

/-! ## Padding, slots and the law -/

/-- The padding in the last byte is what lies behind the flags. -/
theorem IsPadded.bit_clear
    (padded : bitmap.IsPadded) {position : Nat} (present : position < bitmap.bytes.size) {bit : Nat}
    (inByte : bit < 8) (behind : bitmap.size ≤ position * 8 + bit) :
    bitmap.bytes[position].getLsbD bit = false := by
  have sameByte : (position * 8 + bit) / 8 = position := by omega
  have sameBit : (position * 8 + bit) % 8 = bit := by omega
  have clear : bitmap.get (position * 8 + bit) = false := by
    rw [← Bool.not_eq_true]
    exact fun set => absurd (padded _ set) (Nat.not_lt.mpr behind)
  rw [get, sameByte, sameBit, Array.getD_eq_getD_getElem?, Array.getElem?_eq_getElem present,
    Option.getD_some] at clear
  exact clear

theorem isPadded_empty (size : Nat) : (empty size).IsPadded := by
  intro index set
  rw [get_empty] at set
  cases set

/-- The swap space hands out its slots as the bitmap hands out its flags. -/
theorem reserve?_eq_take (swap : SwapSpace) :
    swap.reserve? =
      swap.used.take.2.map fun slot => (slot, { swap with used := swap.used.take.1 }) := by
  rw [SwapSpace.reserve?]
  rcases swap.used.take with ⟨used, _ | slot⟩
  · rfl
  · rfl

/-- After every history a flag is set exactly if it was set or handed out and not cleared since, the
padding of the last byte is clear, and the flags are counted right. What is handed out next, as a slot
to the swap space too, is the lowest clear flag, and no other flag changes; nothing is handed out, and
nothing changes, exactly if every flag is set. -/
theorem lowest_clear_flag_handed_out
    (size : Nat) (requests : List FlagRequest)
    (within : ∀ request ∈ requests, request.IsWithin size) :
    let bitmap := (empty size).after requests
    bitmap.size = size ∧
      (∀ index, bitmap.get index = true ↔ (empty size).LeftSet index requests) ∧
      (∀ (position : Nat) (present : position < bitmap.bytes.size), ∀ bit < 8,
        size ≤ position * 8 + bit → bitmap.bytes[position].getLsbD bit = false) ∧
      bitmap.count = (List.range size).countP bitmap.get ∧
      bitmap.count ≤ size ∧
      (∀ index, bitmap.take.2 = some index ↔ bitmap.IsLowestClear index) ∧
      (∀ index, bitmap.take.2 = some index →
        ∀ other, bitmap.take.1.get other = (bitmap.get other || decide (index = other))) ∧
      (bitmap.take.2 = none ↔ ∀ index < size, bitmap.get index = true) ∧
      (bitmap.take.2 = none → bitmap.take.1 = bitmap) ∧
      ∀ device, (⟨device, bitmap⟩ : SwapSpace).reserve? =
        bitmap.take.2.map fun slot => (slot, ⟨device, bitmap.take.1⟩) := by
  intro bitmap
  have sized : bitmap.size = size := size_after (empty size) requests
  have padded : bitmap.IsPadded := (isPadded_empty size).after within
  have counted := padded.count_eq
  have bounded := padded.count_le
  have full := @take_eq_none_iff bitmap
  rw [sized] at counted bounded full
  refine ⟨sized, fun index => ?_, fun position present bit inByte behind => ?_, counted, bounded,
    fun index => taken_iff, fun index => get_taken, full, take_of_full,
    fun device => reserve?_eq_take ⟨device, bitmap⟩⟩
  · rw [get_after_iff within index, get_empty]
    simp
  · exact padded.bit_clear present inByte (sized ▸ behind)

/-- Ten flags in two bytes: all are handed out, and the seventh is cleared. -/
def sixReturned : List FlagRequest :=
  List.replicate 10 .take ++ [.put 6 false]

/-- The flag that was cleared is handed out again, although a padding bit and no other flag is clear. -/
theorem lowest_clear_flag_handed_out_of_ten :
    (∀ request ∈ sixReturned, request.IsWithin 10) ∧
      ¬ (empty 10).LeftSet 6 sixReturned ∧ (empty 10).LeftSet 9 sixReturned ∧
      ((empty 10).after sixReturned).take.2 = some 6 ∧
      ((empty 10).after (sixReturned ++ [.take])).take.2 = none := by
  have within : ∀ request ∈ sixReturned, request.IsWithin 10 := by decide
  have withinThen : ∀ request ∈ sixReturned ++ [.take], request.IsWithin 10 := by decide
  obtain ⟨_, flags, _, _, _, taken, _⟩ := lowest_clear_flag_handed_out 10 sixReturned within
  obtain ⟨_, _, _, _, _, _, _, full, _⟩ :=
    lowest_clear_flag_handed_out 10 (sixReturned ++ [.take]) withinThen
  refine ⟨within, (not_congr (flags 6)).mp ?_, (flags 9).mp ?_, (taken 6).mpr ⟨?_, ?_, ?_⟩,
    full.mpr ?_⟩
  all_goals decide +kernel

end Bitmap

end DemandPaging
