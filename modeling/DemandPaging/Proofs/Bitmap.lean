import DemandPaging.Bitmap

/-!
# Searching and counting flags

The lowest clear flag is found by passing over full bytes, and the set flags are counted byte by byte.
Both agree with what the single flags say.
-/

namespace DemandPaging

namespace Bitmap

/-! ## Single bytes -/

private theorem not_ne_zero {byte : BitVec 8} (notFull : byte ≠ BitVec.allOnes 8) :
    ~~~byte ≠ 0#8 := by
  intro full
  apply notFull
  rw [← BitVec.not_not (b := byte), full, BitVec.not_zero]

theorem lowestClear_lt {byte : BitVec 8} (notFull : byte ≠ BitVec.allOnes 8) :
    lowestClear byte < 8 :=
  BitVec.ctz_lt_iff_ne_zero.mpr (not_ne_zero notFull)

theorem getLsbD_lowestClear {byte : BitVec 8} (notFull : byte ≠ BitVec.allOnes 8) :
    byte.getLsbD (lowestClear byte) = false := by
  have set := BitVec.getLsbD_true_ctz_of_ne_zero (not_ne_zero notFull)
  rw [BitVec.getLsbD_not, Bool.and_eq_true, Bool.not_eq_true'] at set
  exact set.2

theorem getLsbD_of_lt_lowestClear
    {byte : BitVec 8} {bit : Nat}
    (below : bit < lowestClear byte) (inside : bit < 8) :
    byte.getLsbD bit = true := by
  have clear := BitVec.getLsbD_false_of_lt_ctz below
  simpa [inside] using clear

theorem toNat_cpop_byte (byte : BitVec 8) :
    byte.cpop.toNat = (List.range 8).countP fun bit => byte.getLsbD bit := by
  simp only [BitVec.toNat_cpop, BitVec.cpopNatRec_succ, BitVec.cpopNatRec_zero_self, List.range,
    List.range.loop, List.countP_cons, List.countP_nil]
  have weight (set : Bool) : set.toNat = if set = true then 1 else 0 := by
    cases set <;> rfl
  simp only [weight]

theorem get_of_full
    {bitmap : Bitmap} {index : Nat} (inside : index / 8 < bitmap.bytes.size)
    (full : bitmap.bytes[index / 8] = BitVec.allOnes 8) :
    bitmap.get index = true := by
  have within : index % 8 < 8 := Nat.mod_lt index (by decide)
  rw [get, Array.getD_eq_getD_getElem?, Array.getElem?_eq_getElem inside, Option.getD_some, full,
    BitVec.getLsbD_allOnes, decide_eq_true within]

/-! ## The lowest clear flag -/

/-- The first clear bit of the first byte that is not full is clear, and every bit before it is set,
whether or not it is padding. -/
theorem firstClear?_position
    {bitmap : Bitmap} {position : Nat}
    (found : bitmap.bytes.findIdx? (· != BitVec.allOnes 8) = some position) :
    bitmap.get (position * 8 + lowestClear (bitmap.bytes.getD position 0)) = false ∧
      ∀ lower < position * 8 + lowestClear (bitmap.bytes.getD position 0),
        bitmap.get lower = true := by
  obtain ⟨inside, notFull, full⟩ := Array.findIdx?_eq_some_iff_getElem.mp found
  have byteAt : bitmap.bytes.getD position 0 = bitmap.bytes[position] := by
    simp [inside]
  rw [byteAt]
  have notFull : bitmap.bytes[position] ≠ BitVec.allOnes 8 := by simpa using notFull
  have bound := lowestClear_lt notFull
  constructor
  · have sameByte : (position * 8 + lowestClear bitmap.bytes[position]) / 8 = position := by omega
    have sameBit : (position * 8 + lowestClear bitmap.bytes[position]) % 8 =
        lowestClear bitmap.bytes[position] := by omega
    rw [get, sameByte, sameBit, byteAt]
    exact getLsbD_lowestClear notFull
  · intro lower below
    have within : lower % 8 < 8 := Nat.mod_lt lower (by decide)
    rcases Nat.lt_or_ge (lower / 8) position with earlier | later
    · have fullByte : bitmap.bytes[lower / 8] = BitVec.allOnes 8 := by
        simpa using full (lower / 8) earlier
      exact get_of_full (Nat.lt_trans earlier inside) fullByte
    · have sameByte : lower / 8 = position := by omega
      rw [get, sameByte, byteAt]
      exact getLsbD_of_lt_lowestClear (by omega) within

/-- The lowest of the flags that are not set. -/
def IsLowestClear (bitmap : Bitmap) (index : Nat) : Prop :=
  index < bitmap.size ∧ bitmap.get index = false ∧ ∀ lower < index, bitmap.get lower = true

theorem isLowestClear_of_firstClear?
    {bitmap : Bitmap} {index : Nat} (found : bitmap.firstClear? = some index) :
    bitmap.IsLowestClear index := by
  unfold firstClear? at found
  split at found
  · cases found
  · rename_i position positioned
    dsimp only at found
    split at found
    · cases found
      rename_i inside
      exact ⟨inside, firstClear?_position positioned⟩
    · cases found

theorem firstClear?_eq_some
    {bitmap : Bitmap} {index : Nat} (found : bitmap.firstClear? = some index) :
    index < bitmap.size ∧ bitmap.get index = false :=
  have lowest := isLowestClear_of_firstClear? found
  ⟨lowest.1, lowest.2.1⟩

theorem firstClear?_eq_none
    {bitmap : Bitmap} (missing : bitmap.firstClear? = none) {index : Nat}
    (inside : index < bitmap.size) :
    bitmap.get index = true := by
  unfold firstClear? at missing
  split at missing
  · rename_i allFull
    have bound := bitmap.byte_lt_size inside
    have full := Array.findIdx?_eq_none_iff.mp allFull _ (Array.getElem_mem bound)
    exact get_of_full bound (by simpa using full)
  · rename_i position positioned
    dsimp only at missing
    split at missing
    · cases missing
    · exact (firstClear?_position positioned).2 index (by omega)

/-! ## Counting -/

private theorem foldr_cpop (bytes : List (BitVec 8)) :
    bytes.foldr (fun byte count => byte.cpop.toNat + count) 0 =
      (List.range (8 * bytes.length)).countP fun index =>
        (bytes[index / 8]?.getD 0).getLsbD (index % 8) := by
  induction bytes with
  | nil => rfl
  | cons byte rest inductionHypothesis =>
      have split : 8 * (byte :: rest).length = 8 + 8 * rest.length := by
        rw [List.length_cons]
        omega
      rw [List.foldr_cons, inductionHypothesis, toNat_cpop_byte, split,
        List.range_add, List.countP_append, List.countP_map]
      congr 1
      apply List.countP_congr
      intro index _
      have nextByte : (8 + index) / 8 = index / 8 + 1 := by omega
      have sameBit : (8 + index) % 8 = index % 8 := by omega
      simp only [Function.comp_apply, nextByte, sameBit, List.getElem?_cons_succ]

theorem count_eq_countP (bitmap : Bitmap) :
    bitmap.count = (List.range (8 * bitmap.bytes.size)).countP bitmap.get := by
  have counted := foldr_cpop bitmap.bytes.toList
  rw [Array.length_toList] at counted
  rw [count, ← Array.foldr_toList, counted]
  apply List.countP_congr
  intro index _
  simp [get]

/-- The padding behind the last flag is clear. -/
def IsPadded (bitmap : Bitmap) : Prop :=
  ∀ index, bitmap.get index = true → index < bitmap.size

theorem IsPadded.count_eq {bitmap : Bitmap} (padded : bitmap.IsPadded) :
    bitmap.count = (List.range bitmap.size).countP bitmap.get := by
  have sized := bitmap.size_bytes
  obtain ⟨padding, total⟩ : ∃ padding, 8 * bitmap.bytes.size = bitmap.size + padding :=
    ⟨8 * bitmap.bytes.size - bitmap.size, by omega⟩
  have paddingClear : ((List.range padding).map (bitmap.size + ·)).countP bitmap.get = 0 := by
    rw [List.countP_eq_zero]
    intro index member set
    obtain ⟨position, _, rfl⟩ := List.mem_map.mp member
    exact absurd (padded _ set) (by omega)
  rw [count_eq_countP, total, List.range_add, List.countP_append, paddingClear, Nat.add_zero]

theorem IsPadded.count_le {bitmap : Bitmap} (padded : bitmap.IsPadded) :
    bitmap.count ≤ bitmap.size := by
  rw [padded.count_eq]
  exact Nat.le_trans List.countP_le_length (Nat.le_of_eq List.length_range)

/-! ## Counting after a change -/

private theorem countP_or_eq
    {list : List Nat} {flags : Nat → Bool} {index : Nat} (nodup : list.Nodup)
    (member : index ∈ list) (clear : flags index = false) :
    list.countP (fun other => flags other || decide (index = other)) = list.countP flags + 1 := by
  induction list with
  | nil => cases member
  | cons head rest inductionHypothesis =>
      obtain ⟨unique, nodup⟩ := List.nodup_cons.mp nodup
      rw [List.countP_cons, List.countP_cons]
      rcases List.mem_cons.mp member with rfl | later
      · have rest : rest.countP (fun other => flags other || decide (index = other)) =
            rest.countP flags := by
          apply List.countP_congr
          intro other member
          simp [show index ≠ other by rintro rfl; exact unique member]
        simp [rest, clear]
      · have different : index ≠ head := by
          rintro rfl
          exact unique later
        rw [inductionHypothesis nodup later]
        simp only [decide_eq_false different, Bool.or_false]
        omega

variable {bitmap : Bitmap} {index : Nat}

theorem IsPadded.insert (padded : bitmap.IsPadded) (inside : index < bitmap.size) :
    (bitmap.insert index).IsPadded := by
  intro other isSet
  rw [get_insert _ _ inside, Bool.or_eq_true, decide_eq_true_iff] at isSet
  rcases isSet with isSet | rfl
  · exact padded other isSet
  · exact inside

theorem IsPadded.erase (padded : bitmap.IsPadded) (inside : index < bitmap.size) :
    (bitmap.erase index).IsPadded := by
  intro other isSet
  rw [get_erase _ _ inside, Bool.and_eq_true] at isSet
  exact padded other isSet.1

/-- Setting a clear flag makes one more. -/
theorem IsPadded.count_insert
    (padded : bitmap.IsPadded) (inside : index < bitmap.size) (clear : bitmap.get index = false) :
    (bitmap.insert index).count = bitmap.count + 1 := by
  have flags : (bitmap.insert index).get = fun other => bitmap.get other || decide (index = other) :=
    funext fun other => get_insert _ _ inside
  rw [(padded.insert inside).count_eq, padded.count_eq, flags]
  exact countP_or_eq List.nodup_range (List.mem_range.mpr inside) clear

/-- Clearing a flag that is set makes one less. -/
theorem IsPadded.count_erase (padded : bitmap.IsPadded) (set : bitmap.get index = true) :
    (bitmap.erase index).count + 1 = bitmap.count := by
  have inside := padded index set
  have clear : (bitmap.erase index).get index = false := by
    rw [get_erase _ _ inside]
    simp
  have flags : bitmap.get = fun other => (bitmap.erase index).get other || decide (index = other) := by
    funext other
    rw [get_erase _ _ inside]
    by_cases same : index = other
    · subst same
      simp [set]
    · simp [same]
  rw [(padded.erase inside).count_eq, padded.count_eq, flags]
  exact (countP_or_eq List.nodup_range (List.mem_range.mpr inside) clear).symm

end Bitmap

end DemandPaging
