import DemandPaging.File.Table
import Mathlib.Logic.Function.Basic

/-!
# The content of files

Opening, closing and reading leave every content alone, and a read that succeeds brings what is there. A
write that succeeds puts its bytes over one file and never changes a length.
-/

namespace DemandPaging

section Bytes

variable {content bytes : Array UInt8} {start : Nat}

theorem getElem?_overwritten (content : Array UInt8) (start : Nat) (bytes : Array UInt8) (index : Nat) :
    (overwritten content start bytes)[index]? =
      (content[index]?).map fun old =>
        if start ≤ index then bytes.getD (index - start) old else old := by
  rw [overwritten, Array.getElem?_mapIdx]

theorem overwritten_of_size_le (behind : content.size ≤ start) :
    overwritten content start bytes = content := by
  apply Array.ext_getElem?
  intro index
  rw [getElem?_overwritten]
  by_cases inside : index < content.size
  · rw [Array.getElem?_eq_getElem inside, Option.map_some, if_neg (by omega)]
  · rw [Array.getElem?_eq_none (Nat.le_of_not_lt inside), Option.map_none]

/-- Bytes behind the end are not written. -/
theorem overwritten_extract {count : Nat} (enough : min bytes.size (content.size - start) ≤ count) :
    overwritten content start (bytes.extract 0 count) = overwritten content start bytes := by
  apply Array.ext_getElem?
  intro index
  rw [getElem?_overwritten, getElem?_overwritten]
  by_cases inside : index < content.size
  · rw [Array.getElem?_eq_getElem inside, Option.map_some, Option.map_some]
    split
    · rw [Array.getD_eq_getD_getElem?, Array.getD_eq_getD_getElem?, Array.getElem?_extract]
      split
      · rw [Nat.zero_add]
      · rw [Array.getElem?_eq_none (by omega)]
    · rfl
  · rw [Array.getElem?_eq_none (Nat.le_of_not_lt inside), Option.map_none, Option.map_none]

end Bytes

namespace HostFile

variable {file : HostFile}

theorem content_gather (position wanted rounds : Nat) :
    (file.gather position wanted rounds).1.content = file.content := by
  induction rounds generalizing file position wanted with
  | zero => rfl
  | succ rounds inductionHypothesis =>
      unfold gather
      split
      · rfl
      · dsimp only
        split
        · rfl
        · exact @inductionHypothesis file.afterRead _ _

theorem piece_eq (position wanted : Nat) :
    file.piece position wanted =
      file.content.extract position (position + (file.piece position wanted).size) := by
  apply Array.ext_getElem?
  intro index
  simp only [piece, Array.size_extract, Array.getElem?_extract]
  split
  · split
    · rfl
    · exact Array.getElem?_eq_none (by omega)
  · rw [if_neg (by omega)]

/-- As every round brings a byte, enough rounds bring all there are. -/
theorem gather_eq {position wanted rounds : Nat} (enough : wanted ≤ rounds) :
    (file.gather position wanted rounds).2 = file.content.extract position (position + wanted) := by
  induction rounds generalizing file position wanted with
  | zero =>
      rw [Nat.le_zero.mp enough, Nat.add_zero, Array.extract_empty_of_stop_le_start (Nat.le_refl _)]
      rfl
  | succ rounds inductionHypothesis =>
      unfold gather
      split
      · rename_i nothing
        rw [nothing, Nat.add_zero, Array.extract_empty_of_stop_le_start (Nat.le_refl _)]
      · rename_i wants
        dsimp only
        have size : (file.piece position wanted).size =
            min (min wanted (1 + file.grants file.reads)) (file.content.size - position) := by
          rw [piece, Array.size_extract]
          omega
        split
        · rename_i nothing
          rw [Array.isEmpty_iff_size_eq_zero, size] at nothing
          rw [Array.extract_empty_of_size_le_start (by omega)]
        · rename_i something
          rw [Array.isEmpty_iff_size_eq_zero] at something
          have cut := @piece_eq file position wanted
          generalize (file.piece position wanted).size = count at *
          dsimp only
          rw [@inductionHypothesis file.afterRead (position + count) (wanted - count) (by omega), cut]
          have same : file.afterRead.content = file.content := rfl
          have whole : position + count + (wanted - count) = position + wanted := by omega
          rw [same, whole, Array.extract_append_extract, Nat.min_eq_left (by omega),
            Nat.max_eq_right (by omega)]

end HostFile

namespace FileTable

variable {table : FileTable} {file other : FileId} {backing old : BackingFile}

/-- The bytes of a file; none if there is no such file. -/
def content (table : FileTable) (file : FileId) : Array UInt8 :=
  match table.get? file with
  | some backing => backing.store.content
  | none => #[]

theorem content_of_get? (found : table.get? file = some backing) :
    table.content file = backing.store.content := by
  rw [content, found]

theorem size_eq (table : FileTable) (file : FileId) : table.size file = (table.content file).size := by
  rw [size, content]
  cases table.get? file <;> rfl

theorem content_put (found : table.get? file = some old) (backing : BackingFile) :
    (table.put file backing).content = Function.update table.content file backing.store.content := by
  funext other
  have inside : file < table.files.size := (Array.getElem?_eq_some_iff.mp found).1
  simp only [content, get?, put, Array.getElem?_setIfInBounds]
  by_cases same : other = file
  · subst same
    rw [Function.update_self, if_pos rfl, if_pos inside]
  · rw [Function.update_of_ne same, if_neg (Ne.symm same)]
    rfl

/-- Replacing a file by one with the same bytes changes no content. -/
theorem content_put_of_same
    (found : table.get? file = some old) (same : backing.store.content = old.store.content) :
    (table.put file backing).content = table.content := by
  rw [content_put found, same, ← content_of_get? found, Function.update_eq_self]

@[simp]
theorem content_reopen (table : FileTable) (file : FileId) :
    (table.reopen file).1.content = table.content := by
  unfold reopen
  cases found : table.get? file with
  | none => rfl
  | some old => exact content_put_of_same found rfl

theorem size_reopen (table : FileTable) (file other : FileId) :
    (table.reopen file).1.size other = table.size other := by
  rw [size_eq, content_reopen, size_eq]

@[simp]
theorem content_close (table : FileTable) (file : FileId) :
    (table.close file).content = table.content := by
  unfold close
  cases found : table.get? file with
  | none => rfl
  | some old => exact content_put_of_same found rfl

/-- Reading leaves the file as it is and brings the bytes of the range that it has. -/
theorem content_readBacking (backing : BackingFile) (offset length : Nat) :
    (backing.readAt offset length).1.store.content = backing.store.content ∧
      ∀ bytes, (backing.readAt offset length).2 = some bytes →
        bytes = backing.store.content.extract offset (offset + length) := by
  unfold BackingFile.readAt FileStore.readAt
  cases backing.reads.isOpen with
  | false => exact ⟨rfl, by simp⟩
  | true =>
      cases store : backing.store with
      | memory kept => simp [FileStore.content, MemoryFile.readAt, eq_comm]
      | host kept =>
          simp only [if_true, HostFile.readAt]
          split
          · refine ⟨kept.content_gather .., ?_⟩
            rintro bytes ⟨⟩
            exact HostFile.gather_eq (Nat.le_refl length)
          · exact ⟨rfl, by simp⟩

@[simp]
theorem content_readAt (table : FileTable) (file : FileId) (offset length : Nat) :
    (table.readAt file offset length).1.content = table.content := by
  unfold readAt
  cases found : table.get? file with
  | none => rfl
  | some old => exact content_put_of_same found (content_readBacking old offset length).1

theorem readAt_eq_some
    {bytes : Array UInt8} {offset length : Nat}
    (read : (table.readAt file offset length).2 = some bytes) :
    bytes = (table.content file).extract offset (offset + length) := by
  unfold readAt at read
  cases found : table.get? file with
  | none => simp [found] at read
  | some old =>
      rw [found] at read
      rw [content_of_get? found]
      exact (content_readBacking old offset length).2 bytes read

theorem content_writeBacking (backing : BackingFile) (offset : Nat) (bytes : Array UInt8) :
    (backing.writeAt offset bytes).1.store.content =
      if (backing.writeAt offset bytes).2.isSome then
        overwritten backing.store.content offset bytes
      else backing.store.content := by
  unfold BackingFile.writeAt FileStore.writeAt
  cases backing.writes.isOpen with
  | false => rfl
  | true =>
      cases store : backing.store with
      | memory kept => rfl
      | host kept =>
          simp only [if_true, HostFile.writeAt, FileStore.content]
          split
          · rename_i behind
            exact (overwritten_of_size_le behind).symm
          · split
            · exact overwritten_extract (Nat.le_refl _)
            · rfl

/-- A write that succeeds puts its bytes over the file; one that fails changes nothing. -/
theorem content_writeAt (table : FileTable) (file : FileId) (offset : Nat) (bytes : Array UInt8) :
    (table.writeAt file offset bytes).1.content =
      if (table.writeAt file offset bytes).2.isSome then
        Function.update table.content file (overwritten (table.content file) offset bytes)
      else table.content := by
  unfold writeAt
  cases found : table.get? file with
  | none => rfl
  | some old =>
      dsimp only
      rw [content_put found, content_writeBacking, content_of_get? found]
      split
      · rfl
      · rw [← content_of_get? found, Function.update_eq_self]

end FileTable

end DemandPaging
