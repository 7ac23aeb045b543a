import DemandPaging.Pager.Residency

/-!
Executable segments and the first page of the stack. A segment is reserved page by page and read on
first touch, each page through a handle of its own.
-/

namespace DemandPaging

/-- A loadable segment: `readBytes` bytes of a file from `offset` on, followed by `zeroBytes` zeros. -/
structure Segment where
  va : Nat
  offset : Nat
  readBytes : Nat
  zeroBytes : Nat
  writable : Bool
  deriving DecidableEq

namespace Pager

/-- How a segment page at `va` gets its content, if `left` bytes of the file are still to come. -/
def segmentLoad (file : FileId) (va offset left : Nat) : PagerM LazyLoad := do
  if left = 0 then
    pure .zero
  else if ← reopenFile file then
    pure (.segment ⟨file, offset, min left pageSize⟩)
  else
    PagerM.fail (.io va)

/-- Reserves the given number of segment pages from `va` on. -/
def reserveSegment (pid : Pid) (file : FileId) (writable : Bool) :
    Nat → (va offset left : Nat) → PagerM Unit
  | 0, _, _, _ => pure ()
  | pages + 1, va, offset, left => do
      let load ← segmentLoad file va offset left
      reservePage pid { va := va, writable := writable, kind := .pending load }
      let count := min left pageSize
      let behind ← PagerM.addWords offset count
      match checkedSum va pageSize with
      | none => PagerM.reject .segmentExceedsAddressSpace
      | some next => reserveSegment pid file writable pages next behind (left - count)

/-- Reserves the pages of a segment. Pages reserved before a failure stay reserved. -/
def loadSegment (pid : Pid) (file : FileId) (segment : Segment) : PagerM Unit := do
  match checkedSum segment.readBytes segment.zeroBytes with
  | none => PagerM.reject .segmentSizeOverflows
  | some size =>
      if !pageAligned size then PagerM.reject .segmentSizeUnaligned
      else if !pageAligned segment.va then PagerM.reject .segmentAddressUnaligned
      else if !pageAligned segment.offset then PagerM.reject .segmentOffsetUnaligned
      else
        reserveSegment pid file segment.writable (size / pageSize) segment.va segment.offset
          segment.readBytes

/-- Creates the topmost page of the stack, makes it resident and points the stack pointer to the top. -/
def setupStack (pid : Pid) : PagerM Unit := do
  let stackTop := (← get).config.stackTop
  let bottom ← PagerM.subtractWords stackTop pageSize
  reservePage pid { va := bottom, writable := true, isStack := true, kind := .pending .zero }
  claim pid bottom
  let _ ← requireSpace pid
  modify fun pager => pager.modifySpace pid fun space => { space with stackPointer := stackTop }

end Pager

end DemandPaging
