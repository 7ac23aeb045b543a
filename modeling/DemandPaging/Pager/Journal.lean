import DemandPaging.Device
import DemandPaging.FramePool
import DemandPaging.Image
import DemandPaging.Page

/-!
What happened to pages, frames and slots, in the order in which it happened. Counters and contents show
what is left of a history; the journal keeps what laws about the history itself speak of.
-/

namespace DemandPaging

/-- Something that happened to a page. -/
inductive Activity where
  /-- A frame was handed to a page; `wasFree` tells whether it came from the free frames. -/
  | assigned (owner : Owner) (frame : Nat) (wasFree : Bool)
  /-- The content of a page of some kind was fetched, with or without success. -/
  | fetched (owner : Owner) (kind : PageKind) (succeeded : Bool)
  /-- A page got its first content. -/
  | loaded (owner : Owner) (load : LazyLoad) (content : Image)
  /-- A page of some kind gave up its frame to another page; `dirty` tells whether it was changed. -/
  | evicted (owner : Owner) (kind : PageKind) (dirty : Bool)
  /-- A changed page was written to its range, with or without success. -/
  | wroteBack (owner : Owner) (range : FileRange) (succeeded : Bool)
  /-- A page moved between its frame and a slot by some transfers; `reserved` tells whether the slot
  was in use meanwhile. -/
  | swapped (owner : Owner) (direction : Direction) (slot : Nat) (reserved : Bool)
      (transfers : List Transfer)
  /-- A page was removed with everything it held; `dirty` tells whether it was changed. -/
  | discarded (owner : Owner) (page : Page) (dirty : Bool)
  deriving DecidableEq

end DemandPaging
