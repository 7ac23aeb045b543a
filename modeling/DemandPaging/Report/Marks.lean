import DemandPaging.Pager.State

/-!
How a report shows pages: one short mark for each page, made of what the process knows about it and of
what its page table says.
-/

namespace DemandPaging

namespace AddressSpace

/-- The part of a mark that tells the page: `-` if there is none, else `A` for anonymous memory or `F`
for a file, with `r` while the page is resident. -/
def pageMark (space : AddressSpace) (va : Nat) : String :=
  match space.page? va with
  | none => "-"
  | some page =>
      let letter := match page.type with
        | .anonymous => "A"
        | .file => "F"
      letter ++ if page.isResident then "r" else ""

/-- The part of a mark that tells the page table entry: the frame behind `@`, then `w` if it may be
written, `d` if it is dirty, `a` if it was accessed. -/
def entryMark (space : AddressSpace) (va : Nat) : String :=
  match space.table.find? va with
  | none => ""
  | some entry =>
      "@" ++ toString (entry.base / pageSize) ++ (if entry.writable then "w" else "") ++
        (if entry.dirty then "d" else "") ++ if entry.accessed then "a" else ""

/-- The marks of `count` pages from an address on; behind the last address comes the first. -/
def marks (space : AddressSpace) (va count : Nat) : List String :=
  (List.range count).map fun index =>
    let address := (va + index * pageSize) % wordLimit
    space.pageMark address ++ space.entryMark address

end AddressSpace

end DemandPaging
