import DemandPaging.Record.Shape

/-!
Records written over several lines, one field a line.
-/

namespace DemandPaging

namespace Record

/-- The line of a field; every field but the last is followed by a comma. -/
def fieldLine (field : String × Nat) (isLast : Bool) : String :=
  "  \"" ++ field.1 ++ "\": " ++ toString field.2 ++ if isLast then "" else ","

def fieldLines : List (String × Nat) → List String
  | [] => []
  | [field] => [fieldLine field true]
  | field :: rest => fieldLine field false :: fieldLines rest

def lines (fields : List (String × Nat)) : List String :=
  "\x7b" :: fieldLines fields ++ ["\x7d"]

end Record

end DemandPaging
