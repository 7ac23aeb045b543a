/-!
The two places where devices and files keep their content.
-/

namespace DemandPaging

/-- Where a device or a file keeps its content. -/
inductive Medium where
  | memory
  | host
  deriving DecidableEq

end DemandPaging
