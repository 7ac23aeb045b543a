import DemandPaging.Failure

/-!
How a report shows the outcome of a call that answers nothing: by the name of the error and its parts.
-/

namespace DemandPaging

namespace AccessViolation

def name : AccessViolation → String
  | nullAddress => "NullAddress"
  | kernelAddress => "KernelAddress"
  | unmapped => "Unmapped"
  | readOnly => "ReadOnly"

end AccessViolation

def showParts (name : String) (parts : List (String × String)) : String :=
  name ++ " \x7b " ++ ", ".intercalate (parts.map fun part => part.1 ++ ": " ++ part.2) ++ " \x7d"

namespace PagingError

def shown : PagingError → String
  | invalidAccess address reason =>
      showParts "InvalidAccess" [("addr", virtText address), ("reason", reason.name)]
  | io address => showParts "Io" [("addr", virtText address)]
  | mappingFailed address => showParts "MappingFailed" [("addr", virtText address)]
  | swapExhausted => "SwapExhausted"
  | invalidArgument fault => "InvalidArgument(\"" ++ fault.message ++ "\")"
  | alreadyMapped address => showParts "AlreadyMapped" [("addr", virtText address)]
  | noSuchProcess pid => "NoSuchProcess(" ++ toString pid ++ ")"
  | processExists pid => "ProcessExists(" ++ toString pid ++ ")"
  | busy => "Busy"

end PagingError

def outcomeText : Except PagingError Unit → String
  | .ok _ => "Ok(())"
  | .error error => "Err(" ++ error.shown ++ ")"

end DemandPaging
