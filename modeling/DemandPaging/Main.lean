import DemandPaging.Demo

/-!
The command line program: it shows the demonstration.
-/

def main : IO UInt32 := do
  match DemandPaging.Demo.lines with
  | some lines =>
      for line in lines do
        IO.println line
      return 0
  | none =>
      IO.eprintln "the demonstration did not run to its end"
      return 1
