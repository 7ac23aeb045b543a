import DemandPaging.Pager.Call
import DemandPaging.Record.Pretty
import DemandPaging.Report.Outcome

/-!
A demonstration on eight frames. A process loads a program, maps a data file, pushes more stack than
fits into the frames and is copied. Parent and child write to their copies of the mapping; the child
then writes to its program and is killed, and the file shows what the parent wrote.
-/

namespace DemandPaging

namespace Demo

/-! ## The stage -/

def program : FileId := 0

def data : FileId := 1

/-- The number of program bytes behind the first two pages. -/
def programTail : Nat := 300

def programBytes : Array UInt8 :=
  (Array.range (2 * pageSize + programTail)).map fun index => (index % 251).toUInt8

def dataBytes : Array UInt8 :=
  "hello from the data file".toUTF8.data

def codeBase : Nat := 0x400000

def mapBase : Nat := 0x10000000

/-- Eight frames, a swap device of 256 sectors and the two files. -/
def stage : Pager :=
  Pager.create { frameCount := 8 } .clock (Device.blank .host 256)
    ⟨#[BackingFile.create .host programBytes, BackingFile.create .host dataBytes]⟩

/-! ## The lines -/

def asciiText (bytes : Array UInt8) : String :=
  String.ofList (bytes.toList.map fun byte => Char.ofNat byte.toNat)

def listText (bytes : Array UInt8) : String :=
  "[" ++ ", ".intercalate (bytes.toList.map fun byte => toString byte.toNat) ++ "]"

def statsLines : PagerM (List String) := do
  return Record.lines (Record.statsFields (← get).stats)

def fileText : PagerM String := do
  match (← get).files.get? data with
  | some file => return asciiText file.store.content
  | none => return ""

/-! ## The play -/

/-- Loads the program and sets up the stack and the mapping of the first process; the two files are
closed as soon as the virtual memory has its own handles. -/
def start : PagerM Unit := do
  Pager.createProcess 1
  Pager.loadSegment 1 program
    { va := codeBase
      offset := 0
      readBytes := 2 * pageSize + programTail
      zeroBytes := pageSize - programTail
      writable := false }
  modify fun pager => pager.closeFile program
  Pager.setupStack 1
  let _ ← Pager.map 1 mapBase pageSize true data 0
  modify fun pager => pager.closeFile data

/-- Pushes twelve pages of stack and answers with the stack pointer. -/
def pushStack : PagerM Nat := do
  let space ← Pager.requireSpace 1
  let stackPointer := space.stackPointer - 12 * pageSize
  Pager.setStackPointer 1 stackPointer
  Pager.writeUser 1 stackPointer (Array.replicate (12 * pageSize) 0x5a)
  return stackPointer

/-- The whole demonstration, with the lines it shows. -/
def play : PagerM (List String) := do
  start
  let stackPointer ← pushStack
  let code ← Pager.readUser 1 (codeBase + pageSize) 8
  Pager.writeUser 1 mapBase "HELLO".toUTF8.data
  Pager.fork 1 2
  Pager.writeUser 2 (mapBase + 6) "FROM".toUTF8.data
  let parent ← Pager.readUser 1 mapBase 24
  let child ← Pager.readUser 2 mapBase 24
  let outcome ← PagerM.attempt (Pager.handlePageFault 2
    { address := codeBase, isWrite := true, isPresent := true, stackPointer := stackPointer })
  Pager.unmap 1 mapBase
  let content ← fileText
  let before ← statsLines
  Pager.exitProcess 1
  let after ← statsLines
  return [
    "parent code bytes: " ++ listText code,
    "parent sees: " ++ asciiText parent,
    "child sees:  " ++ asciiText child,
    "child write to code: " ++ outcomeText outcome,
    "data file after munmap: " ++ content] ++ before ++ after

/-- The lines of the demonstration, if it runs to its end. -/
def lines : Option (List String) :=
  match play stage with
  | .ok lines _ => some lines
  | .error _ _ => none

end Demo

end DemandPaging
