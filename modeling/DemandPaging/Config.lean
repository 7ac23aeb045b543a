import DemandPaging.Address

/-!
What is fixed for the life of the virtual memory: the layout of user memory, the size of the frame pool,
and the arithmetic of the build.
-/

namespace DemandPaging

/-- What a build does where a sum or a difference is computed without a check and is no word. -/
inductive Arithmetic where
  /-- The kernel stops. -/
  | checked
  /-- The kernel goes on with the remainder modulo the number of words. -/
  | wrapping
  deriving DecidableEq

/-- Layout and sizing of the virtual memory. -/
structure Config where
  /-- The number of frames in the pool. -/
  frameCount : Nat := 64
  /-- The first address above the stack, which grows down from here. -/
  stackTop : Nat := 0x47480000
  /-- The number of bytes that the stack may take. -/
  maxStackSize : Nat := 1048576
  /-- The first address of kernel space, which no user access may reach. -/
  kernelBase : Nat := 0x8004000000
  /-- How far below the stack pointer an access still counts as a push. -/
  stackSlack : Nat := 8
  /-- The arithmetic of the build. Records of a configuration do not name it. -/
  arithmetic : Arithmetic := .checked
  deriving DecidableEq

namespace Config

def stackLimit (config : Config) : Nat :=
  config.stackTop - config.maxStackSize

end Config

end DemandPaging
