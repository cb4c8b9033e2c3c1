import ArrayEngine.Error

/-!
# The machine

The facts about the machine that answers may depend on: whether 16-bit floats are available as
element types and how they are converted, how many hardware threads there are, and how much memory
one buffer may take.
-/

namespace ArrayEngine

/-- The machine that the library runs on. -/
structure Platform where
  /-- 16-bit floating-point elements can be computed with. -/
  halfPrecision : Bool := false
  /-- How 16-bit floating-point elements are converted. -/
  half : HalfFormat → HalfConversion
  /-- The number of hardware threads, or zero if it is not known. -/
  hardwareThreads : Nat := 0
  /-- The largest number of bytes that one buffer may take. -/
  bufferLimit : Nat := 1 <<< 36

namespace Platform

/-- A machine with four threads and room for 64 bytes in a buffer. -/
def small : Platform where
  half := HalfFormat.truncating
  hardwareThreads := 4
  bufferLimit := 64

/-- The number of threads that can run at once; an unknown number counts as one. -/
def concurrency (platform : Platform) : Nat :=
  Nat.max 1 platform.hardwareThreads

/-- Elements of the type can be computed with. Truth values are only stored. -/
def computes (platform : Platform) (dtype : DType) : Bool :=
  match dtype with
  | .bool => false
  | .f16 | .bf16 => platform.halfPrecision
  | _ => true

/-- Fails for a type whose elements cannot be computed with, in the name of an operation. -/
def require (platform : Platform) (dtype : DType) (operation : String) : Except Error Unit :=
  if platform.computes dtype then .ok () else .error (.unsupportedType dtype operation)

end Platform

end ArrayEngine
