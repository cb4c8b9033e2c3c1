import ArrayEngine.DType

/-!
# Sets of element types

A set of element types is a bit mask in which the bit at place `dtype.tag` tells whether `dtype` is
a member.
-/

namespace ArrayEngine

/-- A set of element types. -/
structure DTypeSet where
  mask : Nat
  deriving DecidableEq, Repr

namespace DTypeSet

/-- The set without members. -/
def empty : DTypeSet := ⟨0⟩

/-- The set with one member. -/
def single (dtype : DType) : DTypeSet := ⟨1 <<< dtype.tag⟩

/-- The type is a member of the set. -/
def contains (set : DTypeSet) (dtype : DType) : Bool :=
  set.mask.testBit dtype.tag

/-- The types that are members of either set. -/
def union (a b : DTypeSet) : DTypeSet := ⟨a.mask ||| b.mask⟩

/-- The types that are members of both sets. -/
def inter (a b : DTypeSet) : DTypeSet := ⟨a.mask &&& b.mask⟩

/-- The set has no member. -/
def isEmpty (set : DTypeSet) : Bool := set.mask == 0

/-- The set of the types in a list. -/
def ofList (dtypes : List DType) : DTypeSet :=
  dtypes.foldl (fun set dtype ↦ set.union (single dtype)) empty

/-- The members, in ascending order of tags. -/
def toList (set : DTypeSet) : List DType :=
  DType.all.filter set.contains

/-- The floating-point types. -/
def floats : DTypeSet := ofList (DType.all.filter DType.isFloat)

/-- The signed integer types. -/
def signedInts : DTypeSet := ofList (DType.all.filter DType.isSignedInt)

/-- The unsigned integer types. -/
def unsignedInts : DTypeSet := ofList (DType.all.filter DType.isUnsignedInt)

/-- The integer types. -/
def ints : DTypeSet := signedInts.union unsignedInts

/-- The types of numbers. -/
def numeric : DTypeSet := floats.union ints

/-- All types. -/
def any : DTypeSet := numeric.union (single .bool)

/-- The set as messages show it. -/
def describe (set : DTypeSet) : String :=
  "DTypeSet \x7b bits: " ++ toString set.mask ++ " \x7d"

end DTypeSet

end ArrayEngine
