import ArrayEngine.Layout

/-!
# From element numbers to offsets

The `i`-th element of an array is found by writing `i` in the mixed radix of the extents, the
fastest axis first: the digits are the coordinates, and the offset is the sum of each digit times
the stride of its axis. A uniform stride makes the digits unnecessary. An `Indexer` answers many
such questions about one layout; if the number of elements fits in 32 bits, it divides 32-bit
numbers.
-/

namespace ArrayEngine

namespace Layout

/-- The digits of a number in the mixed radix of these extents, the fastest first. -/
def digits : List Nat → Nat → List Nat
  | [], _ => []
  | extent :: rest, i => i % extent :: digits rest (i / extent)

/-- The offset of the `i`-th element on axes given from the fastest to the slowest. -/
def offsetAlong : List Axis → Nat → Nat
  | [], _ => 0
  | axis :: rest, i => i % axis.extent * axis.stride + offsetAlong rest (i / axis.extent)

@[simp] theorem length_digits (extents : List Nat) (i : Nat) :
    (digits extents i).length = extents.length := by
  induction extents generalizing i with
  | nil => rfl
  | cons extent rest ih => simp [digits, ih]

/-- The offset of the `i`-th element. -/
def offsetOf (layout : Layout) (i : Nat) : Nat :=
  match layout.uniformStride with
  | some stride => i * stride
  | none => offsetAlong layout.walk i

end Layout

/-- The extents of a layout as 32-bit numbers, if the number of its elements is one. -/
structure NarrowTable where
  extents : List UInt32
  narrow : Bool
  deriving DecidableEq

namespace NarrowTable

/-- The table of a layout. -/
def ofLayout (layout : Layout) : NarrowTable :=
  if layout.size < 1 <<< 32 then ⟨layout.extents.map UInt32.ofNat, true⟩ else ⟨[], false⟩

/-- The table as messages show it. -/
def describe (table : NarrowTable) : String :=
  Text.record "CastTable"
    [("extents", Text.bracketed (table.extents.map UInt32.toNat)),
     ("narrow", Text.truth table.narrow)]

end NarrowTable

/-- A layout prepared for finding many offsets. -/
structure Indexer where
  layout : Layout
  table : NarrowTable
  /-- The axes from the fastest to the slowest. -/
  walk : List Axis
  deriving DecidableEq

namespace Indexer

/-- The indexer of a layout. -/
def ofLayout (layout : Layout) : Indexer :=
  ⟨layout, .ofLayout layout, layout.walk⟩

/-- The number of elements. -/
def size (indexer : Indexer) : Nat :=
  indexer.layout.size

/-- The offset of the `i`-th element, found with 32-bit divisions. -/
def offsetAlongNarrow : List (UInt32 × Nat) → UInt32 → Nat
  | [], _ => 0
  | (extent, stride) :: rest, i =>
      (i % extent).toNat * stride + offsetAlongNarrow rest (i / extent)

/-- The 32-bit extents and the strides, from the fastest axis to the slowest. -/
def narrowWalk (indexer : Indexer) : List (UInt32 × Nat) :=
  indexer.layout.order.arrange (indexer.table.extents.zip indexer.layout.strides)

/-- The offset of the `i`-th element. -/
def offsetOf (indexer : Indexer) (i : Nat) : Nat :=
  match indexer.layout.uniformStride with
  | some stride => i * stride
  | none =>
      if indexer.table.narrow then offsetAlongNarrow indexer.narrowWalk (UInt32.ofNat i)
      else Layout.offsetAlong indexer.walk i

/-- The coordinates of the `i`-th element, the fastest axis first. -/
def digits (indexer : Indexer) (i : Nat) : List Nat :=
  Layout.digits (indexer.walk.map Axis.extent) i

/-- The coordinates of the `i`-th element, in the order of the axes. -/
def coordsOf (indexer : Indexer) (i : Nat) : List Nat :=
  indexer.layout.order.arrange (indexer.digits i)

end Indexer

end ArrayEngine
