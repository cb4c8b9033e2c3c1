import ArrayEngine.Layout.Cursor

/-!
# Splitting a layout along axes

A set of axes splits an array into slices: a slice spans the chosen axes, and there is one slice for
each choice of coordinates on the other axes, which are kept. Slices are numbered in row-major order
of the kept axes, whatever the order of the array. Choosing no axis or all axes is not worth a list
of slices, and each has a form of its own.

The list of slices may have any length here, also one for which a machine has no room (`listLimit`).
-/

namespace ArrayEngine

/-- The slices of a layout along some of its axes. -/
structure Slices where
  /-- The layout of one slice. -/
  layout : Layout
  /-- The offset of the first element of each slice. -/
  bases : List Nat
  /-- The extents of the kept axes. -/
  kept : List Nat
  deriving DecidableEq, Repr

namespace Slices

/-- The number of slices. -/
def count (slices : Slices) : Nat :=
  slices.bases.length

/-- The number of elements of a slice. -/
def sliceSize (slices : Slices) : Nat :=
  slices.layout.size

end Slices

/-- How a set of axes splits a layout. -/
inductive AxisSplit where
  /-- No axis is chosen: every element stands for itself. -/
  | elements
  /-- Every axis is chosen: the array is one slice. -/
  | whole
  | slices (slices : Slices)
  deriving DecidableEq, Repr

/-- The split is one of the two that have no list of slices. -/
def AxisSplit.isDegenerate : AxisSplit → Bool
  | .slices _ => false
  | _ => true

namespace Layout

/-- An axis was named twice. -/
def repeatedAxis (axis : Nat) : Error :=
  .invalidArgument "axes" s!"axis {axis} appears more than once"

/-- Marks the listed axes, and fails at the first one that does not exist or is marked already. -/
def markAxes (mask : List Bool) : List Nat → Except Error (List Bool)
  | [] => .ok mask
  | axis :: rest =>
      match mask[axis]? with
      | none => .error (.invalidAxis axis mask.length)
      | some true => .error (repeatedAxis axis)
      | some false => markAxes (mask.set axis true) rest

/-- For each axis, whether it is listed. -/
def axisMask (axes : List Nat) (rank : Nat) : Except Error (List Bool) :=
  markAxes (List.replicate rank false) axes

/-- The entries whose axes are marked as `chosen`. -/
def select (mask : List Bool) (chosen : Bool) (entries : List Nat) : List Nat :=
  ((mask.zip entries).filter fun (marked, _) ↦ marked == chosen).map Prod.snd

/-- The slices along the marked axes. -/
def slicesAlong (layout : Layout) (mask : List Bool) : Except Error Slices := do
  let slice ← strided (select mask true layout.extents) (select mask true layout.strides)
    layout.order layout.dtype
  let kept := select mask false layout.extents
  let outer ← strided kept (select mask false layout.strides) .rowMajor layout.dtype
  pure ⟨slice, outer.offsets, kept⟩

/-- The split of a layout along a list of axes. -/
def splitAlong (layout : Layout) (axes : List Nat) : Except Error AxisSplit := do
  let mask ← axisMask axes layout.rank
  if axes.isEmpty then pure .elements
  else if axes.length = layout.rank then pure .whole
  else pure (.slices (← layout.slicesAlong mask))

end Layout

end ArrayEngine
