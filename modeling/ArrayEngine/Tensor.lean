import ArrayEngine.Layout.Cursor
import ArrayEngine.Layout.Reshape
import ArrayEngine.Storage
import ArrayEngine.Update

/-!
# Arrays

A tensor is a layout together with a buffer. Its `i`-th element is the cell at the offset that the
layout gives to `i`. A tensor owns its buffer: reading one through another layout copies it, and a
write to the copy leaves the first array as it is.

Buffers are refused if there is no memory for them. A list of elements, of which an array that
repeats its cells may have many more than its buffer, may have any length here, also one for which a
machine has no room (`listLimit`).
-/

namespace ArrayEngine

/-- An array: a layout and the buffer that it describes. -/
structure Tensor where
  layout : Layout
  storage : Storage
  deriving DecidableEq

namespace Tensor

/-- The element type. -/
def dtype (tensor : Tensor) : DType :=
  tensor.layout.dtype

/-- The number of elements. -/
def size (tensor : Tensor) : Nat :=
  tensor.layout.size

/-- The extents along each axis. -/
def extents (tensor : Tensor) : List Nat :=
  tensor.layout.extents

/-- An array of zeros with this layout. -/
def zeros (platform : Platform) (layout : Layout) : Except Error Tensor := do
  pure ⟨layout, ← Storage.zeroed platform layout.requiredCells layout.dtype⟩

/-- The row-major array with these elements and extents, which must agree in number. The number for
the extents is their product modulo the number of sizes. -/
def ofList (platform : Platform) {dtype : DType} (values : List (Scalar dtype))
    (extents : List Nat) : Except Error Tensor :=
  if values.length = Size.product extents then do
    pure ⟨.packed extents .rowMajor dtype, ← Storage.ofList platform values⟩
  else .error (.shapeMismatch extents [values.length])

/-- The array without axes that holds one element. -/
def scalar (platform : Platform) {dtype : DType} (value : Scalar dtype) : Except Error Tensor :=
  ofList platform [value] []

/-- The layout needs more cells than the buffer has. -/
def layoutTooLarge (layout : Layout) (held : Nat) : Error :=
  .invalidShape ("layout " ++ layout.describe ++
    s!" addresses {layout.requiredCells} elements but the buffer holds {held}")

/-- A copy of the array whose buffer is read through another layout of the same element type. The
layout must not reach beyond the buffer. -/
def withLayout (tensor : Tensor) (layout : Layout) : Except Error Tensor :=
  if layout.dtype ≠ tensor.dtype then .error (.typeMismatch layout.dtype tensor.dtype)
  else if tensor.storage.size < layout.requiredCells then
    .error (layoutTooLarge layout tensor.storage.size)
  else .ok ⟨layout, tensor.storage⟩

/-- A copy of the array with two axes exchanged. -/
def transposed (tensor : Tensor) (i j : Nat) : Except Error Tensor := do
  tensor.withLayout (← tensor.layout.transpose i j)

/-- The elements of the stated type, in the order of the layout. Those of an array without gaps are
the first cells of its buffer. -/
def toList? (tensor : Tensor) (dtype : DType) : Except Error (List (Scalar dtype)) :=
  (tensor.storage.cells? dtype).map fun cells ↦
    if tensor.layout.isPacked then cells.toList.take tensor.size
    else gather cells tensor.layout.offsets

/-- Writes all elements, given in the order of the layout. Their number is checked before their
type. -/
def write {dtype : DType} (values : List (Scalar dtype)) : Update Tensor := fun tensor ↦
  if values.length ≠ tensor.size then
    .error (.shapeMismatch tensor.extents [values.length]) tensor
  else
    match tensor.storage.modify? dtype (scatter · tensor.layout.offsets values) with
    | .error error => .error error tensor
    | .ok storage => .ok () { tensor with storage }

/-- Writes one cell of the buffer. -/
def setCell {dtype : DType} (offset : Nat) (value : Scalar dtype) : Update Tensor := fun tensor ↦
  match tensor.storage.modify? dtype (·.setIfInBounds offset value) with
  | .error error => .error error tensor
  | .ok storage => .ok () { tensor with storage }

/-- Writes the elements of another array, which must be of a type that can be computed with, in the
order of the layouts. -/
def copyFrom (platform : Platform) (source : Tensor) : Update Tensor := fun tensor ↦
  match platform.require source.dtype "copy" with
  | .error error => .error error tensor
  | .ok _ =>
      match source.toList? source.dtype with
      | .error error => .error error tensor
      | .ok values => write values tensor

/-- A copy of the array without gaps in its buffer, with the same extents and order. An array that
has the layout already is returned as it is. -/
def toPacked (platform : Platform) (tensor : Tensor) : Except Error Tensor :=
  let layout := Layout.packed tensor.extents tensor.layout.order tensor.dtype
  if tensor.layout = layout then .ok tensor
  else
    match zeros platform layout with
    | .error error => .error error
    | .ok blank =>
        match copyFrom platform tensor blank with
        | .error error _ => .error error
        | .ok _ filled => .ok filled

/-- The array as messages show it. -/
def describe (tensor : Tensor) : String :=
  Text.record "NdArray"
    [("descriptor", tensor.layout.describe), ("storage", tensor.storage.describe)]

end Tensor

end ArrayEngine
