import ArrayEngine.Error
import ArrayEngine.Size

/-!
# Layouts

A layout describes how the elements of an n-dimensional array lie in a flat buffer, without the
buffer itself. The element at coordinates `c₀, c₁, …` lies at the offset `c₀ · s₀ + c₁ · s₁ + …`,
where `s` are the strides, counted in elements. The traversal order says which element is the
`i`-th one. If the `i`-th element lies at `i · s` for one number `s`, that number is the uniform
stride of the layout, and it is kept beside the strides.

`strided` builds a layout from given strides and refuses those that a 64-bit machine cannot
address; `packed` builds the layout without gaps.
-/

namespace ArrayEngine

/-- The order in which the elements of an array are numbered. -/
inductive Order where
  /-- The last coordinate varies fastest. -/
  | rowMajor
  /-- The first coordinate varies fastest. -/
  | columnMajor
  deriving DecidableEq, Repr, Inhabited

namespace Order

/-- The letter that stands for the order. -/
def letter : Order → Char
  | rowMajor => 'c'
  | columnMajor => 'f'

/-- Brings a list with one entry per axis into the order from the fastest axis to the slowest, and
such a list back into the order of the axes. -/
def arrange {α : Type} (order : Order) (entries : List α) : List α :=
  match order with
  | rowMajor => entries.reverse
  | columnMajor => entries

/-- Arranging twice gives the list back. -/
@[simp] theorem arrange_arrange {α : Type} (order : Order) (entries : List α) :
    order.arrange (order.arrange entries) = entries := by
  cases order <;> simp [arrange]

@[simp] theorem length_arrange {α : Type} (order : Order) (entries : List α) :
    (order.arrange entries).length = entries.length := by
  cases order <;> simp [arrange]

end Order

/-- One axis of a layout. -/
structure Axis where
  extent : Nat
  stride : Nat
  deriving DecidableEq, Repr

/-- How the elements of an array lie in a buffer. -/
structure Layout where
  /-- The number of coordinates along each axis. -/
  extents : List Nat
  /-- The number of buffer elements between neighbours along each axis. -/
  strides : List Nat
  order : Order
  /-- The number `s` such that the `i`-th element lies at `i · s`, if there is one. -/
  uniformStride : Option Nat
  dtype : DType
  deriving DecidableEq, Repr

namespace Layout

/-- The largest number of axes of a layout. -/
def maxRank : Nat := 32

/-- The number of elements of an array with these extents. -/
def volume : List Nat → Nat
  | [] => 1
  | extent :: rest => extent * volume rest

/-- One more than the largest offset of an element, if it is a size; an array without elements has
no offsets. -/
def span? (extents strides : List Nat) : Option Nat :=
  if extents.contains 0 then some 0 else do
    let last ← (extents.zip strides).foldlM
      (fun last (extent, stride) ↦ do Size.add? last (← Size.mul? (extent - 1) stride)) 0
    Size.add? last 1

/-- The uniform stride along axes given from the fastest to the slowest. `base` is the stride of
the fastest axis with more than one coordinate, once it has been met, and `span` the number of
elements of the axes that were passed; each further axis has to step over exactly those. -/
def uniformAlong : Option Nat → Nat → List Axis → Option Nat
  | base, _, [] => some (base.getD 1)
  | base, span, axis :: rest =>
      if axis.extent = 1 then uniformAlong base span rest
      else
        match base with
        | none =>
            if axis.stride = 0 then none
            else (Size.mul? span axis.extent).bind fun wider ↦
              uniformAlong (some axis.stride) wider rest
        | some stride =>
            (Size.mul? stride span).bind fun step ↦
              if axis.stride = step then
                (Size.mul? span axis.extent).bind fun wider ↦ uniformAlong base wider rest
              else none

/-- The uniform stride of a layout with these extents and strides. It is one if there is at most
one element. -/
def findUniformStride (extents strides : List Nat) (order : Order) : Option Nat :=
  if (Size.count? extents).any (· ≤ 1) then some 1
  else uniformAlong none 1 (order.arrange (extents.zipWith Axis.mk strides))

/-- The layout with these extents and strides. -/
def make (extents strides : List Nat) (order : Order) (dtype : DType) : Layout :=
  { extents, strides, order, dtype
    uniformStride := findUniformStride extents strides order }

/-- The strides without gaps of extents given from the fastest axis to the slowest, if the fastest
one has this stride. A stride that would be too large is the largest size. -/
def packedStrides : Nat → List Nat → List Nat
  | _, [] => []
  | stride, extent :: rest => stride :: packedStrides (Size.mulClamped stride extent) rest

/-- The layout without gaps. -/
def packed (extents : List Nat) (order : Order) (dtype : DType) : Layout :=
  make extents (order.arrange (packedStrides 1 (order.arrange extents))) order dtype

/-- The layout of a single element without axes. -/
def scalar (dtype : DType) : Layout :=
  packed [] .rowMajor dtype

/-- The extents hold more elements than can be counted. -/
def tooManyElements (extents : List Nat) : Error :=
  .invalidShape ("extents " ++ Text.bracketed extents ++
    " hold more elements than usize can count")

/-- The layout with given strides. It is refused if there are too many axes, if extents and strides
differ in number, if an offset is no size, or if the elements cannot be counted. -/
def strided (extents strides : List Nat) (order : Order) (dtype : DType) : Except Error Layout :=
  if extents.length > maxRank then
    .error (.invalidShape s!"rank {extents.length} exceeds maximum rank {maxRank}")
  else if extents.length ≠ strides.length then
    .error (.invalidShape s!"{extents.length} extents but {strides.length} strides")
  else if (span? extents strides).isNone then
    .error (.invalidShape ("extents " ++ Text.bracketed extents ++ " with strides " ++
      Text.bracketed strides ++ " overflow the address space"))
  else if (Size.count? extents).isNone then
    .error (tooManyElements extents)
  else
    .ok (make extents strides order dtype)

/-- The number of axes. -/
def rank (layout : Layout) : Nat :=
  layout.extents.length

/-- The number of elements. -/
def size (layout : Layout) : Nat :=
  volume layout.extents

/-- There are no elements. -/
def isEmpty (layout : Layout) : Bool :=
  layout.size == 0

/-- There are no axes. -/
def isScalar (layout : Layout) : Bool :=
  layout.extents.isEmpty

/-- The `i`-th element lies at the offset `i`. -/
def isPacked (layout : Layout) : Bool :=
  layout.uniformStride == some 1

/-- The number of buffer elements that the layout needs, or the largest size if that is no size. -/
def requiredCells (layout : Layout) : Nat :=
  (span? layout.extents layout.strides).getD Size.largest

/-- The axes from the fastest to the slowest. -/
def walk (layout : Layout) : List Axis :=
  layout.order.arrange (layout.extents.zipWith Axis.mk layout.strides)

/-- The same layout for another element type. -/
def withDType (layout : Layout) (dtype : DType) : Layout :=
  { layout with dtype }

/-- The layout as messages show it. -/
def describe (layout : Layout) : String :=
  Text.record "ShapeDescriptor"
    [("shape", Text.bracketed layout.extents),
     ("strides", Text.bracketed layout.strides),
     ("order", "'" ++ layout.order.letter.toString ++ "'"),
     ("ews", Text.optional layout.uniformStride),
     ("dtype", layout.dtype.name)]

end Layout

end ArrayEngine
