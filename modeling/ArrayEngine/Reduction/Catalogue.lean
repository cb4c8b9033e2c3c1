import ArrayEngine.DTypeSet
import ArrayEngine.Error
import ArrayEngine.Reduction.Strategy
import ArrayEngine.Scalar

/-!
# The reductions

The catalogue of the built-in reductions: opcode, name and output types of each, and the strategy
that computes it. `strategy` accumulates in double precision and serves all types; `intStrategy`
accumulates in the integer type itself, for the reductions whose result has the type of the
elements. `outputExtents` gives the shape of a result.
-/

namespace ArrayEngine

/-- A built-in reduction. -/
inductive Reduction where
  /-- The sum of the elements. -/
  | sum
  /-- The mean of the elements. -/
  | mean
  /-- The largest element. -/
  | max
  /-- The smallest element. -/
  | min
  /-- The product of the elements. -/
  | prod
  /-- The mean of the absolute values. -/
  | absMean
  /-- The largest absolute value. -/
  | absMax
  /-- The smallest absolute value. -/
  | absMin
  /-- The sum of the absolute values. -/
  | norm1
  /-- The root of the sum of the squares. -/
  | norm2
  /-- The largest absolute value, as a norm. -/
  | normMax
  /-- The sum of the squares. -/
  | squaredNorm
  /-- The number of elements that differ from zero. -/
  | countNonZero
  deriving DecidableEq, Repr, Inhabited

/-- Which types the result of a reduction can have. -/
inductive OutputRule where
  /-- The type of the elements. -/
  | sameAsInput
  /-- Any floating-point type. -/
  | floats
  /-- Any integer type. -/
  | ints
  deriving DecidableEq, Repr

/-- The larger of two numbers; one that is no number loses against one that is. -/
def floatMax (x y : Float) : Float :=
  if x.isNaN then y else if y.isNaN then x else if x < y then y else x

/-- The smaller of two numbers; one that is no number loses against one that is. -/
def floatMin (x y : Float) : Float :=
  if x.isNaN then y else if y.isNaN then x else if y < x then y else x

/-- A count in double precision, rounded to the nearest number. -/
def floatOfCount (count : Nat) : Float :=
  Float.ofBits (UInt64.ofNat (FloatFormat.binary64.encode (.ofInt count)))

/-- Positive infinity in double precision. -/
def floatInfinity : Float :=
  Float.ofBits (UInt64.ofNat FloatFormat.binary64.infinityPattern)

namespace Reduction

/-- Every reduction, in ascending order of opcodes. -/
def all : List Reduction :=
  [sum, mean, max, min, prod, absMean, absMax, absMin, norm1, norm2, normMax, squaredNorm,
    countNonZero]

/-- The number of the reduction as an operation. -/
def opcode : Reduction → Nat
  | sum => 0 | mean => 1 | max => 2 | min => 3 | prod => 4
  | absMean => 5 | absMax => 6 | absMin => 7
  | norm1 => 8 | norm2 => 9 | normMax => 10 | squaredNorm => 11
  | countNonZero => 12

/-- The reduction with this opcode. -/
def ofOpcode? (opcode : Nat) : Option Reduction :=
  all.find? fun reduction ↦ reduction.opcode == opcode

/-- The reduction with this opcode, or an error if there is none. -/
def ofOpcode (opcode : Nat) : Except Error Reduction :=
  match ofOpcode? opcode with
  | some reduction => .ok reduction
  | none => .error (.unknownOperation opcode)

/-- The name of the reduction as an operation. -/
def name : Reduction → String
  | sum => "reduce_sum"
  | mean => "reduce_mean"
  | max => "reduce_max"
  | min => "reduce_min"
  | prod => "reduce_prod"
  | absMean => "reduce_amean"
  | absMax => "reduce_amax"
  | absMin => "reduce_amin"
  | norm1 => "reduce_norm1"
  | norm2 => "reduce_norm2"
  | normMax => "reduce_norm_max"
  | squaredNorm => "reduce_sqnorm"
  | countNonZero => "count_nonzero"

/-- Which types the result can have. -/
def outputRule : Reduction → OutputRule
  | sum | max | min | prod | absMax | absMin => .sameAsInput
  | mean | absMean | norm1 | norm2 | normMax | squaredNorm => .floats
  | countNonZero => .ints

/-- The types that the result can have for some type of the elements. -/
def outputTypes (reduction : Reduction) : DTypeSet :=
  match reduction.outputRule with
  | .sameAsInput => .numeric
  | .floats => .floats
  | .ints => .ints

/-- The type of the result if the caller asks for none. -/
def defaultOutput (reduction : Reduction) (input : DType) : DType :=
  match reduction.outputRule with
  | .sameAsInput => input
  | .floats => if input.isFloat then input else .f32
  | .ints => .i64

/-- The reduction by an accumulator in double precision. -/
def strategy (reduction : Reduction) (platform : Platform) (input output : DType) :
    Strategy (Scalar input) Float (Scalar output) where
  seed :=
    match reduction with
    | prod => 1
    | max => -floatInfinity
    | min | absMin => floatInfinity
    | _ => 0
  combine acc element :=
    let x := element.toFloat platform
    match reduction with
    | sum | mean => acc + x
    | max => floatMax acc x
    | min => floatMin acc x
    | prod => acc * x
    | absMean | norm1 => acc + x.abs
    | absMax | normMax => floatMax acc x.abs
    | absMin => floatMin acc x.abs
    | norm2 | squaredNorm => acc + x * x
    | countNonZero => acc + (if x != 0 then 1 else 0)
  merge left right :=
    match reduction with
    | max | absMax | normMax => floatMax left right
    | min | absMin => floatMin left right
    | prod => left * right
    | _ => left + right
  finalize acc count :=
    .ofFloat platform output <|
      match reduction with
      | mean | absMean => acc / floatOfCount count
      | norm2 => acc.sqrt
      | _ => acc

/-- The reduction by an accumulator in the integer type of the elements, with sums and products
modulo its width. Without elements the largest one is the least number of the type, and the smallest
one the greatest. -/
def intStrategy (reduction : Reduction) (dtype : DType) :
    Strategy (Scalar dtype) (Scalar dtype) (Scalar dtype) where
  seed :=
    match reduction with
    | prod => .one dtype
    | max => .lowest dtype
    | min | absMin => .highest dtype
    | _ => .zero dtype
  combine acc element :=
    match reduction with
    | max => acc.max element
    | min => acc.min element
    | prod => acc.mul element
    | absMax => acc.max element.magnitude
    | absMin => acc.min element.magnitude
    | _ => acc.add element
  merge left right :=
    match reduction with
    | max | absMax => left.max right
    | min | absMin => left.min right
    | prod => left.mul right
    | _ => left.add right
  finalize acc _ := acc

/-- The reduction has no strategy with an integer accumulator. -/
def noIntegerAccumulator (reduction : Reduction) : Error :=
  .internal s!"'{reduction.name}' has no integer accumulator"

/-- The reduction by an integer accumulator, for the reductions that have one. -/
def intStrategy? (reduction : Reduction) (dtype : DType) :
    Option (Strategy (Scalar dtype) (Scalar dtype) (Scalar dtype)) :=
  if reduction.outputRule = .sameAsInput then some (reduction.intStrategy dtype) else none

/-- The axes to reduce: those that are listed, or all. -/
def resolveAxes (axes : Option (List Nat)) (rank : Nat) : List Nat :=
  axes.getD (List.range rank)

/-- The extents of a result. The reduced axes get the extent one if they are kept, and are left out
otherwise. -/
def outputExtents (extents axes : List Nat) (keepDims : Bool) : List Nat :=
  if keepDims then
    extents.mapIdx fun axis extent ↦ if axes.contains axis then 1 else extent
  else
    (extents.zipIdx.filter fun (_, axis) ↦ !axes.contains axis).map Prod.fst

end Reduction

end ArrayEngine
