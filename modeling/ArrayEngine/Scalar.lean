import ArrayEngine.Platform

/-!
# Elements

`Scalar dtype` is one element of an array: the bits that an element of this type takes. An integer
type reads them in two's complement or as an unsigned number, a floating-point type by its format.
`convert` is the conversion between any two types: between integers it keeps the number modulo the
width of the target, and from a floating-point number it goes through double precision. To and from
the 16-bit formats, it is the machine that converts.
-/

namespace ArrayEngine

/-- One element of type `dtype`. -/
structure Scalar (dtype : DType) where
  bits : BitVec dtype.width
  deriving DecidableEq, Repr

namespace Scalar

/-- The element whose bits are those of a natural number, modulo the width of the type. -/
def ofPattern (dtype : DType) (pattern : Nat) : Scalar dtype :=
  ⟨BitVec.ofNat dtype.width pattern⟩

/-- The bits of an element as a natural number. -/
def pattern {dtype : DType} (x : Scalar dtype) : Nat :=
  x.bits.toNat

/-- The bits of an element read as an integer, in two's complement if the type is signed. -/
def value {dtype : DType} (x : Scalar dtype) : Int :=
  if dtype.isSignedInt then x.bits.toInt else x.bits.toNat

/-- The exact integer that an element of an integer type denotes. -/
def toInt? {dtype : DType} (x : Scalar dtype) : Option Int :=
  match dtype.encoding with
  | .integer _ => some x.value
  | _ => none

/-- The bits of the element as a double-precision number. An integer is rounded to the nearest one;
a truth value counts as its byte. -/
def toDouble (platform : Platform) {dtype : DType} (x : Scalar dtype) : BitVec 64 :=
  match dtype.encoding with
  | .double => x.bits.setWidth 64
  | .single => .ofNat 64 (FloatFormat.binary32.transcode .binary64 x.pattern)
  | .half format => (platform.half format).toDouble (x.bits.setWidth 16)
  | .integer _ | .truth => .ofNat 64 (FloatFormat.binary64.encode (.ofInt x.value))

/-- The element as a double-precision number. -/
def toFloat (platform : Platform) {dtype : DType} (x : Scalar dtype) : Float :=
  Float.ofBits (.ofBitVec (x.toDouble platform))

/-- The smallest number of an integer type. -/
def leastValue (dtype : DType) : Int :=
  if dtype.isSignedInt then -(1 <<< (dtype.width - 1) : Nat) else 0

/-- The largest number of an integer type. -/
def greatestValue (dtype : DType) : Int :=
  if dtype.isSignedInt then (1 <<< (dtype.width - 1) : Nat) - 1 else (1 <<< dtype.width : Nat) - 1

/-- The element nearest to a double-precision number with these bits: an integer type cuts off its
fraction and stays within its range, and the truth type asks whether it differs from zero. -/
def ofDouble (platform : Platform) (dtype : DType) (double : BitVec 64) : Scalar dtype :=
  let datum := FloatFormat.binary64.decode double.toNat
  match dtype.encoding with
  | .double => ⟨double.setWidth _⟩
  | .single => ofPattern dtype (FloatFormat.binary64.transcode .binary32 double.toNat)
  | .half format => ⟨((platform.half format).ofDouble double).setWidth _⟩
  | .integer _ =>
      ⟨BitVec.ofInt _ (datum.toIntWithin (leastValue dtype) (greatestValue dtype))⟩
  | .truth => ofPattern dtype (if datum.toIntWithin (-1) 1 = 0 then 0 else 1)

/-- The element nearest to a double-precision number. -/
def ofFloat (platform : Platform) (dtype : DType) (x : Float) : Scalar dtype :=
  ofDouble platform dtype x.toBits.toBitVec

/-- The element for an integer: an integer type keeps it modulo its width, and a floating-point
type rounds it. A 16-bit format rounds the nearest double-precision number. -/
def ofInt (platform : Platform) (dtype : DType) (n : Int) : Scalar dtype :=
  match dtype.encoding with
  | .double => ofPattern dtype (FloatFormat.binary64.encode (.ofInt n))
  | .single => ofPattern dtype (FloatFormat.binary32.encode (.ofInt n))
  | .half _ => ofDouble platform dtype (.ofNat 64 (FloatFormat.binary64.encode (.ofInt n)))
  | .integer _ => ⟨BitVec.ofInt _ n⟩
  | .truth => ofPattern dtype (if n = 0 then 0 else 1)

/-- The element zero. -/
def zero (dtype : DType) : Scalar dtype := ofPattern dtype 0

/-- The element one. -/
def one (dtype : DType) : Scalar dtype :=
  ofPattern dtype <|
    match dtype.encoding with
    | .double => FloatFormat.binary64.onePattern
    | .single => FloatFormat.binary32.onePattern
    | .half format => format.fields.onePattern
    | .integer _ | .truth => 1

/-- An element of another type: an integer is converted exactly before it is reduced or rounded,
any other element by way of its double-precision value. -/
def convert {source : DType} (platform : Platform) (target : DType) (x : Scalar source) :
    Scalar target :=
  match x.toInt? with
  | some n => ofInt platform target n
  | none => ofDouble platform target (x.toDouble platform)

/-! ## Integer arithmetic -/

/-- The element with the smallest number of an integer type. -/
def lowest (dtype : DType) : Scalar dtype := ⟨BitVec.ofInt _ (leastValue dtype)⟩

/-- The element with the largest number of an integer type. -/
def highest (dtype : DType) : Scalar dtype := ⟨BitVec.ofInt _ (greatestValue dtype)⟩

/-- The sum modulo the width of the type. -/
def add {dtype : DType} (x y : Scalar dtype) : Scalar dtype := ⟨x.bits + y.bits⟩

/-- The product modulo the width of the type. -/
def mul {dtype : DType} (x y : Scalar dtype) : Scalar dtype := ⟨x.bits * y.bits⟩

/-- The larger of two integers. -/
def max {dtype : DType} (x y : Scalar dtype) : Scalar dtype :=
  if x.value ≤ y.value then y else x

/-- The smaller of two integers. -/
def min {dtype : DType} (x y : Scalar dtype) : Scalar dtype :=
  if x.value ≤ y.value then x else y

/-- The absolute value of an integer; that of the smallest number of a signed type does not exist
in the type and is replaced by the largest number. -/
def magnitude {dtype : DType} (x : Scalar dtype) : Scalar dtype :=
  if x.value < 0 then
    if x.value = leastValue dtype then highest dtype else ⟨-x.bits⟩
  else x

end Scalar

end ArrayEngine
