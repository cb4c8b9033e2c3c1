import ArrayEngine.FloatFormat

/-!
# 16-bit floating-point formats

Elements of a 16-bit format are computed with as double-precision numbers: they are converted to
these, and results are converted back. How this is done belongs to the machine. A `HalfConversion`
is any way to do it, and nothing is assumed of it; `HalfFormat.truncating` is one that cuts off the
lower half of a number before it rounds the rest.
-/

namespace ArrayEngine

/-- A 16-bit floating-point format. -/
inductive HalfFormat where
  | binary16 | bfloat16
  deriving DecidableEq, Repr

/-- How the bits of a 16-bit number become those of a double-precision one, and the other way
round. -/
structure HalfConversion where
  toDouble : BitVec 16 → BitVec 64
  ofDouble : BitVec 64 → BitVec 16

namespace HalfFormat

/-- The fields of the format. -/
def fields : HalfFormat → FloatFormat
  | binary16 => .binary16
  | bfloat16 => .bfloat16

/-- The conversion that rounds a number from its upper half alone: the last 32 bits, which never fit
into the format, are cut off. A number of the format itself is converted exactly. -/
def truncating (format : HalfFormat) : HalfConversion where
  toDouble bits := .ofNat 64 (format.fields.transcode .binary64 bits.toNat)
  ofDouble bits :=
    let upper :=
      if FloatFormat.binary64.decode bits.toNat = .nan then bits.toNat
      else bits.toNat >>> 32 <<< 32
    .ofNat 16 (FloatFormat.binary64.transcode format.fields upper)

end HalfFormat

end ArrayEngine
