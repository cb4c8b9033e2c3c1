/-!
# Binary floating-point formats

A format is given by the widths of its exponent and fraction fields. `decode` reads a bit pattern
as an exact value `± significand · 2 ^ exponent`, and `encode` rounds such a value to the nearest
pattern of a format, a tie going to the pattern whose last bit is zero. `transcode` goes from one
format to another.
-/

namespace ArrayEngine

/-- A binary interchange format: a sign bit, an exponent field and a fraction field. -/
structure FloatFormat where
  exponentBits : Nat
  fractionBits : Nat
  deriving DecidableEq, Repr

/-- A floating-point datum without its format. -/
inductive FloatDatum where
  | nan
  | infinite (negative : Bool)
  /-- The value `significand · 2 ^ exponent`, or its opposite if `negative`. -/
  | finite (negative : Bool) (significand : Nat) (exponent : Int)
  deriving DecidableEq, Repr

namespace FloatDatum

/-- An integer as an exact datum. -/
def ofInt (n : Int) : FloatDatum :=
  .finite (n < 0) n.natAbs 0

/-- The integer part of the datum, rounded toward zero and brought into the range from `low` to
`high`. A datum that is no number counts as zero. -/
def toIntWithin (low high : Int) : FloatDatum → Int
  | .nan => 0
  | .infinite negative => if negative then low else high
  | .finite negative significand exponent =>
      let magnitude : Nat :=
        if 0 ≤ exponent then significand <<< exponent.toNat
        else significand >>> (-exponent).toNat
      max low (min high (if negative then -(magnitude : Int) else magnitude))

end FloatDatum

/-- The quotient `n / 2 ^ shift` rounded to the nearest integer, a tie going to the even one. -/
def roundHalfEven (n shift : Nat) : Nat :=
  let unit := 1 <<< shift
  let quotient := n / unit
  let remainder := n % unit
  if 2 * remainder > unit || (2 * remainder == unit && quotient % 2 == 1) then
    quotient + 1
  else
    quotient

namespace FloatFormat

/-- Double precision, 64 bits. -/
def binary64 : FloatFormat := ⟨11, 52⟩

/-- Single precision, 32 bits. -/
def binary32 : FloatFormat := ⟨8, 23⟩

/-- Half precision, 16 bits. -/
def binary16 : FloatFormat := ⟨5, 10⟩

/-- The 16-bit format with the exponent range of single precision. -/
def bfloat16 : FloatFormat := ⟨8, 7⟩

/-- The place of the sign bit, which is also the number of bits below it. -/
def signPlace (format : FloatFormat) : Nat :=
  format.exponentBits + format.fractionBits

/-- The exponent of the smallest positive value of the format. -/
def leastExponent (format : FloatFormat) : Int :=
  2 - (1 <<< (format.exponentBits - 1) : Nat) - format.fractionBits

/-- The pattern of positive infinity: the exponent field is all ones, the fraction is zero. -/
def infinityPattern (format : FloatFormat) : Nat :=
  (1 <<< format.exponentBits - 1) <<< format.fractionBits

/-- The pattern that stands for a result that is no number. -/
def nanPattern (format : FloatFormat) : Nat :=
  format.infinityPattern + 1 <<< (format.fractionBits - 1)

/-- The pattern of the number one. -/
def onePattern (format : FloatFormat) : Nat :=
  (1 <<< (format.exponentBits - 1) - 1) <<< format.fractionBits

/-- The datum that a bit pattern of the format denotes. -/
def decode (format : FloatFormat) (pattern : Nat) : FloatDatum :=
  let negative := pattern.testBit format.signPlace
  let field := (pattern % 1 <<< format.signPlace) >>> format.fractionBits
  let fraction := pattern % 1 <<< format.fractionBits
  if field = 1 <<< format.exponentBits - 1 then
    if fraction = 0 then .infinite negative else .nan
  else if field = 0 then
    .finite negative fraction format.leastExponent
  else
    .finite negative (1 <<< format.fractionBits + fraction) (format.leastExponent + (field - 1))

/-- The pattern, without its sign, nearest to `significand · 2 ^ exponent`. The significand is
rounded at the exponent `unit` of the last place; the carry of a rounding moves into the exponent
field, and a value beyond the largest finite one becomes infinity. -/
def roundMagnitude (format : FloatFormat) (significand : Nat) (exponent : Int) : Nat :=
  if significand = 0 then 0 else
    let unit := max (exponent + significand.log2 - format.fractionBits) format.leastExponent
    let rounded :=
      if unit ≤ exponent then significand <<< (exponent - unit).toNat
      else roundHalfEven significand (unit - exponent).toNat
    min ((unit - format.leastExponent).toNat <<< format.fractionBits + rounded)
      format.infinityPattern

/-- A pattern without sign, given the sign bit of a negative value. -/
def signed (format : FloatFormat) (negative : Bool) (magnitude : Nat) : Nat :=
  if negative then 1 <<< format.signPlace + magnitude else magnitude

/-- The bit pattern of the format nearest to a datum. -/
def encode (format : FloatFormat) : FloatDatum → Nat
  | .nan => format.nanPattern
  | .infinite negative => format.signed negative format.infinityPattern
  | .finite negative significand exponent =>
      format.signed negative (format.roundMagnitude significand exponent)

/-- The bit pattern of another format nearest to a pattern of this one. One that is no number keeps
its sign and the first bits of its fraction, and is quiet. -/
def transcode (format target : FloatFormat) (pattern : Nat) : Nat :=
  match format.decode pattern with
  | .nan =>
      let fraction := pattern % 1 <<< format.fractionBits
      let leading := fraction <<< target.fractionBits >>> format.fractionBits
      target.signed (pattern.testBit format.signPlace) (target.nanPattern ||| leading)
  | datum => target.encode datum

end FloatFormat

end ArrayEngine
