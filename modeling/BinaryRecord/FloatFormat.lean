import BinaryRecord.Size

/-!
# Binary floating-point formats

A format is given by the numbers of its exponent and fraction bits, and a pattern of it is a natural
number: the sign bit above the magnitude, which is the exponent field above the fraction. `half`,
`single` and `double` are the interchange formats of 16, 32 and 64 bits.

Magnitudes are exact. Every finite magnitude of the three formats is a whole number of units of
`2^-1074`, the least positive double, and `units` gives that number. `nearest` goes back: it gives
the magnitude of a format that is nearest to a number of units, the even one of two that are equally
near, and infinity from the point where the rounded value would need a larger exponent. `convert`
carries a pattern from one format to another through these two, so that it is exact wherever the
value has a pattern in the target.
-/

namespace BinaryRecord

/-- The shape of a binary floating-point format. -/
structure FloatFormat where
  /-- The number of bits of the exponent field. -/
  exponentBits : Nat
  /-- The number of bits of the fraction. -/
  fractionBits : Nat
  deriving DecidableEq, Repr

/-- The quotient rounded to the nearest whole number, and to the even one of two equally near. -/
def divideToNearest (n d : Nat) : Nat :=
  let quotient := n / d
  let twice := 2 * (n % d)
  if d < twice ∨ (twice = d ∧ quotient % 2 = 1) then quotient + 1 else quotient

namespace FloatFormat

/-- The format of 16 bits. -/
def half : FloatFormat := ⟨5, 10⟩

/-- The format of 32 bits. -/
def single : FloatFormat := ⟨8, 23⟩

/-- The format of 64 bits. -/
def double : FloatFormat := ⟨11, 52⟩

variable (format : FloatFormat)

/-- The number of bits below the sign. -/
def magnitudeBits : Nat :=
  format.exponentBits + format.fractionBits

/-- The magnitude of infinity: all ones in the exponent field, above a fraction of zero. Magnitudes
above it are not numbers. -/
def infinity : Nat :=
  (2^format.exponentBits - 1) * 2^format.fractionBits

/-- The magnitude of a pattern. -/
def magnitude (bits : Nat) : Nat :=
  bits % 2^format.magnitudeBits

/-- The sign of a pattern, 1 for a negative one. -/
def sign (bits : Nat) : Nat :=
  bits / 2^format.magnitudeBits % 2

/-- The pattern with the given sign and magnitude. -/
def pattern (sign magnitude : Nat) : Nat :=
  sign * 2^format.magnitudeBits + magnitude

/-- Whether a pattern stands for a number. -/
def isFinite (bits : Nat) : Bool :=
  format.magnitude bits < format.infinity

/-- Whether a pattern stands for an infinity. -/
def isInfinite (bits : Nat) : Bool :=
  format.magnitude bits == format.infinity

/-- Whether a pattern stands for no number. -/
def isNaN (bits : Nat) : Bool :=
  format.infinity < format.magnitude bits

/-- A unit is two to the power of the negative of this. -/
def unitExponent : Nat := 1074

/-- The least positive number of the format is `2^scale` units. The exponent field is biased by
`2^(exponentBits - 1) - 1`, and the least positive number has a field of zero, which counts as
one. -/
def scale : Nat :=
  unitExponent + 2 - (2^(format.exponentBits - 1) + format.fractionBits)

/-- The units of a finite magnitude. An exponent field of zero means the fraction alone; any other
means the fraction with a leading one, shifted by one less than the field. -/
def units (magnitude : Nat) : Nat :=
  let exponent := magnitude / 2^format.fractionBits
  let fraction := magnitude % 2^format.fractionBits
  if exponent = 0 then fraction * 2^format.scale
  else (2^format.fractionBits + fraction) * 2^(format.scale + exponent - 1)

/-- The magnitude nearest to `n` units. Numbers from `2^(fractionBits + scale)` units on keep
`fractionBits + 1` leading bits, and smaller ones are rounded to the grid of the least positive
number. A carry out of the fraction moves into the exponent field, which is what it should do. -/
def nearest (n : Nat) : Nat :=
  let shift := max format.scale (n.log2 - format.fractionBits)
  let rounded := (shift - format.scale) * 2^format.fractionBits + divideToNearest n (2^shift)
  min rounded format.infinity

/-- The magnitude that stands for no number and keeps the leading bits of a fraction from the source
format. Its first fraction bit is set, which marks it as quiet. -/
def quiet (source : FloatFormat) (fraction : Nat) : Nat :=
  let quietBit := 2^(format.fractionBits - 1)
  format.infinity + quietBit
    + fraction * 2^format.fractionBits / 2^source.fractionBits % quietBit

/-- The pattern of the target format for a pattern of the source format: the same sign, and the
nearest magnitude. Infinities stay infinities, and what is no number stays none. -/
def convert (source target : FloatFormat) (bits : Nat) : Nat :=
  let magnitude := source.magnitude bits
  target.pattern (source.sign bits)
    (if magnitude < source.infinity then target.nearest (source.units magnitude)
     else if magnitude = source.infinity then target.infinity
     else target.quiet source (magnitude - source.infinity))

end FloatFormat

/-- A floating-point number of 64 bits, as its pattern. Two are equal exactly when all their bits
are. -/
structure Binary64 where
  /-- The pattern. -/
  bits : UInt64
  deriving DecidableEq, Repr

namespace Binary64

open FloatFormat

/-- Whether it is a number. -/
def isFinite (x : Binary64) : Bool :=
  double.isFinite x.bits.toNat

/-- The number with the given pattern of a format. -/
def widen (format : FloatFormat) (bits : Nat) : Binary64 :=
  ⟨UInt64.ofNat (format.convert double bits)⟩

/-- The number nearest to an integer. -/
def ofInt (n : Int) : Binary64 :=
  ⟨UInt64.ofNat (double.pattern (if n < 0 then 1 else 0)
    (double.nearest (n.natAbs * 2^unitExponent)))⟩

/-- Whether two numbers compare as equal: zeros of either sign are, and what is no number is equal
to nothing. -/
def numericallyEqual (x y : Binary64) : Bool :=
  let m := double.magnitude x.bits.toNat
  let n := double.magnitude y.bits.toNat
  m ≤ double.infinity && n ≤ double.infinity && (x.bits == y.bits || (m == 0 && n == 0))

end Binary64

end BinaryRecord
