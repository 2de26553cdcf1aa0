import BinaryRecord.Proofs.FloatFormat.Convert
import BinaryRecord.Proofs.FloatFormat.Nearest

/-!
# Doubles

A double is determined by its sign and its magnitude. `IsExact` says that another format has it,
too, and `IsNearestTo` that it is the one nearest to an integer, which is what `Binary64.ofInt`
gives (`isNearestTo_ofInt`).
-/

namespace BinaryRecord

open FloatFormat

namespace Binary64

/-- The magnitude of a double. -/
def magnitude (x : Binary64) : Nat :=
  double.magnitude x.bits.toNat

/-- The pattern of a widened number is the converted pattern. -/
theorem toNat_bits_widen (format : FloatFormat) (bits : Nat) :
    (widen format bits).bits.toNat = format.convert double bits := by
  have hwidth : format.convert double bits < 2^64 := convert_lt (by decide) bits
  rw [widen, UInt64.toNat_ofNat']
  exact Nat.mod_eq_of_lt hwidth

/-- Doubles with the same pattern are the same. -/
theorem eq_of_toNat_bits_eq {x y : Binary64} (h : x.bits.toNat = y.bits.toNat) : x = y := by
  obtain ⟨a⟩ := x
  obtain ⟨b⟩ := y
  obtain rfl : a = b := UInt64.toNat_inj.mp h
  rfl

/-- A double is one that the format has: its number is, or it is an infinity, or it is no number and
nothing is kept in its fraction. -/
def IsExact (format : FloatFormat) (x : Binary64) : Prop :=
  double.IsPlain x.magnitude ∧
    (x.magnitude < double.infinity → format.Representable (double.units x.magnitude))

/-! ## Integers -/

/-- The double is the one nearest to the integer: of its sign, and finite with the nearest
magnitude. -/
structure IsNearestTo (n : Int) (x : Binary64) : Prop where
  /-- The double is negative where the integer is. -/
  sign_eq : double.sign x.bits.toNat = if n < 0 then 1 else 0
  /-- The double is a number. -/
  magnitude_lt : x.magnitude < double.infinity
  /-- No number is nearer to the integer. -/
  isNearest : double.IsNearest (n.natAbs * 2^unitExponent) x.magnitude

/-- Only one double is nearest to an integer. -/
theorem IsNearestTo.unique {n : Int} {x y : Binary64} (hx : IsNearestTo n x)
    (hy : IsNearestTo n y) : x = y := by
  apply eq_of_toNat_bits_eq
  calc x.bits.toNat
      = double.pattern (double.sign x.bits.toNat) x.magnitude :=
        (double.pattern_sign_magnitude x.bits.toNat_lt).symm
    _ = double.pattern (double.sign y.bits.toNat) y.magnitude := by
        rw [hx.sign_eq, hy.sign_eq, hx.isNearest.unique hy.isNearest]
    _ = y.bits.toNat := double.pattern_sign_magnitude y.bits.toNat_lt

/-- The double of an integer of at most 64 bits is the nearest. -/
theorem isNearestTo_ofInt {n : Int} (h : n.natAbs ≤ 2^64) : IsNearestTo n (ofInt n) := by
  have hnearest := double.isNearest_roundedMagnitude (by decide) (n.natAbs * 2^unitExponent)
  have hbelow : double.roundedMagnitude (n.natAbs * 2^unitExponent) < double.infinity := by
    -- The nearest magnitude is at most twice the number, which leaves room enough.
    apply double.units_strictMono.lt_iff_lt.mp
    have hunits : n.natAbs * 2^unitExponent ≤ 2^64 * 2^unitExponent := Nat.mul_le_mul_right _ h
    have hlarge : 2 * (2^64 * 2^unitExponent) < double.units double.infinity := by
      decide +kernel
    have htwice := hnearest.units_le
    omega
  have hmagnitude : double.nearest (n.natAbs * 2^unitExponent) =
      double.roundedMagnitude (n.natAbs * 2^unitExponent) :=
    Nat.min_eq_left (Nat.le_of_lt hbelow)
  have hroom := Nat.lt_trans hbelow double.infinity_lt
  have hsign : (if n < 0 then 1 else 0) < 2 := by split <;> decide
  have hbits : (ofInt n).bits.toNat = double.pattern (if n < 0 then 1 else 0)
      (double.roundedMagnitude (n.natAbs * 2^unitExponent)) := by
    rw [ofInt, hmagnitude, UInt64.toNat_ofNat']
    exact Nat.mod_eq_of_lt (double.pattern_lt hsign hroom)
  have hsame : (ofInt n).magnitude = double.roundedMagnitude (n.natAbs * 2^unitExponent) := by
    rw [magnitude, hbits, double.magnitude_pattern hroom]
  refine ⟨?_, hsame ▸ hbelow, hsame ▸ hnearest⟩
  rw [hbits, double.sign_pattern hsign hroom]

end Binary64

end BinaryRecord
