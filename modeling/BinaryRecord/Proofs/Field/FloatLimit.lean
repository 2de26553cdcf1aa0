import BinaryRecord.Proofs.Field.Float
import BinaryRecord.Proofs.FloatFormat.Number
import BinaryRecord.Proofs.FloatFormat.Order

/-!
# Which doubles fit in a float field

A double is rounded to the format of a field, and fits unless an infinity comes of a number. In four
bytes the numbers that fit are those below the middle between the largest single and what would be
the next one (`fitsFloat_four_iff`). In two bytes the double is rounded to a single first, so that
numbers just below the middle already round to it, and from there to infinity
(`fitsFloat_two_iff`). Of the integers, all that are below the middle fit
(`fitsFloat_two_iff_of_isNearestTo`).
-/

namespace BinaryRecord.Field

open FloatFormat

variable {w magnitude other : Nat} {x : Binary64}

/-! ## Rounded magnitudes -/

/-- The magnitude in a field of `w` bytes that a magnitude of a double is rounded to. -/
def roundMagnitude (w magnitude : Nat) : Nat :=
  match w with
  | 2 => convertMagnitude single half (convertMagnitude double single magnitude)
  | 4 => convertMagnitude double single magnitude
  | _ => magnitude

/-- Rounding keeps the sign. -/
theorem sign_roundFloat (hw : w ∈ floatWidths) (x : Binary64) :
    (floatFormat w).sign (roundFloat w x) = x.sign := by
  rcases mem_floatWidths_iff.mp hw with rfl | rfl | rfl
  · exact (sign_convert (by decide) _).trans (sign_convert (by decide) _)
  · exact sign_convert (by decide) _
  · rfl

/-- Rounding rounds the magnitude. -/
theorem magnitude_roundFloat (hw : w ∈ floatWidths) (x : Binary64) :
    (floatFormat w).magnitude (roundFloat w x) = roundMagnitude w x.magnitude := by
  rcases mem_floatWidths_iff.mp hw with rfl | rfl | rfl
  · show half.magnitude (single.convert half (double.convert single x.bits.toNat)) = _
    rw [magnitude_convert (by decide), magnitude_convert (by decide)]
    rfl
  · exact magnitude_convert (by decide) _
  · rfl

/-- Infinity is rounded to infinity. -/
theorem roundMagnitude_infinity (hw : w ∈ floatWidths) :
    roundMagnitude w double.infinity = (floatFormat w).infinity := by
  rcases mem_floatWidths_iff.mp hw with rfl | rfl | rfl
  · simp [roundMagnitude, convertMagnitude_infinity, floatFormat]
  · exact convertMagnitude_infinity _ _
  · rfl

/-- Rounding keeps the order of magnitudes up to infinity. -/
theorem roundMagnitude_le (hw : w ∈ floatWidths) (hle : magnitude ≤ other)
    (hother : other ≤ double.infinity) : roundMagnitude w magnitude ≤ roundMagnitude w other := by
  have hsingle : convertMagnitude double single magnitude ≤ convertMagnitude double single other :=
    convertMagnitude_le (by decide) hle hother
  rcases mem_floatWidths_iff.mp hw with rfl | rfl | rfl
  · exact convertMagnitude_le (by decide) hsingle (convertMagnitude_le_infinity hother)
  · exact hsingle
  · exact hle

/-- Up to infinity magnitudes are rounded to such. -/
theorem roundMagnitude_le_infinity (hw : w ∈ floatWidths) (h : magnitude ≤ double.infinity) :
    roundMagnitude w magnitude ≤ (floatFormat w).infinity := by
  rw [← roundMagnitude_infinity hw]
  exact roundMagnitude_le hw h (Nat.le_refl _)

/-- What is no number, and quiet, is stored as such. -/
theorem quietNaN_le_roundMagnitude (hw : w ∈ floatWidths) (h : double.quietNaN ≤ magnitude) :
    (floatFormat w).quietNaN ≤ roundMagnitude w magnitude := by
  have hsingle : single.quietNaN ≤ convertMagnitude double single magnitude :=
    quietNaN_le_convertMagnitude (Nat.lt_of_lt_of_le (by decide) h)
  rcases mem_floatWidths_iff.mp hw with rfl | rfl | rfl
  · exact quietNaN_le_convertMagnitude (Nat.lt_of_lt_of_le (by decide) hsingle)
  · exact hsingle
  · exact h

/-! ## Limits -/

/-- A double fits unless it is a number and rounded to infinity. -/
theorem fitsFloat_iff (hw : w ∈ floatWidths) : FitsFloat w x ↔
    (x.isFinite = true → roundMagnitude w x.magnitude < (floatFormat w).infinity) := by
  unfold FitsFloat
  refine imp_congr_right fun hfinite => ?_
  have hle := roundMagnitude_le_infinity hw (Nat.le_of_lt (Binary64.isFinite_iff.mp hfinite))
  rw [isInfinite, magnitude_roundFloat hw, beq_eq_false_iff_ne]
  exact (Nat.lt_iff_le_and_ne.trans (and_iff_right hle)).symm

/-- The number of a double is below a fraction when its units are. -/
theorem abs_number_lt_iff (n k : Nat) :
    |x.number| < n / 2^k ↔ double.units x.magnitude * 2^k < n * 2^unitExponent := by
  rw [x.abs_number, div_lt_div_iff₀ (by positivity) (by positivity)]
  norm_cast

/-- In eight bytes every double fits. -/
theorem fitsFloat_eight (x : Binary64) : FitsFloat 8 x :=
  (fitsFloat_iff (by decide)).mpr Binary64.isFinite_iff.mp

/-- In four bytes the numbers fit that are below the middle between the largest single and the power
of two above it. -/
theorem fitsFloat_four_iff :
    FitsFloat 4 x ↔ (x.isFinite = true → |x.number| < 2^128 - 2^103) := by
  have hmiddle : single.units (single.infinity - 1) + single.units single.infinity =
      2 * ((2^128 - 2^103) * 2^unitExponent) := by
    decide +kernel
  have hlimit : (2^128 - 2^103 : ℚ) = ((2^128 - 2^103 : Nat) : ℚ) / 2^0 := by norm_num
  rw [fitsFloat_iff (by decide), hlimit, abs_number_lt_iff]
  refine imp_congr_right fun hfinite => ?_
  have hnearest : roundMagnitude 4 x.magnitude = single.nearest (double.units x.magnitude) :=
    if_pos (Binary64.isFinite_iff.mp hfinite)
  have hreach : single.infinity ≤ single.nearest (double.units x.magnitude) ↔ _ :=
    le_nearest_iff (by decide) (by decide) (by decide) (Nat.le_refl _)
  rw [hnearest]
  show single.nearest _ < single.infinity ↔ _
  rw [← Nat.not_le, hreach, hmiddle]
  omega

/-- The magnitude of 65520 as a single, which is the middle between the largest half and the power
of two above it. -/
def halfMiddle : Nat := 0x477FF000

/-- A single becomes infinite as a half from the middle on. -/
theorem infinity_le_convertMagnitude_iff (h : magnitude ≤ single.infinity) :
    half.infinity ≤ convertMagnitude single half magnitude ↔ halfMiddle ≤ magnitude := by
  have hmiddle : half.units (half.infinity - 1) + half.units half.infinity =
      2 * single.units halfMiddle := by
    decide +kernel
  rcases Nat.eq_or_lt_of_le h with rfl | hfinite
  · rw [convertMagnitude_infinity]
    exact iff_of_true (Nat.le_refl _) (by decide)
  · have hreach : half.infinity ≤ half.nearest (single.units magnitude) ↔ _ :=
      le_nearest_iff (by decide) (by decide) (by decide) (Nat.le_refl _)
    rw [convertMagnitude, if_pos hfinite, hreach, hmiddle, Nat.mul_le_mul_left_iff (by decide)]
    exact single.units_strictMono.le_iff_le

/-- In two bytes the numbers fit that are not rounded to the middle, or beyond it, on the way to a
single. -/
theorem fitsFloat_two_iff :
    FitsFloat 2 x ↔ (x.isFinite = true → |x.number| < 65520 - 1 / 2^9) := by
  have hmiddle : (single.units (halfMiddle - 1) + single.units halfMiddle) * 2^9 =
      2 * ((65520 * 2^9 - 1) * 2^unitExponent) := by
    decide +kernel
  have hlimit : (65520 - 1 / 2^9 : ℚ) = ((65520 * 2^9 - 1 : Nat) : ℚ) / 2^9 := by norm_num
  rw [fitsFloat_iff (by decide), hlimit, abs_number_lt_iff]
  refine imp_congr_right fun hfinite => ?_
  have hnearest : convertMagnitude double single x.magnitude =
      single.nearest (double.units x.magnitude) :=
    if_pos (Binary64.isFinite_iff.mp hfinite)
  have hreach : halfMiddle ≤ single.nearest (double.units x.magnitude) ↔ _ :=
    le_nearest_iff (by decide) (by decide) (by decide) (by decide)
  show convertMagnitude single half (convertMagnitude double single x.magnitude) <
    half.infinity ↔ _
  rw [← Nat.not_le, hnearest, infinity_le_convertMagnitude_iff (nearest_le_infinity _ _), hreach]
  omega

/-- Of the integers those fit in two bytes that are below the middle. -/
theorem fitsFloat_two_iff_of_isNearestTo {n : Int} (h : x.IsNearestTo n) :
    FitsFloat 2 x ↔ |n| ≤ 65519 := by
  -- The two integers next to the limit are doubles.
  have hbelow : double.units 0x40EFFDE000000000 = 65519 * 2^unitExponent := by decide +kernel
  have habove : double.units 0x40EFFE0000000000 = 65520 * 2^unitExponent := by decide +kernel
  have hlimit : (65520 - 1 / 2^9 : ℚ) = ((65520 * 2^9 - 1 : Nat) : ℚ) / 2^9 := by norm_num
  have hpos : 0 < 2^unitExponent := Nat.two_pow_pos _
  rw [fitsFloat_two_iff, hlimit, abs_number_lt_iff, Int.abs_eq_natAbs,
    imp_iff_right (Binary64.isFinite_iff.mpr h.magnitude_lt)]
  constructor
  · intro hfits
    by_contra hlarge
    have hle : 65520 ≤ n.natAbs := by omega
    have hunits := Nat.mul_le_mul_right (2^unitExponent) hle
    rw [← habove] at hunits
    have hmagnitude := (double.isNearest_units _).le_of_le h.isNearest hunits
    have hreached := double.units_strictMono.monotone hmagnitude
    omega
  · intro hsmall
    have hle : n.natAbs ≤ 65519 := by omega
    have hunits := Nat.mul_le_mul_right (2^unitExponent) hle
    rw [← hbelow] at hunits
    have hmagnitude := h.isNearest.le_of_le (double.isNearest_units _) hunits
    have hreached := double.units_strictMono.monotone hmagnitude
    omega

end BinaryRecord.Field
