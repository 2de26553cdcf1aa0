import BinaryRecord.Proofs.Field.FloatLimit

/-!
# Stored doubles

What a narrow float field gives back for a double has the sign of the double and the magnitude that
its own is rounded to, so that storing keeps the order of doubles (`le_storedFloat`) and changes
with the sign (`storedFloat_neg`). What is given back is one that the field's format has
(`isExact_storedFloat`), which is then stored as it is.
-/

namespace BinaryRecord.Field

open FloatFormat

variable {w : Nat} {x y : Binary64}

/-- The numbers of bytes of a narrow float field, which has not room for every double. -/
def narrowWidths : List Nat := [2, 4]

/-- A narrow float field has one of two widths. -/
theorem mem_narrowWidths_iff : w ∈ narrowWidths ↔ w = 2 ∨ w = 4 := by
  simp [narrowWidths]

/-- A narrow width is one of a float field. -/
theorem mem_floatWidths_of_narrow (hw : w ∈ narrowWidths) : w ∈ floatWidths := by
  rcases mem_narrowWidths_iff.mp hw with rfl | rfl <;> decide

/-- The format of a narrow float field embeds in that of doubles. -/
theorem embeds_double (hw : w ∈ narrowWidths) : Embeds (floatFormat w) double := by
  rcases mem_narrowWidths_iff.mp hw with rfl | rfl
  · exact half_embeds_double
  · exact single_embeds_double

/-- What is got back is what the rounded pattern is widened to. -/
theorem storedFloat_eq_widen (hw : w ∈ narrowWidths) (x : Binary64) :
    storedFloat w x = .widen (floatFormat w) (roundFloat w x) := by
  rcases mem_narrowWidths_iff.mp hw with rfl | rfl <;> rfl

/-! ## Sign and magnitude -/

/-- Storing keeps the sign. -/
theorem sign_storedFloat (hw : w ∈ narrowWidths) (x : Binary64) :
    (storedFloat w x).sign = x.sign := by
  rw [storedFloat_eq_widen hw, Binary64.sign, Binary64.toNat_bits_widen, sign_convert (by decide),
    sign_roundFloat (mem_floatWidths_of_narrow hw)]

/-- The magnitude of a double that is got back for the given one. -/
def storedMagnitude (w magnitude : Nat) : Nat :=
  convertMagnitude (floatFormat w) double (roundMagnitude w magnitude)

/-- Storing changes the magnitude by itself. -/
theorem magnitude_storedFloat (hw : w ∈ narrowWidths) (x : Binary64) :
    (storedFloat w x).magnitude = storedMagnitude w x.magnitude := by
  rw [storedFloat_eq_widen hw, Binary64.magnitude, Binary64.toNat_bits_widen,
    magnitude_convert (by decide), magnitude_roundFloat (mem_floatWidths_of_narrow hw)]
  rfl

/-- Zero is got back as zero. -/
theorem storedMagnitude_zero (hw : w ∈ narrowWidths) : storedMagnitude w 0 = 0 := by
  rcases mem_narrowWidths_iff.mp hw with rfl | rfl <;> decide +kernel

/-- Storing keeps the order of magnitudes up to infinity. -/
theorem storedMagnitude_le (hw : w ∈ narrowWidths) {magnitude other : Nat}
    (hle : magnitude ≤ other) (hother : other ≤ double.infinity) :
    storedMagnitude w magnitude ≤ storedMagnitude w other :=
  convertMagnitude_le (by decide)
    (roundMagnitude_le (mem_floatWidths_of_narrow hw) hle hother)
    (roundMagnitude_le_infinity (mem_floatWidths_of_narrow hw) hother)

/-- What is a number or an infinity is got back as such. -/
theorem storedMagnitude_le_infinity (hw : w ∈ narrowWidths) {magnitude : Nat}
    (h : magnitude ≤ double.infinity) : storedMagnitude w magnitude ≤ double.infinity :=
  convertMagnitude_le_infinity (roundMagnitude_le_infinity (mem_floatWidths_of_narrow hw) h)

/-! ## Order and sign -/

/-- Storing keeps the order of doubles. -/
theorem le_storedFloat (hw : w ∈ narrowWidths) (h : x.Le y) :
    (storedFloat w x).Le (storedFloat w y) := by
  obtain ⟨hx, hy, hle⟩ := Binary64.le_iff.mp h
  rw [Binary64.le_iff, magnitude_storedFloat hw, magnitude_storedFloat hw]
  refine ⟨storedMagnitude_le_infinity hw hx, storedMagnitude_le_infinity hw hy, ?_⟩
  unfold Binary64.signedMagnitude at hle ⊢
  rw [sign_storedFloat hw, sign_storedFloat hw, magnitude_storedFloat hw,
    magnitude_storedFloat hw]
  -- On either side of zero the magnitudes are compared, below it the other way round.
  rcases x.sign_eq_zero_or_one with hxs | hxs <;> rcases y.sign_eq_zero_or_one with hys | hys <;>
    rw [hxs, hys] at hle ⊢ <;> simp only [pow_zero, pow_one, one_mul, neg_one_mul] at hle ⊢
  · exact Int.ofNat_le.mpr (storedMagnitude_le hw (Int.ofNat_le.mp hle) hy)
  · -- What is not negative is at most what is negative only where both are zero.
    have hxzero : x.magnitude = 0 := by omega
    have hyzero : y.magnitude = 0 := by omega
    rw [hxzero, hyzero, storedMagnitude_zero hw]
    decide
  · omega
  · rw [neg_le_neg_iff] at hle ⊢
    exact Int.ofNat_le.mpr (storedMagnitude_le hw (Int.ofNat_le.mp hle) hx)

/-- A double of the other sign is stored as what has the other sign. -/
theorem storedFloat_neg (hw : w ∈ narrowWidths) (x : Binary64) :
    storedFloat w x.neg = (storedFloat w x).neg := by
  apply Binary64.eq_of_sign_eq
  · rw [sign_storedFloat hw, Binary64.sign_neg, Binary64.sign_neg, sign_storedFloat hw]
  · rw [magnitude_storedFloat hw, Binary64.magnitude_neg, Binary64.magnitude_neg,
      magnitude_storedFloat hw]

/-- A double of the other sign fits where the double does. -/
theorem fitsFloat_neg_iff (hw : w ∈ narrowWidths) : FitsFloat w x.neg ↔ FitsFloat w x := by
  have hwidth := mem_floatWidths_of_narrow hw
  rw [fitsFloat_iff hwidth, fitsFloat_iff hwidth, Binary64.isFinite_iff, Binary64.isFinite_iff,
    Binary64.magnitude_neg]

/-! ## What is got back -/

/-- What is got back for a number or an infinity is one that the field's format has. -/
theorem isExact_storedFloat (hw : w ∈ narrowWidths) (h : x.isNaN = false) :
    (storedFloat w x).IsExact (floatFormat w) := by
  have hle := roundMagnitude_le_infinity (mem_floatWidths_of_narrow hw)
    (Binary64.isNaN_eq_false_iff.mp h)
  have hsame := (embeds_double hw).sameNumber (.inl hle)
  rw [← storedMagnitude, ← magnitude_storedFloat hw] at hsame
  exact Binary64.isExact_of_sameNumber hsame hle

/-- What the field's format has fits in the field. -/
theorem fitsFloat_of_isExact (hw : w ∈ narrowWidths) (h : x.IsExact (floatFormat w)) :
    FitsFloat w x := by
  have hwidth := mem_floatWidths_of_narrow hw
  rw [FitsFloat]
  intro hfinite
  -- The double is what its own rounded pattern is widened to.
  have hself := storedFloat_of_isExact hwidth fun _ => h
  rw [storedFloat_eq_widen hw] at hself
  rw [← hself, isFinite_widen (embeds_double hw)] at hfinite
  exact isInfinite_of_isFinite hfinite

end BinaryRecord.Field
