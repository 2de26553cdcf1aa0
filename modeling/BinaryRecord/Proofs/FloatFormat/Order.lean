import BinaryRecord.Proofs.FloatFormat.Convert
import BinaryRecord.Proofs.FloatFormat.Nearest

/-!
# Rounding keeps the order

Of two numbers the larger never has the smaller nearest magnitude (`IsNearest.le_of_le`), so that
conversions keep the order of magnitudes up to infinity (`convertMagnitude_le`). Where an even
magnitude is reached is known exactly: from the middle between it and the one before it on
(`le_nearest_iff`). Infinity is even, which is how it is known what becomes infinite.
-/

namespace BinaryRecord.FloatFormat

variable {format source target : FloatFormat} {n later magnitude other : Nat}

namespace IsNearest

/-- A larger number never has a smaller nearest magnitude. -/
theorem le_of_le (h : format.IsNearest n magnitude) (hother : format.IsNearest later other)
    (hle : n ≤ later) : magnitude ≤ other := by
  by_contra hlt
  have hunits := format.units_strictMono (Nat.lt_of_not_le hlt)
  have hdist := h.dist_le other
  have hotherdist := hother.dist_le magnitude
  -- The first number is not below the middle of the two magnitudes, and the second not above it.
  obtain rfl : n = later := by
    unfold Nat.dist at hdist hotherdist
    omega
  exact hlt (Nat.le_of_eq (h.unique hother))

/-- An even magnitude is reached in the middle between it and the one before it. -/
theorem le_iff {bound : Nat} (h : format.IsNearest n magnitude) (hpos : 0 < bound)
    (heven : bound % 2 = 0) :
    bound ≤ magnitude ↔ format.units (bound - 1) + format.units bound ≤ 2 * n := by
  have hstep := format.units_strictMono (Nat.sub_one_lt_of_lt hpos)
  constructor
  · -- Below the middle the magnitude before the bound would be nearer.
    intro hle
    have hunits := format.units_strictMono.monotone hle
    have hdist := h.dist_le (bound - 1)
    unfold Nat.dist at hdist
    omega
  · intro hmiddle
    by_contra hlt
    have hunits := format.units_strictMono.monotone (Nat.le_sub_one_of_lt (Nat.lt_of_not_le hlt))
    have hdist := h.dist_le bound
    -- The bound is no nearer only in the middle itself, where the even one of the two is taken.
    have hmagnitude : magnitude = bound - 1 := by
      apply format.units_strictMono.injective
      unfold Nat.dist at hdist
      omega
    have htie : Nat.dist n (format.units bound) = Nat.dist n (format.units magnitude) := by
      rw [hmagnitude] at hdist ⊢
      unfold Nat.dist at hdist ⊢
      omega
    have hodd := h.even bound (by omega) htie
    omega

end IsNearest

/-- A magnitude is nearest to the number that it is. -/
theorem isNearest_units (format : FloatFormat) (magnitude : Nat) :
    format.IsNearest (format.units magnitude) magnitude where
  dist_le other := by
    rw [Nat.dist_self]
    exact Nat.zero_le _
  even other hne hdist := by
    rw [Nat.dist_self] at hdist
    exact absurd (format.units_strictMono.injective (Nat.eq_of_dist_eq_zero hdist)).symm hne

/-- The computed magnitude keeps the order of the numbers. -/
theorem nearest_le (hbits : 0 < format.fractionBits) (hle : n ≤ later) :
    format.nearest n ≤ format.nearest later := by
  have hrounded := (format.isNearest_roundedMagnitude hbits n).le_of_le
    (format.isNearest_roundedMagnitude hbits later) hle
  rw [nearest_eq_min, nearest_eq_min]
  exact min_le_min_right _ hrounded

/-- The computed magnitude reaches an even one, infinity included, in the middle between that and
the one before it. -/
theorem le_nearest_iff {bound : Nat} (hbits : 0 < format.fractionBits) (hpos : 0 < bound)
    (heven : bound % 2 = 0) (hbound : bound ≤ format.infinity) :
    bound ≤ format.nearest n ↔ format.units (bound - 1) + format.units bound ≤ 2 * n := by
  rw [nearest_eq_min, le_min_iff, and_iff_left hbound]
  exact (format.isNearest_roundedMagnitude hbits n).le_iff hpos heven

/-- A number or an infinity is never converted to what is no number. -/
theorem convertMagnitude_le_infinity (h : magnitude ≤ source.infinity) :
    convertMagnitude source target magnitude ≤ target.infinity := by
  unfold convertMagnitude
  split_ifs with hfinite hinfinite
  · exact nearest_le_infinity _ _
  · exact Nat.le_refl _
  · omega

/-- Infinity stays infinity. -/
theorem convertMagnitude_infinity (source target : FloatFormat) :
    convertMagnitude source target source.infinity = target.infinity := by
  simp [convertMagnitude]

/-- What is no number becomes quiet. -/
theorem quietNaN_le_convertMagnitude (h : source.infinity < magnitude) :
    target.quietNaN ≤ convertMagnitude source target magnitude := by
  rw [convertMagnitude, if_neg (Nat.not_lt_of_lt h), if_neg (Nat.ne_of_gt h)]
  exact Nat.le_add_right _ _

/-- Conversions keep the order of magnitudes up to infinity. -/
theorem convertMagnitude_le (hbits : 0 < target.fractionBits) (hle : magnitude ≤ other)
    (hother : other ≤ source.infinity) :
    convertMagnitude source target magnitude ≤ convertMagnitude source target other := by
  rcases Nat.eq_or_lt_of_le hother with rfl | hfinite
  · -- Infinity stays infinity, and nothing else is above it.
    rw [convertMagnitude_infinity]
    exact convertMagnitude_le_infinity hle
  · rw [convertMagnitude, convertMagnitude, if_pos (Nat.lt_of_le_of_lt hle hfinite),
      if_pos hfinite]
    exact nearest_le hbits (source.units_strictMono.monotone hle)

end BinaryRecord.FloatFormat
