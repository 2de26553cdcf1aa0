import BinaryRecord.Proofs.FloatFormat.Units

/-!
# The nearest magnitude

`IsNearest` says what it means that a magnitude is nearest to a number of units, with ties to the
even one. There is just one such magnitude (`IsNearest.unique`), and `isNearest_roundedMagnitude`
says which. `FloatFormat.nearest` gives it, but for infinity in place of what lies beyond.

A magnitude is compared with its two neighbours only. They are a whole place of the kept digits
away, or more, except below a power of two; but there the number is not below the magnitude.
-/

namespace BinaryRecord

/-! ## Division to the nearest -/

/-- A quotient to the nearest is at most half a divisor off, on either side, and even when it is
just that. -/
theorem divideToNearest_spec {n d : Nat} (hd : 0 < d) :
    2 * (divideToNearest n d * d) ≤ 2 * n + d ∧ 2 * n ≤ 2 * (divideToNearest n d * d) + d ∧
      (2 * (divideToNearest n d * d) = 2 * n + d ∨ 2 * n = 2 * (divideToNearest n d * d) + d →
        divideToNearest n d % 2 = 0) := by
  have hsplit := Nat.div_add_mod n d
  have hmod := Nat.mod_lt n hd
  rw [Nat.mul_comm] at hsplit
  simp only [divideToNearest]
  split
  · rw [Nat.add_mul, Nat.one_mul]
    omega
  · omega

namespace FloatFormat

variable (format : FloatFormat)

/-- Of all magnitudes, those beyond infinity included as if the exponent went on, none is nearer to
`n` units than this one, and if another is as near, this one is even. -/
structure IsNearest (n magnitude : Nat) : Prop where
  /-- No other is nearer. -/
  dist_le : ∀ other, Nat.dist n (format.units magnitude) ≤ Nat.dist n (format.units other)
  /-- It is the even one of two that are equally near. -/
  even : ∀ other, other ≠ magnitude →
    Nat.dist n (format.units other) = Nat.dist n (format.units magnitude) → magnitude % 2 = 0

namespace IsNearest

variable {format} {n magnitude other : Nat}

/-- Of two nearest magnitudes none is smaller: between them there would be a nearer one, and
neighbours are not both even. -/
theorem not_lt (h : format.IsNearest n magnitude) (hother : format.IsNearest n other) :
    ¬ magnitude < other := by
  intro hlt
  have hdist := Nat.le_antisymm (h.dist_le other) (hother.dist_le magnitude)
  have hunits := format.units_strictMono hlt
  rcases Nat.eq_or_lt_of_le (Nat.succ_le_of_lt hlt) with hnext | hbetween
  · -- The two are neighbours.
    have heven := h.even other (Nat.ne_of_gt hlt) hdist.symm
    have hothereven := hother.even magnitude (Nat.ne_of_lt hlt) hdist
    omega
  · -- There is a magnitude between them.
    have habove := format.units_strictMono (Nat.lt_add_one magnitude)
    have hbelow := format.units_strictMono (show magnitude + 1 < other from hbetween)
    have hnearer := h.dist_le (magnitude + 1)
    unfold Nat.dist at hdist hnearer
    omega

/-- Only one magnitude is nearest. -/
theorem unique (h : format.IsNearest n magnitude) (hother : format.IsNearest n other) :
    magnitude = other :=
  Nat.le_antisymm (Nat.le_of_not_lt (hother.not_lt h)) (Nat.le_of_not_lt (h.not_lt hother))

/-- The nearest magnitude is not more than twice the number. -/
theorem units_le (h : format.IsNearest n magnitude) : format.units magnitude ≤ 2 * n := by
  have hzero : format.units 0 = 0 := by
    simp [units]
  have hdist := h.dist_le 0
  rw [hzero] at hdist
  unfold Nat.dist at hdist
  omega

end IsNearest

/-! ## The computed magnitude -/

/-- Around a significand with its leading bit, magnitudes are at least a whole kept place apart. -/
theorem two_pow_shift_le {n significand : Nat}
    (hlead : format.scale < format.shift n → 2^format.fractionBits ≤ significand) :
    2^format.shift n ≤ 2^(format.scale +
      (((format.shift n - format.scale) * 2^format.fractionBits + significand) /
        2^format.fractionBits - 1)) := by
  have hpos : 0 < 2^format.fractionBits := Nat.two_pow_pos _
  have hscale : format.scale ≤ format.shift n := Nat.le_max_left _ _
  apply Nat.pow_le_pow_right (by decide)
  -- The exponent field counts the places beyond the least, and one more for the leading bit.
  rw [Nat.mul_comm, Nat.mul_add_div hpos]
  rcases Nat.eq_or_lt_of_le hscale with heq | hlt
  · omega
  · have hone : 1 ≤ significand / 2^format.fractionBits :=
      (Nat.one_le_div_iff hpos).mpr (hlead hlt)
    omega

/-- A magnitude above the rounded one is at least a whole kept place away. -/
theorem add_le_units_of_lt {n other : Nat} (h : format.roundedMagnitude n < other) :
    format.significand n * 2^format.shift n + 2^format.shift n ≤ format.units other := by
  have hplace := format.two_pow_shift_le fun hlt => format.le_significand (n := n) hlt
  rw [← roundedMagnitude] at hplace
  calc format.significand n * 2^format.shift n + 2^format.shift n
      = format.units (format.roundedMagnitude n) + 2^format.shift n := by
        rw [units_roundedMagnitude]
    _ ≤ format.units (format.roundedMagnitude n) +
          2^(format.scale + (format.roundedMagnitude n / 2^format.fractionBits - 1)) :=
        Nat.add_le_add_left hplace _
    _ = format.units (format.roundedMagnitude n + 1) := (format.units_succ _).symm
    _ ≤ format.units other := format.units_strictMono.monotone (Nat.succ_le_of_lt h)

/-- A magnitude below the rounded one is at least a whole kept place away, or else the number is not
below the rounded one. -/
theorem units_add_le_of_lt {n other : Nat} (h : other < format.roundedMagnitude n) :
    format.units other + 2^format.shift n ≤ format.significand n * 2^format.shift n ∨
      format.significand n * 2^format.shift n ≤ n := by
  by_cases hbelow : format.significand n * 2^format.shift n ≤ n
  · exact .inr hbelow
  -- A significand that is just a leading bit would not be above the number, so that the one below
  -- it has its leading bit, too.
  have hlead : format.scale < format.shift n →
      2^format.fractionBits ≤ format.significand n - 1 := by
    intro hlt
    have hkept := format.le_div_shift hlt
    have hle := format.le_significand hlt
    rcases Nat.eq_or_lt_of_le hle with heq | hgt
    · rw [← heq] at hbelow
      exact absurd ((Nat.le_div_iff_mul_le (Nat.two_pow_pos _)).mp hkept) hbelow
    · omega
  have hpositive : 0 < format.significand n := by
    rcases Nat.eq_zero_or_pos (format.significand n) with hzero | hpos
    · rw [hzero, Nat.zero_mul] at hbelow
      exact absurd (Nat.zero_le n) hbelow
    · exact hpos
  have hplace := format.two_pow_shift_le hlead
  have hprevious : (format.shift n - format.scale) * 2^format.fractionBits +
      (format.significand n - 1) = format.roundedMagnitude n - 1 := by
    rw [roundedMagnitude]
    omega
  rw [hprevious] at hplace
  have hmonotone := format.units_strictMono.monotone (Nat.le_sub_one_of_lt h)
  have hsucc := format.units_succ (format.roundedMagnitude n - 1)
  rw [Nat.sub_add_cancel (Nat.zero_lt_of_lt h), units_roundedMagnitude] at hsucc
  left
  calc format.units other + 2^format.shift n
      ≤ format.units (format.roundedMagnitude n - 1) + 2^format.shift n :=
        Nat.add_le_add_right hmonotone _
    _ ≤ format.units (format.roundedMagnitude n - 1) +
          2^(format.scale + ((format.roundedMagnitude n - 1) / 2^format.fractionBits - 1)) :=
        Nat.add_le_add_left hplace _
    _ = format.significand n * 2^format.shift n := hsucc.symm

/-- The rounded magnitude is nearest. -/
theorem isNearest_roundedMagnitude (hbits : 0 < format.fractionBits) (n : Nat) :
    format.IsNearest n (format.roundedMagnitude n) := by
  obtain ⟨hbelow, habove, heven⟩ := divideToNearest_spec (n := n) (Nat.two_pow_pos (format.shift n))
  rw [← significand] at hbelow habove heven
  -- The exponent field begins above the lowest bit, which is that of the significand.
  have hparity : format.roundedMagnitude n % 2 = format.significand n % 2 := by
    obtain ⟨bits, hbits⟩ := Nat.exists_eq_succ_of_ne_zero (Nat.ne_of_gt hbits)
    rw [roundedMagnitude, hbits, Nat.pow_succ', Nat.mul_left_comm, Nat.mul_add_mod]
  constructor
  · -- No magnitude is nearer: half a place is the most by which the rounded one is off.
    intro other
    rw [units_roundedMagnitude]
    rcases Nat.lt_trichotomy other (format.roundedMagnitude n) with hlt | rfl | hgt
    · have hunits := format.units_strictMono hlt
      rw [units_roundedMagnitude] at hunits
      have hplace := format.units_add_le_of_lt hlt
      unfold Nat.dist
      omega
    · rw [units_roundedMagnitude]
    · have hplace := format.add_le_units_of_lt hgt
      unfold Nat.dist
      omega
  · -- One that is as near is off by half a place on the other side.
    intro other hne hdist
    rw [units_roundedMagnitude] at hdist
    rw [hparity]
    apply heven
    rcases Nat.lt_or_gt_of_ne hne with hlt | hgt
    · have hunits := format.units_strictMono hlt
      rw [units_roundedMagnitude] at hunits
      have hplace := format.units_add_le_of_lt hlt
      unfold Nat.dist at hdist
      omega
    · have hplace := format.add_le_units_of_lt hgt
      unfold Nat.dist at hdist
      omega

end FloatFormat

end BinaryRecord
