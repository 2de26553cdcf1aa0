import BinaryRecord.FloatFormat
import Mathlib

/-!
# Magnitudes and their units

The magnitudes of a format stand in the order of the numbers that they are: `units_succ` gives the
distance from one to the next, so `units` is strictly increasing. `units_significand` reads a
magnitude as a significand and an exponent, also where the significand carries into the exponent
field, so that `units_roundedMagnitude` gives the number that another one is rounded to. A number
that the format has is not rounded at all (`nearest_of_representable`).
-/

namespace BinaryRecord

/-- A multiple is divided without rounding. -/
theorem divideToNearest_of_dvd {n d : Nat} (hd : 0 < d) (h : d ∣ n) :
    divideToNearest n d = n / d := by
  have hmod : n % d = 0 := Nat.mod_eq_zero_of_dvd h
  simp only [divideToNearest, hmod, Nat.mul_zero]
  rw [if_neg]
  omega

/-- A quotient to the nearest is the quotient or one more. -/
theorem divideToNearest_bounds (n d : Nat) :
    n / d ≤ divideToNearest n d ∧ divideToNearest n d ≤ n / d + 1 := by
  simp only [divideToNearest]
  split <;> omega

namespace FloatFormat

variable (format : FloatFormat)

/-! ## Magnitudes in order -/

/-- The units of a magnitude that is given by its exponent field and its fraction. -/
theorem units_eq {exponent fraction : Nat} (h : fraction < 2^format.fractionBits) :
    format.units (exponent * 2^format.fractionBits + fraction) =
      if exponent = 0 then fraction * 2^format.scale
      else (2^format.fractionBits + fraction) * 2^(format.scale + exponent - 1) := by
  have hpos : 0 < 2^format.fractionBits := Nat.two_pow_pos _
  have hdiv : (exponent * 2^format.fractionBits + fraction) / 2^format.fractionBits = exponent := by
    rw [Nat.mul_comm, Nat.mul_add_div hpos, Nat.div_eq_of_lt h, Nat.add_zero]
  have hmod : (exponent * 2^format.fractionBits + fraction) % 2^format.fractionBits = fraction := by
    rw [Nat.mul_comm, Nat.mul_add_mod, Nat.mod_eq_of_lt h]
  simp only [units, hdiv, hmod]

/-- The units of a significand above `exponent` steps. A significand without its leading bit stands
only above no steps, and one that is a power of two too large is a carry into the exponent. -/
theorem units_significand {exponent significand : Nat}
    (hle : significand ≤ 2^(format.fractionBits + 1))
    (hlead : exponent = 0 ∨ 2^format.fractionBits ≤ significand) :
    format.units (exponent * 2^format.fractionBits + significand) =
      significand * 2^(format.scale + exponent) := by
  have hpos : 0 < 2^format.fractionBits := Nat.two_pow_pos _
  have hdouble := Nat.two_pow_succ format.fractionBits
  rcases Nat.lt_or_ge significand (2^format.fractionBits) with hsmall | hlarge
  · -- Without the leading bit: the exponent field is zero.
    obtain rfl : exponent = 0 := by omega
    rw [units_eq format hsmall, if_pos rfl, Nat.add_zero]
  rcases Nat.lt_or_ge significand (2^(format.fractionBits + 1)) with hfits | hcarry
  · -- With the leading bit, which adds one to the exponent field.
    have hsplit : exponent * 2^format.fractionBits + significand =
        (exponent + 1) * 2^format.fractionBits + (significand - 2^format.fractionBits) := by
      rw [Nat.add_mul]
      omega
    rw [hsplit, units_eq format (by omega), if_neg (by omega)]
    congr 1
    · omega
  · -- The carry: the fraction is zero, and the exponent field is larger by two.
    obtain rfl : significand = 2^(format.fractionBits + 1) := by omega
    have hsplit : exponent * 2^format.fractionBits + 2^(format.fractionBits + 1) =
        (exponent + 2) * 2^format.fractionBits + 0 := by
      rw [Nat.add_mul]
      omega
    rw [hsplit, units_eq format hpos, if_neg (by omega), Nat.add_zero, ← Nat.pow_add, ← Nat.pow_add]
    congr 1
    omega

/-- From one magnitude to the next it is a power of two, which grows with the exponent field. -/
theorem units_succ (magnitude : Nat) :
    format.units (magnitude + 1) =
      format.units magnitude + 2^(format.scale + (magnitude / 2^format.fractionBits - 1)) := by
  have hpos : 0 < 2^format.fractionBits := Nat.two_pow_pos _
  have hfraction := Nat.mod_lt magnitude hpos
  have hsplit := Nat.div_add_mod magnitude (2^format.fractionBits)
  rw [Nat.mul_comm] at hsplit
  generalize magnitude / 2^format.fractionBits = exponent at hsplit
  generalize magnitude % 2^format.fractionBits = fraction at hsplit hfraction
  subst hsplit
  have hdouble := Nat.two_pow_succ format.fractionBits
  -- The successor has the same exponent field, or carries into the next.
  cases exponent with
  | zero =>
    rw [Nat.add_assoc, units_significand format (by omega) (Or.inl rfl),
      units_significand format (by omega) (Or.inl rfl)]
    simp [Nat.add_mul]
  | succ exponent =>
    have hlead : ∀ n, (exponent + 1) * 2^format.fractionBits + n =
        exponent * 2^format.fractionBits + (2^format.fractionBits + n) := by
      intro n
      rw [Nat.add_mul]
      omega
    rw [Nat.add_assoc, hlead, hlead, units_significand format (by omega) (Or.inr (by omega)),
      units_significand format (by omega) (Or.inr (by omega))]
    simp [← Nat.add_assoc, Nat.add_mul]

/-- Larger magnitudes are larger numbers. -/
theorem units_strictMono : StrictMono format.units := by
  apply strictMono_nat_of_lt_succ
  intro magnitude
  rw [units_succ]
  exact Nat.lt_add_of_pos_right (Nat.two_pow_pos _)

/-! ## Rounding -/

/-- How many binary places of a number of units the format cannot keep. -/
def shift (n : Nat) : Nat :=
  max format.scale (n.log2 - format.fractionBits)

/-- The places that are kept hold at most `fractionBits + 1` bits. -/
theorem div_shift_lt (n : Nat) : n / 2^format.shift n < 2^(format.fractionBits + 1) := by
  have hlog : n.log2 + 1 ≤ format.fractionBits + 1 + format.shift n := by
    rw [shift]
    omega
  rw [Nat.div_lt_iff_lt_mul (Nat.two_pow_pos _)]
  calc n < 2^(n.log2 + 1) := Nat.lt_log2_self
    _ ≤ 2^(format.fractionBits + 1 + format.shift n) := Nat.pow_le_pow_right (by decide) hlog
    _ = 2^(format.fractionBits + 1) * 2^format.shift n := Nat.pow_add _ _ _

/-- Beyond the smallest numbers the kept places begin with a one. -/
theorem le_div_shift {n : Nat} (h : format.scale < format.shift n) :
    2^format.fractionBits ≤ n / 2^format.shift n := by
  have hshift : format.shift n = n.log2 - format.fractionBits := by
    rw [shift] at h ⊢
    omega
  -- Zero has no places that are not kept.
  have hn : n ≠ 0 := by
    rintro rfl
    rw [shift, Nat.log2_zero] at h
    omega
  have hlog : format.fractionBits + format.shift n = n.log2 := by omega
  rw [Nat.le_div_iff_mul_le (Nat.two_pow_pos _)]
  calc 2^format.fractionBits * 2^format.shift n = 2^n.log2 := by rw [← Nat.pow_add, hlog]
    _ ≤ n := Nat.log2_self_le hn

/-- The significand of the nearest magnitude: the places of the number that are kept, rounded. -/
def significand (n : Nat) : Nat :=
  divideToNearest n (2^format.shift n)

/-- The nearest magnitude before what lies beyond infinity is made infinite. -/
def roundedMagnitude (n : Nat) : Nat :=
  (format.shift n - format.scale) * 2^format.fractionBits + format.significand n

/-- The computed magnitude is the rounded one, or infinity where that lies beyond. -/
theorem nearest_eq_min (n : Nat) :
    format.nearest n = min (format.roundedMagnitude n) format.infinity :=
  rfl

/-- The significand has at most one bit more than the fraction, but for a carry. -/
theorem significand_le (n : Nat) : format.significand n ≤ 2^(format.fractionBits + 1) := by
  have hle := (divideToNearest_bounds n (2^format.shift n)).2
  have hlt := format.div_shift_lt n
  unfold significand
  omega

/-- Beyond the smallest numbers the significand has its leading bit. -/
theorem le_significand {n : Nat} (h : format.scale < format.shift n) :
    2^format.fractionBits ≤ format.significand n :=
  Nat.le_trans (format.le_div_shift h) (divideToNearest_bounds n _).1

/-- The rounded magnitude is its significand, moved to the places that are kept. -/
theorem units_roundedMagnitude (n : Nat) :
    format.units (format.roundedMagnitude n) = format.significand n * 2^format.shift n := by
  have hscale : format.scale ≤ format.shift n := Nat.le_max_left _ _
  have hlead : format.shift n - format.scale = 0 ∨
      2^format.fractionBits ≤ format.significand n := by
    rcases Nat.eq_or_lt_of_le hscale with heq | hlt
    · exact .inl (by omega)
    · exact .inr (format.le_significand hlt)
  calc format.units (format.roundedMagnitude n)
      = format.significand n * 2^(format.scale + (format.shift n - format.scale)) :=
        units_significand format (format.significand_le n) hlead
    _ = format.significand n * 2^format.shift n := by rw [Nat.add_sub_cancel' hscale]

/-- The nearest magnitude is infinity at most. -/
theorem nearest_le_infinity (n : Nat) : format.nearest n ≤ format.infinity :=
  Nat.min_le_right _ _

/-! ## Numbers that the format has -/

/-- The number of units is a significand of at most `fractionBits + 1` bits, at a place where the
format has such significands, and below infinity. -/
def Representable (n : Nat) : Prop :=
  ∃ significand exponent, significand < 2^(format.fractionBits + 1) ∧ format.scale ≤ exponent ∧
    n = significand * 2^exponent ∧ n < format.units format.infinity

/-- Every finite magnitude is a number that the format has. -/
theorem representable_units {magnitude : Nat} (h : magnitude < format.infinity) :
    format.Representable (format.units magnitude) := by
  have hbelow := format.units_strictMono h
  have hfraction := Nat.mod_lt magnitude (Nat.two_pow_pos format.fractionBits)
  have hdouble := Nat.two_pow_succ format.fractionBits
  -- The significand is the fraction, with a leading one unless the exponent field is zero.
  by_cases hzero : magnitude / 2^format.fractionBits = 0
  · refine ⟨magnitude % 2^format.fractionBits, format.scale, by omega, Nat.le_refl _, ?_, hbelow⟩
    rw [units, if_pos hzero]
  · have hexponent : format.scale + 1 ≤ format.scale + magnitude / 2^format.fractionBits :=
      Nat.add_le_add_left (Nat.pos_of_ne_zero hzero) _
    refine ⟨2^format.fractionBits + magnitude % 2^format.fractionBits,
      format.scale + magnitude / 2^format.fractionBits - 1, by omega,
      Nat.le_sub_of_add_le hexponent, ?_, hbelow⟩
    rw [units, if_neg hzero]

/-- A number that the format has loses nothing in the places that it cannot keep. -/
theorem two_pow_shift_dvd {n : Nat} (h : format.Representable n) : 2^format.shift n ∣ n := by
  obtain ⟨significand, exponent, hsmall, hscale, rfl, -⟩ := h
  rcases Nat.eq_zero_or_pos significand with rfl | hpos
  · simp
  -- The places of the number go up to those of its significand, and no further.
  have hlog : (significand * 2^exponent).log2 < format.fractionBits + 1 + exponent := by
    rw [Nat.log2_lt (Nat.ne_of_gt (Nat.mul_pos hpos (Nat.two_pow_pos _))), Nat.pow_add]
    exact Nat.mul_lt_mul_of_pos_right hsmall (Nat.two_pow_pos _)
  have hle : format.shift (significand * 2^exponent) ≤ exponent := by
    rw [shift]
    omega
  exact Dvd.dvd.mul_left (Nat.pow_dvd_pow 2 hle) significand

/-- A number that the format has is not rounded: the nearest magnitude is that number. -/
theorem nearest_of_representable {n : Nat} (h : format.Representable n) :
    format.nearest n < format.infinity ∧ format.units (format.nearest n) = n := by
  have hdvd := format.two_pow_shift_dvd h
  have hunits : format.units (format.roundedMagnitude n) = n := by
    calc format.units (format.roundedMagnitude n)
        = format.significand n * 2^format.shift n := format.units_roundedMagnitude n
      _ = n / 2^format.shift n * 2^format.shift n := by
          rw [significand, divideToNearest_of_dvd (Nat.two_pow_pos _) hdvd]
      _ = n := Nat.div_mul_cancel hdvd
  -- Being the number itself, the rounded magnitude is below infinity as the number is.
  have hbelow : format.roundedMagnitude n < format.infinity := by
    obtain ⟨-, -, -, -, -, hn⟩ := h
    rw [← hunits] at hn
    exact format.units_strictMono.lt_iff_lt.mp hn
  rw [nearest_eq_min, Nat.min_eq_left (Nat.le_of_lt hbelow)]
  exact ⟨hbelow, hunits⟩

/-- A finite magnitude is nearest to the number that it is. -/
theorem nearest_units {magnitude : Nat} (h : magnitude < format.infinity) :
    format.nearest (format.units magnitude) = magnitude :=
  format.units_strictMono.injective
    (format.nearest_of_representable (format.representable_units h)).2

end FloatFormat

end BinaryRecord
