import BinaryRecord.Proofs.FloatFormat.Double

/-!
# The numbers that patterns stand for

A finite pattern stands for a rational number: a significand times a power of two, with a sign
(`FloatFormat.number`). Counted in units, its magnitude is what `units` gives (`number_eq`), so that
comparing numbers comes to comparing signed magnitudes (`Binary64.le_iff`). `IsRepresentable` says
that a format has a double among its own numbers and infinities.
-/

namespace BinaryRecord

namespace FloatFormat

variable (format : FloatFormat)

/-- What the exponent field is larger by than the exponent. -/
def bias : Nat :=
  2^(format.exponentBits - 1) - 1

/-- The significand of a magnitude as a whole number: the fraction, and in front of it a one unless
the exponent field is zero. -/
def wholeSignificand (magnitude : Nat) : Nat :=
  if magnitude / 2^format.fractionBits = 0 then magnitude % 2^format.fractionBits
  else 2^format.fractionBits + magnitude % 2^format.fractionBits

/-- The exponent of the whole significand. An exponent field of zero counts as one. -/
def wholeExponent (magnitude : Nat) : ℤ :=
  (max 1 (magnitude / 2^format.fractionBits) : Nat) - (format.bias + format.fractionBits : Nat)

/-- The number that a finite pattern stands for. -/
def number (bits : Nat) : ℚ :=
  (-1)^format.sign bits *
    (format.wholeSignificand (format.magnitude bits) *
      2^format.wholeExponent (format.magnitude bits))

/-- A pattern of no number is quiet when the first bit of its fraction is set. -/
def IsQuiet (bits : Nat) : Prop :=
  format.quietNaN ≤ format.magnitude bits

instance (bits : Nat) : Decidable (format.IsQuiet bits) :=
  inferInstanceAs (Decidable (_ ≤ _))

/-- Units count the number of a magnitude, provided that they are small enough for the format. -/
theorem wholeSignificand_mul_eq (h : format.bias + format.fractionBits ≤ unitExponent + 1)
    (magnitude : Nat) :
    (format.wholeSignificand magnitude : ℚ) * 2^format.wholeExponent magnitude =
      format.units magnitude / 2^unitExponent := by
  have hbias : format.bias + 1 = 2^(format.exponentBits - 1) :=
    Nat.sub_add_cancel (Nat.two_pow_pos _)
  have hscale : format.scale + (format.bias + format.fractionBits) = unitExponent + 1 := by
    rw [scale, ← hbias]
    omega
  -- In both cases the units are the significand, shifted by the exponent above the least one.
  have hunits : format.units magnitude = format.wholeSignificand magnitude *
      2^(format.scale + (max 1 (magnitude / 2^format.fractionBits) - 1)) := by
    unfold units wholeSignificand
    generalize magnitude / 2^format.fractionBits = exponent
    by_cases hzero : exponent = 0
    · simp [hzero]
    · have hmax : max 1 exponent - 1 = exponent - 1 := by omega
      simp only [if_neg hzero, hmax]
      rw [Nat.add_sub_assoc (Nat.pos_of_ne_zero hzero)]
  have hexponent : format.wholeExponent magnitude =
      ((format.scale + (max 1 (magnitude / 2^format.fractionBits) - 1) : Nat) : ℤ) -
        (unitExponent : Nat) := by
    unfold wholeExponent
    omega
  rw [hunits, hexponent, zpow_sub₀ two_ne_zero, zpow_natCast, zpow_natCast, Nat.cast_mul]
  push_cast
  ring

/-- The number of a pattern is its magnitude, counted in units, with its sign. -/
theorem number_eq (h : format.bias + format.fractionBits ≤ unitExponent + 1) (bits : Nat) :
    format.number bits =
      (-1)^format.sign bits * (format.units (format.magnitude bits) / 2^unitExponent) := by
  rw [number, wholeSignificand_mul_eq format h]

end FloatFormat

namespace Binary64

open FloatFormat

/-- Whether it is an infinity. -/
def isInfinite (x : Binary64) : Bool :=
  double.isInfinite x.bits.toNat

/-- Whether it is no number. -/
def isNaN (x : Binary64) : Bool :=
  double.isNaN x.bits.toNat

/-- Its sign, 1 where it is negative. -/
def sign (x : Binary64) : Nat :=
  double.sign x.bits.toNat

/-- The number that it stands for where it is finite. -/
def number (x : Binary64) : ℚ :=
  double.number x.bits.toNat

/-- The first double is at most the second. Finite ones are compared as numbers, of which zero is
just one. The infinities are below and above all else. What is no number is not compared. -/
inductive Le (x y : Binary64) : Prop
  | numbers (hx : x.isFinite = true) (hy : y.isFinite = true) (h : x.number ≤ y.number)
  | ofNegativeInfinity (hx : x.isInfinite = true) (hsign : x.sign = 1) (hy : y.isNaN = false)
  | ofPositiveInfinity (hx : x.isNaN = false) (hy : y.isInfinite = true) (hsign : y.sign = 0)

/-- The double of the opposite sign and the same magnitude. -/
def neg (x : Binary64) : Binary64 :=
  ⟨UInt64.ofNat (double.pattern (1 - x.sign) x.magnitude)⟩

/-- The format has the double: it is the number of a finite pattern of the format of the same sign,
or an infinity. -/
inductive IsRepresentable (format : FloatFormat) (x : Binary64) : Prop
  | finite {bits : Nat} (hbits : format.isFinite bits = true) (hx : x.isFinite = true)
      (hsign : format.sign bits = x.sign) (h : format.number bits = x.number) :
      IsRepresentable format x
  | infinite (hx : x.isInfinite = true) : IsRepresentable format x

/-- The magnitude with the sign: it grows as the double does. -/
def signedMagnitude (x : Binary64) : ℤ :=
  (-1)^x.sign * x.magnitude

variable {x y : Binary64}

/-! ## Classes of doubles -/

/-- What is finite has a magnitude below infinity. -/
theorem isFinite_iff : x.isFinite = true ↔ x.magnitude < double.infinity :=
  decide_eq_true_iff

/-- What is infinite has the magnitude of infinity. -/
theorem isInfinite_iff : x.isInfinite = true ↔ x.magnitude = double.infinity :=
  beq_iff_eq

/-- Numbers and infinities have magnitudes up to infinity. -/
theorem isNaN_eq_false_iff : x.isNaN = false ↔ x.magnitude ≤ double.infinity := by
  rw [isNaN, FloatFormat.isNaN, decide_eq_false_iff_not, Nat.not_lt]
  rfl

/-- A sign is zero or one. -/
theorem sign_eq_zero_or_one (x : Binary64) : x.sign = 0 ∨ x.sign = 1 := by
  have hlt : x.sign < 2 := double.sign_lt _
  omega

/-- Doubles of the same sign and the same magnitude are the same. -/
theorem eq_of_sign_eq (hsign : x.sign = y.sign) (hmagnitude : x.magnitude = y.magnitude) :
    x = y := by
  apply eq_of_toNat_bits_eq
  calc x.bits.toNat
      = double.pattern x.sign x.magnitude := (double.pattern_sign_magnitude x.bits.toNat_lt).symm
    _ = double.pattern y.sign y.magnitude := by rw [hsign, hmagnitude]
    _ = y.bits.toNat := double.pattern_sign_magnitude y.bits.toNat_lt

/-! ## Comparison -/

/-- The number of a double in units. -/
theorem number_eq (x : Binary64) :
    x.number = (-1)^x.sign * (double.units x.magnitude / 2^unitExponent) :=
  double.number_eq (by decide) _

/-- The size of the number of a double in units. -/
theorem abs_number (x : Binary64) : |x.number| = double.units x.magnitude / 2^unitExponent := by
  rw [number_eq, abs_mul, abs_neg_one_pow, one_mul, abs_of_nonneg (by positivity)]

/-- Numbers are in the order of their signed magnitudes. -/
theorem number_le_iff : x.number ≤ y.number ↔ x.signedMagnitude ≤ y.signedMagnitude := by
  have hzero : double.units 0 = 0 := by decide
  have hunits : ∀ m n, double.units m ≤ double.units n ↔ m ≤ n :=
    fun m n => double.units_strictMono.le_iff_le
  have hpos := hunits x.magnitude 0
  have hpos' := hunits y.magnitude 0
  have hxy := hunits x.magnitude y.magnitude
  have hyx := hunits y.magnitude x.magnitude
  rw [number_eq, number_eq, ← mul_div_assoc, ← mul_div_assoc,
    div_le_div_iff_of_pos_right (by positivity)]
  unfold signedMagnitude
  -- Of opposite signs, the two are in the wrong order unless both are zero.
  rcases x.sign_eq_zero_or_one with hx | hx <;> rcases y.sign_eq_zero_or_one with hy | hy <;>
    rw [hx, hy] <;> norm_cast <;> simp only [pow_zero, pow_one, one_mul] <;> omega

/-- Where a double is not negative, its signed magnitude is its magnitude. -/
theorem signedMagnitude_of_zero (h : x.sign = 0) : x.signedMagnitude = x.magnitude := by
  rw [signedMagnitude, h, pow_zero, one_mul]

/-- Where a double is negative, its signed magnitude is that of its magnitude. -/
theorem signedMagnitude_of_one (h : x.sign = 1) : x.signedMagnitude = -x.magnitude := by
  rw [signedMagnitude, h, pow_one, neg_one_mul]

/-- The signed magnitude is no larger than the magnitude on either side of zero. -/
theorem signedMagnitude_bounds (x : Binary64) :
    -(x.magnitude : ℤ) ≤ x.signedMagnitude ∧ x.signedMagnitude ≤ x.magnitude := by
  rcases x.sign_eq_zero_or_one with h | h
  · rw [signedMagnitude_of_zero h]
    omega
  · rw [signedMagnitude_of_one h]
    omega

/-- Of doubles that are in order, neither is no number, and the signed magnitudes are in order. -/
theorem Le.signedMagnitude_le (h : x.Le y) : x.magnitude ≤ double.infinity ∧
    y.magnitude ≤ double.infinity ∧ x.signedMagnitude ≤ y.signedMagnitude := by
  have hxbounds := x.signedMagnitude_bounds
  have hybounds := y.signedMagnitude_bounds
  cases h with
  | numbers hx hy h =>
    exact ⟨Nat.le_of_lt (isFinite_iff.mp hx), Nat.le_of_lt (isFinite_iff.mp hy),
      number_le_iff.mp h⟩
  | ofNegativeInfinity hx hsign hy =>
    have hleast := signedMagnitude_of_one hsign
    rw [isInfinite_iff.mp hx] at hleast ⊢
    rw [isNaN_eq_false_iff] at hy
    exact ⟨Nat.le_refl _, hy, by omega⟩
  | ofPositiveInfinity hx hy hsign =>
    have hlargest := signedMagnitude_of_zero hsign
    rw [isInfinite_iff.mp hy] at hlargest ⊢
    rw [isNaN_eq_false_iff] at hx
    exact ⟨hx, Nat.le_refl _, by omega⟩

/-- Numbers and infinities are in order when their signed magnitudes are. -/
theorem le_of_signedMagnitude_le (hx : x.magnitude ≤ double.infinity)
    (hy : y.magnitude ≤ double.infinity) (h : x.signedMagnitude ≤ y.signedMagnitude) :
    x.Le y := by
  have hinfinity : 0 < double.infinity := by decide
  rcases Nat.eq_or_lt_of_le hx with hxtop | hxfinite
  · -- Infinity is at most itself, and negative infinity at most anything.
    rcases x.sign_eq_zero_or_one with hsign | hsign
    · rw [signedMagnitude_of_zero hsign] at h
      have hybounds := y.signedMagnitude_bounds
      have hytop : y.magnitude = double.infinity := by omega
      rcases y.sign_eq_zero_or_one with hysign | hysign
      · exact .ofPositiveInfinity (isNaN_eq_false_iff.mpr hx) (isInfinite_iff.mpr hytop) hysign
      · rw [signedMagnitude_of_one hysign] at h
        omega
    · exact .ofNegativeInfinity (isInfinite_iff.mpr hxtop) hsign (isNaN_eq_false_iff.mpr hy)
  · rcases Nat.eq_or_lt_of_le hy with hytop | hyfinite
    · -- A number is below infinity, and not below negative infinity.
      rcases y.sign_eq_zero_or_one with hsign | hsign
      · exact .ofPositiveInfinity (isNaN_eq_false_iff.mpr hx) (isInfinite_iff.mpr hytop) hsign
      · rw [signedMagnitude_of_one hsign] at h
        have hxbounds := x.signedMagnitude_bounds
        omega
    · exact .numbers (isFinite_iff.mpr hxfinite) (isFinite_iff.mpr hyfinite)
        (number_le_iff.mpr h)

/-- One double is at most another exactly when its signed magnitude is, neither being no number. -/
theorem le_iff : x.Le y ↔ x.magnitude ≤ double.infinity ∧ y.magnitude ≤ double.infinity ∧
    x.signedMagnitude ≤ y.signedMagnitude :=
  ⟨Le.signedMagnitude_le, fun ⟨hx, hy, h⟩ => le_of_signedMagnitude_le hx hy h⟩

/-! ## Opposite signs -/

/-- The magnitude of a double leaves room for its sign. -/
theorem magnitude_lt (x : Binary64) : x.magnitude < 2^double.magnitudeBits :=
  double.magnitude_lt _

/-- The pattern of the opposite. -/
theorem toNat_bits_neg (x : Binary64) :
    x.neg.bits.toNat = double.pattern (1 - x.sign) x.magnitude := by
  have hsign : 1 - x.sign < 2 := by omega
  rw [neg, UInt64.toNat_ofNat']
  exact Nat.mod_eq_of_lt (double.pattern_lt hsign x.magnitude_lt)

/-- The opposite has the other sign. -/
theorem sign_neg (x : Binary64) : x.neg.sign = 1 - x.sign := by
  have hsign : 1 - x.sign < 2 := by omega
  rw [sign, toNat_bits_neg, double.sign_pattern hsign x.magnitude_lt]

/-- The opposite has the same magnitude. -/
theorem magnitude_neg (x : Binary64) : x.neg.magnitude = x.magnitude := by
  rw [magnitude, toNat_bits_neg, double.magnitude_pattern x.magnitude_lt]

/-! ## Doubles that a format has -/

/-- What a format has among its numbers and infinities is exact there. -/
theorem IsRepresentable.isExact {format : FloatFormat}
    (hformat : format.bias + format.fractionBits ≤ unitExponent + 1)
    (h : x.IsRepresentable format) : x.IsExact format := by
  cases h with
  | @finite bits hbits hx hsign h =>
    refine ⟨.inl (Nat.le_of_lt (isFinite_iff.mp hx)), fun _ => ?_⟩
    rw [format.number_eq hformat, x.number_eq, hsign] at h
    -- Equal numbers of one sign have equal magnitudes in units.
    have hunits : format.units (format.magnitude bits) = double.units x.magnitude := by
      have hpos : (2 : ℚ)^unitExponent ≠ 0 := by positivity
      have hcancel := mul_left_cancel₀ (pow_ne_zero _ (neg_ne_zero.mpr one_ne_zero)) h
      exact Nat.cast_injective ((div_left_inj' hpos).mp hcancel)
    rw [← hunits]
    exact format.representable_units (of_decide_eq_true hbits)
  | infinite hx =>
    have htop := isInfinite_iff.mp hx
    exact ⟨.inl (Nat.le_of_eq htop), fun hfinite => absurd htop (Nat.ne_of_lt hfinite)⟩

/-- A double that is the same number as a magnitude of a format, or an infinity as that is, is one
that the format has. -/
theorem isExact_of_sameNumber {format : FloatFormat} {magnitude : Nat}
    (h : SameNumber format double magnitude x.magnitude) (hle : magnitude ≤ format.infinity) :
    x.IsExact format := by
  unfold IsExact
  generalize x.magnitude = own at h
  cases h with
  | finite hm hn h =>
    refine ⟨.inl (Nat.le_of_lt hn), fun _ => ?_⟩
    rw [← h]
    exact format.representable_units hm
  | infinite => exact ⟨.inl (Nat.le_refl _), fun hlt => absurd hlt (Nat.lt_irrefl _)⟩
  | quiet =>
    have hpos : 0 < 2^(format.fractionBits - 1) := Nat.two_pow_pos _
    exact absurd hle (Nat.not_le_of_lt (Nat.lt_add_of_pos_right hpos))

end Binary64

end BinaryRecord
