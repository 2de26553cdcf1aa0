import BinaryRecord.Proofs.FloatFormat.Units

/-!
# Conversions between formats

A conversion keeps the sign of a pattern and converts its magnitude (`convert_eq`). Two magnitudes
of two formats may be the same number (`SameNumber`), and then they are converted to the same
magnitude of any third format. Where a format embeds in another, every magnitude that is plain is
the same number there, so that it comes back unchanged (`Embeds.convertMagnitude_back`). What is no
number counts as plain only without anything in its fraction but the quiet bit: of the rest, a
conversion keeps what there is room for.
-/

namespace BinaryRecord.FloatFormat

/-! ## Patterns -/

section Patterns

variable (format : FloatFormat)

/-- Infinity leaves room for its sign. -/
theorem infinity_lt : format.infinity < 2^format.magnitudeBits := by
  have hless : 2^format.exponentBits - 1 < 2^format.exponentBits :=
    Nat.sub_one_lt_of_lt (Nat.two_pow_pos _)
  unfold infinity magnitudeBits
  calc (2^format.exponentBits - 1) * 2^format.fractionBits
      < 2^format.exponentBits * 2^format.fractionBits :=
        Nat.mul_lt_mul_of_pos_right hless (Nat.two_pow_pos _)
    _ = 2^(format.exponentBits + format.fractionBits) := (Nat.pow_add _ _ _).symm

/-- The magnitude of a pattern is what it was made of. -/
theorem magnitude_pattern {sign magnitude : Nat} (h : magnitude < 2^format.magnitudeBits) :
    format.magnitude (format.pattern sign magnitude) = magnitude := by
  rw [FloatFormat.magnitude, pattern, Nat.mul_comm, Nat.mul_add_mod, Nat.mod_eq_of_lt h]

/-- The sign of a pattern is what it was made of. -/
theorem sign_pattern {sign magnitude : Nat} (hsign : sign < 2)
    (h : magnitude < 2^format.magnitudeBits) :
    format.sign (format.pattern sign magnitude) = sign := by
  rw [FloatFormat.sign, pattern, Nat.mul_comm, Nat.mul_add_div (Nat.two_pow_pos _),
    Nat.div_eq_of_lt h, Nat.add_zero, Nat.mod_eq_of_lt hsign]

/-- A sign is one of two. -/
theorem sign_lt (bits : Nat) : format.sign bits < 2 :=
  Nat.mod_lt _ (by decide)

/-- The magnitude of a pattern leaves room for its sign. -/
theorem magnitude_lt (bits : Nat) : format.magnitude bits < 2^format.magnitudeBits :=
  Nat.mod_lt _ (Nat.two_pow_pos _)

/-- A pattern of the right width is made of its sign and its magnitude. -/
theorem pattern_sign_magnitude {bits : Nat} (h : bits < 2^(format.magnitudeBits + 1)) :
    format.pattern (format.sign bits) (format.magnitude bits) = bits := by
  have hsign : bits / 2^format.magnitudeBits < 2 := by
    rw [Nat.div_lt_iff_lt_mul (Nat.two_pow_pos _), Nat.mul_comm, ← Nat.pow_succ]
    exact h
  rw [pattern, FloatFormat.sign, FloatFormat.magnitude, Nat.mod_eq_of_lt hsign, Nat.mul_comm,
    Nat.div_add_mod]

/-- A pattern made of a sign and a magnitude is of the right width. -/
theorem pattern_lt {sign magnitude : Nat} (hsign : sign < 2)
    (h : magnitude < 2^format.magnitudeBits) :
    format.pattern sign magnitude < 2^(format.magnitudeBits + 1) := by
  have hle : sign * 2^format.magnitudeBits ≤ 1 * 2^format.magnitudeBits :=
    Nat.mul_le_mul_right _ (by omega)
  rw [pattern, Nat.pow_succ]
  omega

end Patterns

/-! ## Magnitudes of converted patterns -/

variable {source target : FloatFormat}

/-- The magnitude of a pattern in the target format. -/
def convertMagnitude (source target : FloatFormat) (magnitude : Nat) : Nat :=
  if magnitude < source.infinity then target.nearest (source.units magnitude)
  else if magnitude = source.infinity then target.infinity
  else target.quiet source (magnitude - source.infinity)

/-- A conversion keeps the sign and converts the magnitude. -/
theorem convert_eq (source target : FloatFormat) (bits : Nat) :
    source.convert target bits =
      target.pattern (source.sign bits) (convertMagnitude source target (source.magnitude bits)) :=
  rfl

/-- What is no number stays none, and leaves room for its sign. -/
theorem quiet_bounds (source : FloatFormat) (h : 0 < target.fractionBits) (fraction : Nat) :
    target.infinity < target.quiet source fraction ∧
      target.quiet source fraction < 2^target.magnitudeBits := by
  -- Above infinity there is a whole fraction, and the quiet bit is half of it.
  have hbit : 0 < 2^(target.fractionBits - 1) := Nat.two_pow_pos _
  have hdouble : 2^target.fractionBits = 2^(target.fractionBits - 1) * 2 := by
    rw [← Nat.pow_succ, Nat.succ_eq_add_one, Nat.sub_add_cancel h]
  have hrest := Nat.mod_lt (fraction * 2^target.fractionBits / 2^source.fractionBits) hbit
  have htop : target.infinity + 2^target.fractionBits = 2^target.magnitudeBits := by
    have hpos : 0 < 2^target.exponentBits := Nat.two_pow_pos _
    rw [infinity, magnitudeBits, Nat.pow_add, ← Nat.succ_mul]
    congr 1
    omega
  simp only [quiet]
  omega

/-- A converted magnitude leaves room for its sign. -/
theorem convertMagnitude_lt (h : 0 < target.fractionBits) (magnitude : Nat) :
    convertMagnitude source target magnitude < 2^target.magnitudeBits := by
  unfold convertMagnitude
  split_ifs
  · exact Nat.lt_of_le_of_lt (nearest_le_infinity _ _) target.infinity_lt
  · exact target.infinity_lt
  · exact (quiet_bounds source h _).2

/-- A converted pattern is of the right width. -/
theorem convert_lt (h : 0 < target.fractionBits) (bits : Nat) :
    source.convert target bits < 2^(target.magnitudeBits + 1) :=
  target.pattern_lt (source.sign_lt bits) (convertMagnitude_lt h _)

/-- A conversion keeps the sign. -/
theorem sign_convert (h : 0 < target.fractionBits) (bits : Nat) :
    target.sign (source.convert target bits) = source.sign bits :=
  target.sign_pattern (source.sign_lt bits) (convertMagnitude_lt h _)

/-- The magnitude of a converted pattern. -/
theorem magnitude_convert (h : 0 < target.fractionBits) (bits : Nat) :
    target.magnitude (source.convert target bits) =
      convertMagnitude source target (source.magnitude bits) :=
  target.magnitude_pattern (convertMagnitude_lt h _)

/-- Two conversions keep the sign and convert the magnitude twice. -/
theorem convert_convert_eq {other : FloatFormat} (h : 0 < target.fractionBits) (bits : Nat) :
    target.convert other (source.convert target bits) =
      other.pattern (source.sign bits) (convertMagnitude target other
        (convertMagnitude source target (source.magnitude bits))) := by
  rw [convert_eq target, sign_convert h, magnitude_convert h]

/-! ## Conversions that keep the number -/

/-- The magnitude of no number that keeps nothing of a fraction. -/
def quietNaN (format : FloatFormat) : Nat :=
  format.infinity + 2^(format.fractionBits - 1)

/-- A magnitude is plain when it is that of a number or of an infinity, or no number and without
anything kept of a fraction. -/
def IsPlain (format : FloatFormat) (magnitude : Nat) : Prop :=
  magnitude ≤ format.infinity ∨ magnitude = format.quietNaN

instance (format : FloatFormat) (magnitude : Nat) : Decidable (format.IsPlain magnitude) :=
  inferInstanceAs (Decidable (_ ∨ _))

/-- A quiet bit is all that a quiet magnitude keeps of it. -/
theorem quiet_quietBit (hsource : 0 < source.fractionBits) (htarget : 0 < target.fractionBits) :
    target.quiet source (2^(source.fractionBits - 1)) = target.quietNaN := by
  have hpos : 0 < 2^source.fractionBits := Nat.two_pow_pos _
  have hscaled : 2^(source.fractionBits - 1) * 2^target.fractionBits =
      2^(target.fractionBits - 1) * 2^source.fractionBits := by
    rw [← Nat.pow_add, ← Nat.pow_add]
    congr 1
    omega
  simp only [quiet, quietNaN, hscaled, Nat.mul_div_cancel _ hpos, Nat.mod_self, Nat.add_zero]

/-- Two magnitudes, each of its own format, that are the same number, or both infinite, or both no
number and without anything kept of a fraction. -/
inductive SameNumber (source target : FloatFormat) : Nat → Nat → Prop
  | finite {m n : Nat} (hm : m < source.infinity) (hn : n < target.infinity)
      (h : source.units m = target.units n) : SameNumber source target m n
  | infinite : SameNumber source target source.infinity target.infinity
  | quiet (hsource : 0 < source.fractionBits) (htarget : 0 < target.fractionBits) :
      SameNumber source target source.quietNaN target.quietNaN

namespace SameNumber

variable {m n : Nat}

/-- It does not matter which of the two comes first. -/
theorem symm (h : SameNumber source target m n) : SameNumber target source n m := by
  cases h with
  | finite hm hn h => exact .finite hn hm h.symm
  | infinite => exact .infinite
  | quiet hsource htarget => exact .quiet htarget hsource

/-- What is the same number is converted to the same magnitude. -/
theorem convertMagnitude_eq (h : SameNumber source target m n) {other : FloatFormat}
    (hother : 0 < other.fractionBits) :
    convertMagnitude source other m = convertMagnitude target other n := by
  cases h with
  | finite hm hn h => rw [convertMagnitude, convertMagnitude, if_pos hm, if_pos hn, h]
  | infinite => simp [convertMagnitude]
  | quiet hsource htarget =>
    simp [convertMagnitude, quietNaN, quiet_quietBit, hsource, htarget, hother]

/-- A magnitude is converted to the one that is the same number. -/
theorem convertMagnitude_self (h : SameNumber source target m n)
    (htarget : 0 < target.fractionBits) : convertMagnitude source target m = n := by
  rw [h.convertMagnitude_eq htarget]
  cases h with
  | finite hm hn h => rw [convertMagnitude, if_pos hn, target.nearest_units hn]
  | infinite => simp [convertMagnitude]
  | quiet hsource htarget => simp [convertMagnitude, quietNaN, quiet_quietBit, htarget]

end SameNumber

/-- A plain magnitude whose number the target format has is converted to the same number. -/
theorem sameNumber_convertMagnitude {magnitude : Nat} (hsource : 0 < source.fractionBits)
    (htarget : 0 < target.fractionBits) (hplain : source.IsPlain magnitude)
    (h : magnitude < source.infinity → target.Representable (source.units magnitude)) :
    SameNumber source target magnitude (convertMagnitude source target magnitude) := by
  rcases hplain with hnumber | rfl
  · rcases Nat.eq_or_lt_of_le hnumber with rfl | hfinite
    · rw [SameNumber.infinite.convertMagnitude_self htarget]
      exact .infinite
    · obtain ⟨hbelow, hunits⟩ := target.nearest_of_representable (h hfinite)
      rw [convertMagnitude, if_pos hfinite]
      exact .finite hfinite hbelow hunits.symm
  · rw [(SameNumber.quiet hsource htarget).convertMagnitude_self htarget]
    exact .quiet hsource htarget

/-! ## Formats within formats -/

/-- Every number of the source format is one of the target format. -/
structure Embeds (source target : FloatFormat) : Prop where
  /-- The source keeps at least a quiet bit. -/
  fractionBits_pos : 0 < source.fractionBits
  /-- The target keeps as many bits. -/
  fractionBits_le : source.fractionBits ≤ target.fractionBits
  /-- The least number of the target is as small. -/
  scale_le : target.scale ≤ source.scale
  /-- The numbers of the target go as far. -/
  infinity_le : source.units source.infinity ≤ target.units target.infinity

/-- Halves are singles. -/
theorem half_embeds_single : Embeds half single :=
  ⟨by decide, by decide, by decide, by decide +kernel⟩

/-- Halves are doubles. -/
theorem half_embeds_double : Embeds half double :=
  ⟨by decide, by decide, by decide, by decide +kernel⟩

/-- Singles are doubles. -/
theorem single_embeds_double : Embeds single double :=
  ⟨by decide, by decide, by decide, by decide +kernel⟩

namespace Embeds

/-- The target keeps at least a quiet bit, too. -/
theorem target_pos (h : Embeds source target) : 0 < target.fractionBits :=
  Nat.lt_of_lt_of_le h.fractionBits_pos h.fractionBits_le

/-- A number that the source format has is one that the target format has. -/
theorem representable (h : Embeds source target) {n : Nat} (hn : source.Representable n) :
    target.Representable n := by
  obtain ⟨significand, exponent, hsmall, hscale, hvalue, hbelow⟩ := hn
  have hpow : 2^(source.fractionBits + 1) ≤ 2^(target.fractionBits + 1) :=
    Nat.pow_le_pow_right (by decide) (Nat.add_le_add_right h.fractionBits_le 1)
  exact ⟨significand, exponent, Nat.lt_of_lt_of_le hsmall hpow, Nat.le_trans h.scale_le hscale,
    hvalue, Nat.lt_of_lt_of_le hbelow h.infinity_le⟩

/-- In the target format a plain magnitude is the same number. -/
theorem sameNumber (h : Embeds source target) {magnitude : Nat}
    (hplain : source.IsPlain magnitude) :
    SameNumber source target magnitude (convertMagnitude source target magnitude) :=
  sameNumber_convertMagnitude h.fractionBits_pos h.target_pos hplain
    (fun hfinite => h.representable (source.representable_units hfinite))

/-- A plain magnitude that is carried to a larger format first is converted as it would be at
once. -/
theorem convertMagnitude_convertMagnitude (h : Embeds source target) {other : FloatFormat}
    (hother : 0 < other.fractionBits) {magnitude : Nat} (hplain : source.IsPlain magnitude) :
    convertMagnitude target other (convertMagnitude source target magnitude) =
      convertMagnitude source other magnitude :=
  ((h.sameNumber hplain).convertMagnitude_eq hother).symm

/-- A plain magnitude comes back from a larger format unchanged. -/
theorem convertMagnitude_back (h : Embeds source target) {magnitude : Nat}
    (hplain : source.IsPlain magnitude) :
    convertMagnitude target source (convertMagnitude source target magnitude) = magnitude :=
  (h.sameNumber hplain).symm.convertMagnitude_self h.fractionBits_pos

/-- A plain pattern that is carried to a larger format first is converted as it would be at once. -/
theorem convert_convert (h : Embeds source target) {other : FloatFormat}
    (hother : 0 < other.fractionBits) {bits : Nat}
    (hplain : source.IsPlain (source.magnitude bits)) :
    target.convert other (source.convert target bits) = source.convert other bits := by
  calc target.convert other (source.convert target bits)
      = other.pattern (source.sign bits) (convertMagnitude target other
          (convertMagnitude source target (source.magnitude bits))) :=
        convert_convert_eq h.target_pos bits
    _ = other.pattern (source.sign bits)
          (convertMagnitude source other (source.magnitude bits)) := by
        rw [h.convertMagnitude_convertMagnitude hother hplain]
    _ = source.convert other bits := (convert_eq source other bits).symm

/-- A plain pattern comes back from a larger format unchanged. -/
theorem convert_back (h : Embeds source target) {bits : Nat}
    (hwidth : bits < 2^(source.magnitudeBits + 1))
    (hplain : source.IsPlain (source.magnitude bits)) :
    target.convert source (source.convert target bits) = bits := by
  calc target.convert source (source.convert target bits)
      = source.pattern (source.sign bits) (convertMagnitude target source
          (convertMagnitude source target (source.magnitude bits))) :=
        convert_convert_eq h.target_pos bits
    _ = source.pattern (source.sign bits) (source.magnitude bits) := by
        rw [h.convertMagnitude_back hplain]
    _ = bits := source.pattern_sign_magnitude hwidth

/-- Only what is finite becomes finite in a larger format. -/
theorem convertMagnitude_lt_infinity_iff (h : Embeds source target) {magnitude : Nat} :
    convertMagnitude source target magnitude < target.infinity ↔ magnitude < source.infinity := by
  unfold convertMagnitude
  split_ifs with hfinite hinfinite
  · have hbelow := target.nearest_of_representable
      (h.representable (source.representable_units hfinite))
    exact iff_of_true hbelow.1 hfinite
  · exact iff_of_false (Nat.lt_irrefl _) hfinite
  · have hquiet := (quiet_bounds source h.target_pos (magnitude - source.infinity)).1
    exact iff_of_false (Nat.not_lt_of_lt hquiet) hfinite

end Embeds

end BinaryRecord.FloatFormat
