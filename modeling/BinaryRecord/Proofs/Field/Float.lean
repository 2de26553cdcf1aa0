import BinaryRecord.Field.Codec
import BinaryRecord.Proofs.FloatFormat.Double

/-!
# Doubles in float fields

A float field holds a double rounded to its own format. `storedFloat` is the double that is got
back. What the field's format has is stored as it is (`storedFloat_of_isExact`), and the double of
any plain pattern is stored as that pattern (`encodeFloat_decodeFloat`).
-/

namespace BinaryRecord

open FloatFormat

namespace Field

/-- The numbers of bytes that a float field may have. -/
def floatWidths : List Nat := [2, 4, 8]

/-- A float field has one of three widths. -/
theorem mem_floatWidths_iff {w : Nat} : w ∈ floatWidths ↔ w = 2 ∨ w = 4 ∨ w = 8 := by
  simp [floatWidths]

/-- The double that a float field of `w` bytes gives back for a double. -/
def storedFloat (w : Nat) (x : Binary64) : Binary64 :=
  match w with
  | 2 => .widen .half (roundFloat 2 x)
  | 4 => .widen .single (roundFloat 4 x)
  | _ => x

/-- A double fits in a float field unless rounding makes an infinity of a number. -/
def FitsFloat (w : Nat) (x : Binary64) : Prop :=
  x.isFinite = true → (floatFormat w).isInfinite (roundFloat w x) = false

/-- A rounded double is as wide as the field. -/
theorem roundFloat_lt {w : Nat} (hw : w ∈ floatWidths) (x : Binary64) :
    roundFloat w x < 2^(8 * w) := by
  rcases mem_floatWidths_iff.mp hw with rfl | rfl | rfl
  · exact convert_lt (by decide) _
  · exact convert_lt (by decide) _
  · exact x.bits.toNat_lt

/-- A double that does not fit is refused. -/
theorem encodeFloat_of_not_fitsFloat {w : Nat} {x : Binary64} (h : ¬ FitsFloat w x) :
    encodeFloat w x = .error .outOfRange := by
  have hboth : ((floatFormat w).isInfinite (roundFloat w x) && x.isFinite) = true := by
    rw [FitsFloat, Classical.not_imp, Bool.not_eq_false] at h
    exact Bool.and_eq_true_iff.mpr ⟨h.2, h.1⟩
  exact if_pos hboth

/-- A double that fits is stored as it is rounded. -/
theorem encodeFloat_eq_ok_iff {w : Nat} {x : Binary64} {word : Word w} :
    encodeFloat w x = .ok word ↔
      FitsFloat w x ∧ BitVec.ofNat (8 * w) (roundFloat w x) = word := by
  by_cases h : FitsFloat w x
  · have hnot : ¬ ((floatFormat w).isInfinite (roundFloat w x) && x.isFinite) = true := by
      intro hboth
      obtain ⟨hinfinite, hfinite⟩ := Bool.and_eq_true_iff.mp hboth
      rw [h hfinite] at hinfinite
      exact Bool.false_ne_true hinfinite
    have hword : encodeFloat w x = .ok (BitVec.ofNat (8 * w) (roundFloat w x)) := if_neg hnot
    rw [hword, Except.ok.injEq, and_iff_right h]
  · simp [encodeFloat_of_not_fitsFloat h, h]

/-- What is stored of a double is got back. -/
theorem decodeFloat_roundFloat {w : Nat} (hw : w ∈ floatWidths) (x : Binary64) :
    decodeFloat (BitVec.ofNat (8 * w) (roundFloat w x)) = storedFloat w x := by
  have hword : (BitVec.ofNat (8 * w) (roundFloat w x)).toNat = roundFloat w x := by
    rw [BitVec.toNat_ofNat]
    exact Nat.mod_eq_of_lt (roundFloat_lt hw x)
  rcases mem_floatWidths_iff.mp hw with rfl | rfl | rfl
  · rw [decodeFloat, hword, storedFloat]
  · rw [decodeFloat, hword, storedFloat]
  · apply Binary64.eq_of_toNat_bits_eq
    show (UInt64.ofNat (BitVec.ofNat (8 * 8) (roundFloat 8 x)).toNat).toNat = x.bits.toNat
    rw [hword, UInt64.toNat_ofNat']
    exact Nat.mod_eq_of_lt x.bits.toNat_lt

/-! ## Patterns of fields -/

/-- Rounding the double of a plain pattern gives the pattern. -/
theorem roundFloat_widen_half {bits : Nat} (hwidth : bits < 2^16)
    (hplain : half.IsPlain (half.magnitude bits)) : roundFloat 2 (.widen .half bits) = bits := by
  rw [roundFloat, Binary64.toNat_bits_widen,
    half_embeds_double.convert_convert (by decide) hplain,
    half_embeds_single.convert_back hwidth hplain]

/-- Rounding the double of a plain pattern gives the pattern. -/
theorem roundFloat_widen_single {bits : Nat} (hwidth : bits < 2^32)
    (hplain : single.IsPlain (single.magnitude bits)) :
    roundFloat 4 (.widen .single bits) = bits := by
  rw [roundFloat, Binary64.toNat_bits_widen, single_embeds_double.convert_back hwidth hplain]

/-- A widened pattern is finite only where the pattern is. -/
theorem isFinite_widen {format : FloatFormat} (h : Embeds format double) (bits : Nat) :
    (Binary64.widen format bits).isFinite = format.isFinite bits := by
  rw [Binary64.isFinite, isFinite, isFinite, Binary64.toNat_bits_widen,
    magnitude_convert h.target_pos]
  exact decide_eq_decide.mpr h.convertMagnitude_lt_infinity_iff

/-- Where a pattern is finite, it is not infinite. -/
theorem isInfinite_of_isFinite {format : FloatFormat} {bits : Nat}
    (h : format.isFinite bits = true) : format.isInfinite bits = false := by
  simp only [isFinite, decide_eq_true_eq] at h
  simp only [isInfinite, beq_eq_false_iff_ne]
  exact Nat.ne_of_lt h

/-- A double that is rounded to a word, and finite only where the word is, is stored as the word. -/
theorem encodeFloat_of_roundFloat_eq {w : Nat} {x : Binary64} {word : Word w}
    (hround : roundFloat w x = word.toNat)
    (hfinite : x.isFinite = true → (floatFormat w).isFinite word.toNat = true) :
    encodeFloat w x = .ok word := by
  refine encodeFloat_eq_ok_iff.mpr ⟨fun hx => ?_, ?_⟩
  · rw [hround]
    exact isInfinite_of_isFinite (hfinite hx)
  · rw [hround]
    exact BitVec.ofNat_toNat _ _ ▸ BitVec.setWidth_eq word

/-- The double of a plain pattern is stored as the pattern. In eight bytes, every pattern is. -/
theorem encodeFloat_decodeFloat {w : Nat} (hw : w ∈ floatWidths) (word : Word w)
    (hplain : w ≠ 8 → (floatFormat w).IsPlain ((floatFormat w).magnitude word.toNat)) :
    encodeFloat w (decodeFloat word) = .ok word := by
  rcases mem_floatWidths_iff.mp hw with rfl | rfl | rfl
  · have hround := roundFloat_widen_half word.isLt (hplain (by decide))
    have hfinite := isFinite_widen half_embeds_double word.toNat
    exact encodeFloat_of_roundFloat_eq hround fun hx => hfinite ▸ hx
  · have hround := roundFloat_widen_single word.isLt (hplain (by decide))
    have hfinite := isFinite_widen single_embeds_double word.toNat
    exact encodeFloat_of_roundFloat_eq hround fun hx => hfinite ▸ hx
  · -- Eight bytes are the bits of the double themselves.
    have hround : roundFloat 8 (decodeFloat word) = word.toNat := by
      show (UInt64.ofNat word.toNat).toNat = word.toNat
      rw [UInt64.toNat_ofNat']
      exact Nat.mod_eq_of_lt word.isLt
    refine encodeFloat_of_roundFloat_eq hround fun hx => ?_
    rw [← hround]
    exact hx

/-! ## Doubles that a field has -/

/-- A double that a format has is the same number as its magnitude there. -/
theorem sameNumber_of_isExact {format : FloatFormat} (hformat : 0 < format.fractionBits)
    {x : Binary64} (h : x.IsExact format) :
    SameNumber double format x.magnitude (convertMagnitude double format x.magnitude) :=
  sameNumber_convertMagnitude (by decide) hformat h.1 h.2

/-- A double is widened from a pattern with its sign and a magnitude that is the same number. -/
theorem widen_eq_of_sameNumber {format : FloatFormat} {bits : Nat} {x : Binary64}
    (hsign : format.sign bits = double.sign x.bits.toNat)
    (h : SameNumber format double (format.magnitude bits) x.magnitude) :
    Binary64.widen format bits = x := by
  apply Binary64.eq_of_toNat_bits_eq
  rw [Binary64.toNat_bits_widen, convert_eq, hsign, h.convertMagnitude_self (by decide)]
  exact double.pattern_sign_magnitude x.bits.toNat_lt

/-- What a single has is stored as it is in four bytes. -/
theorem storedFloat_four_of_isExact {x : Binary64} (h : x.IsExact single) :
    storedFloat 4 x = x := by
  apply widen_eq_of_sameNumber
  · exact sign_convert (by decide) _
  · rw [roundFloat, magnitude_convert (by decide)]
    exact (sameNumber_of_isExact (by decide) h).symm

/-- What a half has is stored as it is in two bytes: it is a single, too, so that nothing is lost on
the way. -/
theorem storedFloat_two_of_isExact {x : Binary64} (h : x.IsExact half) : storedFloat 2 x = x := by
  have hexact : x.IsExact single :=
    ⟨h.1, fun hfinite => half_embeds_single.representable (h.2 hfinite)⟩
  have hsingle := sameNumber_of_isExact (by decide) hexact
  have hhalf := sameNumber_of_isExact (by decide) h
  have hthrough : convertMagnitude single half (convertMagnitude double single x.magnitude) =
      convertMagnitude double half x.magnitude :=
    (hsingle.convertMagnitude_eq (by decide)).symm
  apply widen_eq_of_sameNumber
  · rw [roundFloat, sign_convert (by decide), sign_convert (by decide)]
  · rw [roundFloat, magnitude_convert (by decide), magnitude_convert (by decide),
      ← Binary64.magnitude, hthrough]
    exact hhalf.symm

/-- What a field's format has is stored as it is. In eight bytes, every double is. -/
theorem storedFloat_of_isExact {w : Nat} (hw : w ∈ floatWidths) {x : Binary64}
    (h : w ≠ 8 → x.IsExact (floatFormat w)) : storedFloat w x = x := by
  rcases mem_floatWidths_iff.mp hw with rfl | rfl | rfl
  · exact storedFloat_two_of_isExact (h (by decide))
  · exact storedFloat_four_of_isExact (h (by decide))
  · rfl

end Field

end BinaryRecord
