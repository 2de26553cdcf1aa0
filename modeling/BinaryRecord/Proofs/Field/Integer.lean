import BinaryRecord.Field.Codec
import Mathlib

/-!
# Numbers in integer fields

An integer field of `w` bytes holds the numbers of a range, each as the word that is its two's
complement. A number in the range is read off its word again (`toInt_ofInt` and `toNat_ofInt`), and
the number of every word is in the range (`fitsInteger_toInt` and `fitsInteger_toNat`). No field is
wider than a value, so that a value holds the number of a word as it is.
-/

namespace BinaryRecord.Field

/-- The numbers of bytes that an integer field may have. -/
def integerWidths : List Nat := [1, 2, 4, 8]

/-- A width of an integer field is one to eight bytes. -/
theorem bounds_of_mem_integerWidths {w : Nat} (h : w ∈ integerWidths) : 0 < w ∧ w ≤ 8 := by
  simp only [integerWidths, List.mem_cons, List.not_mem_nil, or_false] at h
  omega

/-- A number is in the range of an integer field of `w` bytes. -/
def FitsInteger (signed : Bool) (w : Nat) (n : Int) : Prop :=
  (integerRange signed w).1 ≤ n ∧ n ≤ (integerRange signed w).2

instance (signed : Bool) (w : Nat) (n : Int) : Decidable (FitsInteger signed w n) :=
  inferInstanceAs (Decidable (_ ∧ _))

variable {signed : Bool} {w : Nat} {n : Int}

/-- The range of a signed field. -/
theorem fitsInteger_signed_iff :
    FitsInteger true w n ↔ -2^(8 * w - 1) ≤ n ∧ n ≤ 2^(8 * w - 1) - 1 :=
  Iff.rfl

/-- The range of an unsigned field. -/
theorem fitsInteger_unsigned_iff : FitsInteger false w n ↔ 0 ≤ n ∧ n ≤ 2^(8 * w) - 1 :=
  Iff.rfl

/-- A number out of the range is refused. -/
theorem encodeInteger_of_not_fitsInteger (h : ¬ FitsInteger signed w n) :
    encodeInteger signed w n = .error .outOfRange :=
  if_neg h

/-- A number in the range has its two's complement for a word. -/
theorem encodeInteger_eq_ok_iff {word : Word w} :
    encodeInteger signed w n = .ok word ↔
      FitsInteger signed w n ∧ BitVec.ofInt (8 * w) n = word := by
  by_cases h : FitsInteger signed w n
  · have hword : encodeInteger signed w n = .ok (BitVec.ofInt (8 * w) n) := if_pos h
    rw [hword, Except.ok.injEq, and_iff_right h]
  · simp [encodeInteger_of_not_fitsInteger h, h]

/-! ## From numbers to words -/

/-- A number in the range of a signed field is what its word is read as. -/
theorem toInt_ofInt (hw : 0 < w) (h : FitsInteger true w n) :
    (BitVec.ofInt (8 * w) n).toInt = n := by
  obtain ⟨hleast, hlargest⟩ := fitsInteger_signed_iff.mp h
  have hdouble : (2 : Int)^(8 * w) = 2^(8 * w - 1) * 2 := by
    rw [← Int.pow_succ]
    congr 1
    omega
  -- The word keeps the number up to multiples of its range, of which this is the balanced one.
  rw [BitVec.toInt_ofInt]
  apply Int.bmod_eq_of_le_mul_two
  · push_cast
    omega
  · push_cast
    omega

/-- A number in the range of an unsigned field is what its word is read as. -/
theorem toNat_ofInt (h : FitsInteger false w n) : ((BitVec.ofInt (8 * w) n).toNat : Int) = n := by
  obtain ⟨hleast, hlargest⟩ := fitsInteger_unsigned_iff.mp h
  have hmod : n % ((2^(8 * w) : Nat) : Int) = n := by
    apply Int.emod_eq_of_lt hleast
    push_cast
    omega
  rw [BitVec.toNat_ofInt, hmod, Int.toNat_of_nonneg hleast]

/-! ## From words to numbers -/

/-- The number of a word is in the range of a signed field. -/
theorem fitsInteger_toInt (word : Word w) : FitsInteger true w word.toInt := by
  have hbelow := @BitVec.toInt_lt _ word
  exact fitsInteger_signed_iff.mpr ⟨word.le_toInt, by omega⟩

/-- The number of a word is in the range of an unsigned field. -/
theorem fitsInteger_toNat (word : Word w) : FitsInteger false w word.toNat := by
  have hbelow : (word.toNat : Int) < ((2^(8 * w) : Nat) : Int) := Int.ofNat_lt.mpr word.isLt
  push_cast at hbelow
  exact fitsInteger_unsigned_iff.mpr ⟨by omega, by omega⟩

/-! ## Numbers of values -/

/-- No signed field has a number that a value cannot hold. -/
theorem toInt_int64OfInt (hw : w ≤ 8) (h : FitsInteger true w n) : (Int64.ofInt n).toInt = n := by
  obtain ⟨hleast, hlargest⟩ := fitsInteger_signed_iff.mp h
  have hpow : (2 : Int)^(8 * w - 1) ≤ 2^63 := by
    have hnat : 2^(8 * w - 1) ≤ 2^63 := Nat.pow_le_pow_right (by decide) (by omega)
    exact_mod_cast hnat
  exact Int64.toInt_ofInt_of_le (by omega) (by omega)

/-- No unsigned field has a number that a value cannot hold. -/
theorem toNat_uint64OfNat (hw : w ≤ 8) (word : Word w) :
    (UInt64.ofNat word.toNat).toNat = word.toNat := by
  have hpow : 2^(8 * w) ≤ 2^64 := Nat.pow_le_pow_right (by decide) (by omega)
  rw [UInt64.toNat_ofNat']
  exact Nat.mod_eq_of_lt (Nat.lt_of_lt_of_le word.isLt hpow)

end BinaryRecord.Field
