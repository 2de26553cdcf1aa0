import BinaryRecord.ByteOrder
import BinaryRecord.Size

/-!
# Words of any number of bytes

A word of `w` bytes is a bit vector of `8 w` bits. `Word.toBytes` gives its bytes in a byte order
and `Word.ofBytes` reads them back; both go through the digits of a natural number in base 256,
least significant first, which is the order of the host. `ofBytes_toBytes` says that a word comes
back whole, whatever its bits stand for.
-/

namespace BinaryRecord

/-- A word of `w` bytes. -/
abbrev Word (w : Nat) := BitVec (8 * w)

namespace Word

/-- The `w` low digits of `n` in base 256, least significant first. -/
def digits : (w n : Nat) → List UInt8
  | 0, _ => []
  | w + 1, n => UInt8.ofNat (n % 256) :: digits w (n / 256)

/-- The number whose digits in base 256 these are, least significant first. -/
def ofDigits : List UInt8 → Nat
  | [] => 0
  | b :: bytes => b.toNat + 256 * ofDigits bytes

/-- The bytes of a word in the given order. -/
def toBytes {w : Nat} (order : ByteOrder) (word : Word w) : List UInt8 :=
  order.arrange (digits w word.toNat)

/-- The word of `w` bytes that these bytes hold in the given order. -/
def ofBytes (order : ByteOrder) (w : Nat) (bytes : List UInt8) : Word w :=
  BitVec.ofNat (8 * w) (ofDigits (order.arrange bytes))

/-! ## Digits -/

/-- There are as many digits as were asked for. -/
@[simp] theorem length_digits (w n : Nat) : (digits w n).length = w := by
  induction w generalizing n with
  | zero => rfl
  | succ w ih => simp [digits, ih]

/-- The digits hold the number up to multiples of the word's range. -/
theorem ofDigits_digits (w n : Nat) : ofDigits (digits w n) = n % 256^w := by
  induction w generalizing n with
  | zero => simp [digits, ofDigits, Nat.mod_one]
  | succ w ih =>
    have hbyte : (UInt8.ofNat (n % 256)).toNat = n % 256 := by
      rw [UInt8.toNat_ofNat', Nat.mod_mod_of_dvd n (Nat.dvd_refl 256)]
    rw [digits, ofDigits, ih, hbyte, Nat.pow_succ', Nat.mod_mul]

/-- The number of given digits is in the range of a word of as many bytes. -/
theorem ofDigits_lt (bytes : List UInt8) : ofDigits bytes < 256^bytes.length := by
  induction bytes with
  | nil => simp [ofDigits]
  | cons b bytes ih =>
    have hb := b.toNat_lt
    rw [ofDigits, List.length_cons, Nat.pow_succ]
    omega

/-- Digits are determined by their number. -/
theorem digits_ofDigits (bytes : List UInt8) : digits bytes.length (ofDigits bytes) = bytes := by
  induction bytes with
  | nil => rfl
  | cons b bytes ih =>
    have hb := b.toNat_lt
    have hlow : (b.toNat + 256 * ofDigits bytes) % 256 = b.toNat := by omega
    have hhigh : (b.toNat + 256 * ofDigits bytes) / 256 = ofDigits bytes := by omega
    rw [List.length_cons, digits, ofDigits, hlow, hhigh, ih, UInt8.ofNat_toNat]

/-! ## Words -/

/-- The range of a word, in bytes and in bits. -/
theorem two_pow_eq (w : Nat) : 2^(8 * w) = 256^w := by
  rw [Nat.pow_mul]

/-- A word of `w` bytes takes `w` bytes. -/
@[simp] theorem length_toBytes {w : Nat} (order : ByteOrder) (word : Word w) :
    (word.toBytes order).length = w := by
  simp [toBytes]

/-- A word is read back from its bytes. -/
theorem ofBytes_toBytes {w : Nat} (order : ByteOrder) (word : Word w) :
    ofBytes order w (word.toBytes order) = word := by
  apply BitVec.eq_of_toNat_eq
  have hlt := word.isLt
  rw [ofBytes, toBytes, ByteOrder.arrange_arrange, ofDigits_digits, BitVec.toNat_ofNat,
    ← two_pow_eq, Nat.mod_mod, Nat.mod_eq_of_lt hlt]

/-- Bytes are got back from the word that they hold. -/
theorem toBytes_ofBytes (order : ByteOrder) (bytes : List UInt8) :
    (ofBytes order bytes.length bytes).toBytes order = bytes := by
  have hlt : ofDigits (order.arrange bytes) < 2^(8 * bytes.length) := by
    simpa [two_pow_eq] using ofDigits_lt (order.arrange bytes)
  have hdigits := digits_ofDigits (order.arrange bytes)
  rw [ByteOrder.length_arrange] at hdigits
  rw [toBytes, ofBytes, BitVec.toNat_ofNat, Nat.mod_eq_of_lt hlt, hdigits,
    ByteOrder.arrange_arrange]

end Word

end BinaryRecord
