import BinaryRecord.Word
import Mathlib

/-!
# The bytes of words

A byte of a word is told by its significance, which has nothing to do with memory: `Word.byte` takes
eight of its bits. A byte order says which of the bytes stands where (`ByteOrder.significance`), and
`getElem?_toBytes` shows that writing a word puts its bytes there. Reading it in an order of the
same direction gives the word again, and reading it in the other direction gives the word with its
bytes reversed (`ofBytes_toBytes_of_same` and `byte_ofBytes_toBytes_of_opposite`).

The word of an integer is its two's complement: the byte of significance `i` is what is left of the
integer, divided by `256^i` and rounded down, modulo 256 (`byte_ofInt`).
-/

namespace BinaryRecord

/-- The significance of the byte that stands `i` bytes behind the first of a word of `w` bytes. The
host keeps the least significant byte first. -/
def ByteOrder.significance (order : ByteOrder) (w i : Nat) : Nat :=
  match order with
  | .big => w - 1 - i
  | .native | .little => i

namespace ByteOrder

variable {w i : Nat} {order other : ByteOrder} {bytes : List UInt8}

/-- Orders of which the same are reversed arrange bytes alike. -/
theorem arrange_congr (h : other.needsSwap = order.needsSwap) :
    other.arrange bytes = order.arrange bytes := by
  rw [arrange, arrange, h]

/-- In the opposite order the bytes are arranged the other way round. -/
theorem arrange_of_opposite (h : other.needsSwap = !order.needsSwap) :
    other.arrange bytes = (order.arrange bytes).reverse := by
  rw [arrange, arrange, h]
  cases order.needsSwap <;> simp

/-- Reversed bytes are arranged in the opposite order as the bytes are in this one. -/
theorem arrange_reverse_of_opposite (h : other.needsSwap = !order.needsSwap) :
    other.arrange bytes.reverse = order.arrange bytes := by
  rw [arrange, arrange, h]
  cases order.needsSwap <;> simp

/-- The bytes of a word have the significances below its width. -/
theorem significance_lt (order : ByteOrder) (hi : i < w) : order.significance w i < w := by
  unfold significance
  cases order <;> simp only <;> omega

/-- A byte stands where its significance would be that of its place. -/
theorem significance_significance (order : ByteOrder) (hi : i < w) :
    order.significance w (order.significance w i) = i := by
  unfold significance
  cases order <;> simp only
  omega

/-- Orders of opposite directions write the bytes in opposite directions. -/
theorem significance_of_opposite (h : other.resolve ≠ order.resolve) (w i : Nat) :
    order.significance w (other.significance w i) = w - 1 - i := by
  unfold resolve host at h
  unfold significance
  cases order <;> cases other <;> simp at h ⊢

end ByteOrder

namespace Word

variable {w : Nat} {order other : ByteOrder}

/-- The byte of a word that has the given significance, which is 0 for the least significant one. -/
def byte (word : Word w) (i : Nat) : UInt8 :=
  UInt8.ofBitVec (word.extractLsb' (8 * i) 8)

/-- A byte of a word as a number. -/
theorem toNat_byte (word : Word w) (i : Nat) : (word.byte i).toNat = word.toNat / 256^i % 256 := by
  unfold byte
  rw [UInt8.toNat_ofBitVec, BitVec.extractLsb'_toNat, Nat.shiftRight_eq_div_pow, Nat.pow_mul]

/-- The digits of a number are its bytes. -/
theorem getElem?_digits (w n i : Nat) :
    (digits w n)[i]? = if i < w then some (UInt8.ofNat (n / 256^i)) else none := by
  induction w generalizing n i with
  | zero => rfl
  | succ w ih =>
    unfold digits
    cases i with
    | zero =>
      have hbyte : UInt8.ofNat (n % 256) = UInt8.ofNat n := UInt8.ofNat_mod_size
      rw [List.getElem?_cons_zero, hbyte, if_pos (Nat.zero_lt_succ w), Nat.pow_zero, Nat.div_one]
    | succ i =>
      rw [List.getElem?_cons_succ, ih, Nat.div_div_eq_div_mul, Nat.pow_succ']
      simp only [Nat.succ_lt_succ_iff]

/-- Among the digits of a word stand its bytes, the least significant one first. -/
theorem getElem?_digits_toNat (word : Word w) (i : Nat) :
    (digits w word.toNat)[i]? = if i < w then some (word.byte i) else none := by
  have hbyte : UInt8.ofNat (word.toNat / 256^i) = word.byte i := by
    apply UInt8.toNat_inj.mp
    rw [UInt8.toNat_ofNat', toNat_byte]
  rw [getElem?_digits, hbyte]

/-! ## Words in memory -/

/-- Writing a word puts each of its bytes where the byte order has it. -/
theorem getElem?_toBytes (word : Word w) (order : ByteOrder) (i : Nat) :
    (word.toBytes order)[i]? =
      if i < w then some (word.byte (order.significance w i)) else none := by
  unfold toBytes ByteOrder.arrange
  cases order with
  | native => exact getElem?_digits_toNat word i
  | little => exact getElem?_digits_toNat word i
  | big =>
    -- The only order that swaps: the first byte is the last of the digits.
    rw [if_pos (by decide)]
    by_cases hi : i < w
    · rw [List.getElem?_reverse (by rwa [length_digits]), length_digits, getElem?_digits_toNat,
        if_pos (by omega), if_pos hi]
      rfl
    · rw [List.getElem?_eq_none (by rw [List.length_reverse, length_digits]; omega), if_neg hi]

/-- A word as it is written, byte by byte. -/
theorem toBytes_eq_map (word : Word w) (order : ByteOrder) :
    word.toBytes order = (List.range w).map fun i => word.byte (order.significance w i) := by
  apply List.ext_getElem?
  intro i
  rw [getElem?_toBytes, List.getElem?_map]
  split
  case isTrue hi => rw [List.getElem?_range hi, Option.map_some]
  case isFalse hi =>
    have hlength : (List.range w).length ≤ i := by rw [List.length_range]; omega
    rw [List.getElem?_eq_none hlength, Option.map_none]

/-- Orders of one direction write the same bytes. -/
theorem toBytes_of_same (h : other.resolve = order.resolve) (word : Word w) :
    word.toBytes other = word.toBytes order := by
  have hswap : other.needsSwap = order.needsSwap := congrArg (· != ByteOrder.host) h
  unfold toBytes
  exact ByteOrder.arrange_congr hswap

/-- A word that is read in the direction in which it was written is got back. -/
theorem ofBytes_toBytes_of_same (h : other.resolve = order.resolve) (word : Word w) :
    ofBytes other w (word.toBytes order) = word := by
  rw [← toBytes_of_same h, ofBytes_toBytes]

/-- A word that is read in the other direction has its bytes reversed. -/
theorem byte_ofBytes_toBytes_of_opposite (h : other.resolve ≠ order.resolve) (word : Word w)
    {i : Nat} (hi : i < w) :
    (ofBytes other w (word.toBytes order)).byte i = word.byte (w - 1 - i) := by
  have hlength := word.length_toBytes order
  -- What is read is the word whose own bytes, in this order, are the ones that were written.
  have hread : (ofBytes other w (word.toBytes order)).toBytes other = word.toBytes order := by
    have hbytes := toBytes_ofBytes other (word.toBytes order)
    rwa [hlength] at hbytes
  have hbyte := congrArg (·[other.significance w i]?) hread
  simp only [getElem?_toBytes, if_pos (other.significance_lt hi), Option.some.injEq] at hbyte
  rwa [other.significance_significance hi, ByteOrder.significance_of_opposite h] at hbyte

/-! ## Two's complement -/

/-- The bytes of the two's complement of an integer are those of the integer, divided and rounded
down. -/
theorem byte_ofInt (n : Int) {i : Nat} (hi : i < w) :
    byte (BitVec.ofInt (8 * w) n : Word w) i = UInt8.ofInt (n / 256^i) := by
  have hpos : (0 : Int) < 256^i := by positivity
  have hpowers : (256 : Int)^w = 256^i * (256 * 256^(w - i - 1)) := by
    rw [← Int.pow_succ', ← Int.pow_add]
    congr 1
    omega
  -- The words of two integers with the same remainder agree, so only the remainder is divided.
  have hquotient : n / 256^i = n % 256^w / 256^i + 256 * (256^(w - i - 1) * (n / 256^w)) := by
    conv_lhs => rw [← Int.emod_add_mul_ediv n (256^w), hpowers, Int.mul_assoc (256^i), ← hpowers]
    rw [Int.add_mul_ediv_left _ _ hpos.ne', Int.mul_assoc]
  have hremainder : n / 256^i % 256 = n % 256^w / 256^i % 256 := by
    rw [hquotient, Int.add_mul_emod_self_left]
  have hnat : ((n % 256^w).toNat / 256^i % 256 : Nat) = n % 256^w / 256^i % 256 := by
    have hnonneg : 0 ≤ n % 256^w := Int.emod_nonneg n (by positivity)
    rw [Int.natCast_emod, Int.natCast_ediv, Int.toNat_of_nonneg hnonneg, Int.natCast_pow]
    rfl
  apply UInt8.toNat_inj.mp
  unfold UInt8.ofInt
  rw [toNat_byte, BitVec.toNat_ofInt, two_pow_eq, UInt8.toNat_ofNat']
  have hcast : ((256^w : Nat) : Int) = 256^w := Int.natCast_pow 256 w
  rw [hcast]
  omega

end Word

end BinaryRecord
