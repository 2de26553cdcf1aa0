/-!
# Sizes

Sizes, counts, offsets and repeats are natural numbers that must fit in 64 bits. The definitions of
the library compute with natural numbers and check each step against `maxSize`: `checked` gives
nothing when a number does not fit, nor do `checkedAdd` and `checkedMul` when the exact result does
not, and `saturatingAdd` stops at the largest size.
-/

-- Where Mathlib is imported, a power of natural numbers is read as one in a monoid, and elsewhere
-- as the core library's own. The definitions of this library do without Mathlib and its theory does
-- not, so that a statement would speak of another power than the definition it is about. With this
-- priority all modules read the core library's, as long as the type of the exponent is known, which
-- for a literal must be said.
attribute [instance (2000)] instPowNat

namespace BinaryRecord.Size

/-- The largest size, count or offset, which is what 64 bits hold. -/
def maxSize : Nat := 2^(64 : Nat) - 1

/-- The number, when it fits. -/
def checked (n : Nat) : Option Nat :=
  if n ≤ maxSize then some n else none

/-- The sum, when it fits. -/
def checkedAdd (a b : Nat) : Option Nat :=
  checked (a + b)

/-- The product, when it fits. -/
def checkedMul (a b : Nat) : Option Nat :=
  checked (a * b)

/-- The sum, or the largest size when the sum does not fit. -/
def saturatingAdd (a b : Nat) : Nat :=
  min (a + b) maxSize

/-- A number that fits is what is checked. -/
theorem checked_of_le {n : Nat} (hfits : n ≤ maxSize) : checked n = some n :=
  if_pos hfits

/-- Checked sums go on from a checked number: once it does not fit, no larger one does. -/
theorem checked_bind_checkedAdd (n a : Nat) :
    (checked n).bind (checkedAdd · a) = checked (n + a) := by
  by_cases hfits : n ≤ maxSize
  · rw [checked_of_le hfits, Option.bind_some, checkedAdd]
  · have hlarge : ¬ n + a ≤ maxSize := fun hsum => hfits (Nat.le_of_add_right_le hsum)
    rw [checked, checked, if_neg hfits, if_neg hlarge, Option.bind_none]

/-- A checked sum is the exact sum where that fits. -/
theorem checkedAdd_of_le {a b : Nat} (hfits : a + b ≤ maxSize) : checkedAdd a b = some (a + b) :=
  checked_of_le hfits

/-- There is no checked sum where the exact one does not fit. -/
theorem checkedAdd_of_lt {a b : Nat} (hlarge : maxSize < a + b) : checkedAdd a b = none :=
  if_neg (Nat.not_le_of_lt hlarge)

/-- A checked product is the exact product where that fits. -/
theorem checkedMul_of_le {a b : Nat} (hfits : a * b ≤ maxSize) : checkedMul a b = some (a * b) :=
  checked_of_le hfits

/-- There is no checked product where the exact one does not fit. -/
theorem checkedMul_of_lt {a b : Nat} (hlarge : maxSize < a * b) : checkedMul a b = none :=
  if_neg (Nat.not_le_of_lt hlarge)

end BinaryRecord.Size
