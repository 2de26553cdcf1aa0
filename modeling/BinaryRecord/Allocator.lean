import BinaryRecord.Size

/-!
# Memory for fields

The fields of a format are put into one list, which asks for memory before it grows by a run of
them. What it is granted is not up to the format. An `Allocator` decides it, and all that is taken
for granted is that no list may grow by `2^60` fields at once. `Allocator.generous` refuses only
what would make a list longer than a list can be.
-/

namespace BinaryRecord

/-- What memory there is for a list of fields. -/
structure Allocator where
  /-- Whether a list that holds `held` fields may grow by `count` fields at once. -/
  grants : (held count : Nat) → Bool
  /-- No list may grow by `2^60` fields at once. -/
  grants_of_huge : ∀ held count, 2^(60 : Nat) ≤ count → grants held count = false

namespace Allocator

/-- The most fields that a list can hold: the description of a field takes 24 bytes, and those of a
list must stay below `2^63` bytes. -/
def maxFields : Nat := (2^(63 : Nat) - 1) / 24

/-- The allocator that refuses only what no list can hold. A list that does not grow asks for
nothing. -/
def generous : Allocator where
  grants held count := count == 0 || decide (held + count ≤ maxFields)
  grants_of_huge held count hhuge := by
    have hmost : maxFields < 2^(60 : Nat) := by decide
    have hcount : count ≠ 0 := by omega
    have hlarge : ¬ held + count ≤ maxFields := by omega
    simp [hcount, hlarge]

/-- What is granted does not depend on how many fields a list holds. -/
def IgnoresHeld (allocator : Allocator) : Prop :=
  ∀ held other count, allocator.grants held count = allocator.grants other count

/-- Only how many fields are asked for at once is limited. -/
example : IgnoresHeld
    ⟨fun _ count => decide (count < 2^(60 : Nat)), fun _ _ hhuge => by simpa using hhuge⟩ :=
  fun _ _ _ => rfl

/-- What a list is granted, a list that holds fewer fields is granted, too. -/
def FavorsShorter (allocator : Allocator) : Prop :=
  ∀ held more count, allocator.grants (held + more) count = true →
    allocator.grants held count = true

/-- It is all the same whether a list grows by `count` fields at once or by one after the other. -/
def GrantsOneByOne (allocator : Allocator) (count : Nat) : Prop :=
  ∀ held, allocator.grants held count = true ↔
    ∀ i < count, allocator.grants (held + i) 1 = true

/-- A list that holds fewer fields has more room left. -/
theorem generous_favorsShorter : generous.FavorsShorter := by
  intro held more count
  simp only [generous, Bool.or_eq_true, beq_iff_eq, decide_eq_true_eq]
  omega

/-- A list has room for fields when it has room for the last of them. -/
theorem generous_grantsOneByOne (count : Nat) : generous.GrantsOneByOne count := by
  intro held
  simp only [generous, Bool.or_eq_true, beq_iff_eq, decide_eq_true_eq]
  constructor
  · omega
  · intro hsingle
    by_cases hzero : count = 0
    · exact .inl hzero
    · have hlast := hsingle (count - 1) (by omega)
      omega

end Allocator

end BinaryRecord
