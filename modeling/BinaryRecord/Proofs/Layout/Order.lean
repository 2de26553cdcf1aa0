import BinaryRecord.Layout
import BinaryRecord.Proofs.Outcome

/-!
# The order of fields in a layout

The fields of a layout stand one after the other: each starts where the one before it has ended, or
later, and the last ends within the record. `InOrder` says so of a list of places. Whatever is left
out of such a list, the rest of it stays in order, and no byte belongs to two of its places.
-/

namespace BinaryRecord.Layout

/-- The places follow one another from `cursor` on and end within `size` bytes. -/
inductive InOrder (size : Nat) : Nat → List (Field × Nat) → Prop
  | nil {cursor : Nat} (hsize : cursor ≤ size) : InOrder size cursor []
  | cons {cursor offset : Nat} {field : Field} {places : List (Field × Nat)}
      (hstart : cursor ≤ offset) (hrest : InOrder size (offset + field.totalSize) places) :
      InOrder size cursor ((field, offset) :: places)

/-- A byte belongs to one of the places. -/
def Covers (places : List (Field × Nat)) (i : Nat) : Prop :=
  ∃ place ∈ places, place.2 ≤ i ∧ i < place.2 + place.1.totalSize

instance (places : List (Field × Nat)) (i : Nat) : Decidable (Covers places i) :=
  inferInstanceAs (Decidable (∃ place ∈ places, _))

/-- A byte belongs to the first place or to one of the others. -/
theorem covers_cons_iff {field : Field} {offset i : Nat} {places : List (Field × Nat)} :
    Covers ((field, offset) :: places) i ↔
      (offset ≤ i ∧ i < offset + field.totalSize) ∨ Covers places i := by
  simp [Covers]

/-- Bytes of some of the places are bytes of the places. -/
theorem Covers.of_subset {places others : List (Field × Nat)} {i : Nat} (h : Covers places i)
    (hsubset : places ⊆ others) : Covers others i := by
  obtain ⟨place, hplace, hbounds⟩ := h
  exact ⟨place, hsubset hplace, hbounds⟩

namespace InOrder

variable {size cursor : Nat} {places : List (Field × Nat)}

/-- What follows a cursor ends within the record, and so does the cursor. -/
theorem cursor_le (h : InOrder size cursor places) : cursor ≤ size := by
  induction h with
  | nil hsize => exact hsize
  | cons hstart _ ih => omega

/-- What follows a cursor follows any earlier one. -/
theorem of_le {earlier : Nat} (h : InOrder size cursor places) (hle : earlier ≤ cursor) :
    InOrder size earlier places := by
  cases h with
  | nil hsize => exact .nil (Nat.le_trans hle hsize)
  | cons hstart hrest => exact .cons (Nat.le_trans hle hstart) hrest

/-- Places that are left out change nothing for the others. -/
theorem filter (h : InOrder size cursor places) (p : Field × Nat → Bool) :
    InOrder size cursor (places.filter p) := by
  induction h with
  | nil hsize => exact .nil hsize
  | cons hstart hrest ih =>
    rw [List.filter_cons]
    split
    · exact .cons hstart ih
    · -- Leaving the first place out is as if the cursor had not moved.
      exact ih.of_le (by omega)

/-- The first of the places are in order, too. -/
theorem take (h : InOrder size cursor places) (n : Nat) : InOrder size cursor (places.take n) := by
  induction h generalizing n with
  | nil hsize => simpa using InOrder.nil hsize
  | cons hstart hrest ih =>
    cases n with
    | zero => exact .nil (Nat.le_trans hstart (Nat.le_trans (Nat.le_add_right _ _) hrest.cursor_le))
    | succ n => exact .cons hstart (ih n)

/-- No place has bytes before the cursor. -/
theorem not_covers_of_lt (h : InOrder size cursor places) {i : Nat} (hi : i < cursor) :
    ¬ Covers places i := by
  induction h with
  | nil => simp [Covers]
  | cons hstart _ ih =>
    rw [covers_cons_iff]
    -- The cursor behind the first place is no smaller, so that the hypothesis goes on to hold.
    rintro (hfirst | hrest)
    · omega
    · exact ih (by omega) hrest

/-- Every place lies between the cursor and the end of the record. -/
theorem bounds_of_mem (h : InOrder size cursor places) {place : Field × Nat}
    (hplace : place ∈ places) : cursor ≤ place.2 ∧ place.2 + place.1.totalSize ≤ size := by
  induction h with
  | nil => exact absurd hplace List.not_mem_nil
  | cons hstart hrest ih =>
    rcases List.mem_cons.mp hplace with rfl | hplace
    · exact ⟨hstart, hrest.cursor_le⟩
    · obtain ⟨hfirst, hlast⟩ := ih hplace
      exact ⟨by omega, hlast⟩

end InOrder

end BinaryRecord.Layout
