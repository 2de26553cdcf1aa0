import BinaryRecord.Proofs.Layout.Order

/-!
# Layouts in exact arithmetic

`placement` is the layout of fields as numbers, without a largest size. Its fields follow one
another (`inOrder_placement`). A layout is computed exactly when the size of the placement is no
larger than the largest one, and then is the placement (`computeFrom_eq`), since every number on the
way is at most the size in the end.

A placement can be cut between any two fields (`placement_append`). A later start never makes the
record shorter (`size_placement_mono`), and a start that is later by a multiple of all units shifts
the whole placement (`placement_add`).
-/

namespace BinaryRecord.Layout

/-! ## Rounding up -/

/-- The least multiple of `unit` at or after `offset`. -/
def roundUp (offset unit : Nat) : Nat :=
  if offset % unit = 0 then offset else offset + (unit - offset % unit)

section RoundUp

variable {offset other unit : Nat}

/-- Rounding up never goes back. -/
theorem le_roundUp (offset unit : Nat) : offset ≤ roundUp offset unit := by
  unfold roundUp
  split <;> omega

/-- Rounding up gives a multiple. -/
theorem dvd_roundUp (hunit : 0 < unit) (offset : Nat) : unit ∣ roundUp offset unit := by
  unfold roundUp
  split
  case isTrue hmultiple => exact Nat.dvd_of_mod_eq_zero hmultiple
  case isFalse =>
    have hlt := Nat.mod_lt offset hunit
    have hsum : offset + (unit - offset % unit) = unit * (offset / unit) + unit := by
      have hdivision := Nat.div_add_mod offset unit
      omega
    rw [hsum]
    exact Nat.dvd_add (Nat.dvd_mul_right _ _) (Nat.dvd_refl _)

/-- Rounding up gives the least of the multiples that are no smaller. -/
theorem roundUp_le (hle : offset ≤ other) (hdvd : unit ∣ other) : roundUp offset unit ≤ other := by
  unfold roundUp
  split
  case isTrue => exact hle
  case isFalse hrest =>
    obtain ⟨k, rfl⟩ := hdvd
    have hdivision := Nat.div_add_mod offset unit
    have hquotient : offset / unit < k := by
      by_contra hge
      have hmul := Nat.mul_le_mul_left unit (Nat.not_lt.mp hge)
      omega
    have hmul := Nat.mul_le_mul_left unit hquotient
    rw [Nat.mul_succ] at hmul
    omega

/-- Rounding up keeps the order. -/
theorem roundUp_mono (hle : offset ≤ other) (unit : Nat) :
    roundUp offset unit ≤ roundUp other unit := by
  rcases Nat.eq_zero_or_pos unit with rfl | hunit
  · simpa [roundUp] using hle
  · exact roundUp_le (Nat.le_trans hle (le_roundUp _ _)) (dvd_roundUp hunit _)

/-- A multiple can be added before or after rounding up. -/
theorem roundUp_add (hdvd : unit ∣ other) (offset : Nat) :
    roundUp (other + offset) unit = other + roundUp offset unit := by
  have hrest : (other + offset) % unit = offset % unit := by
    rw [Nat.add_mod, Nat.mod_eq_zero_of_dvd hdvd, Nat.zero_add, Nat.mod_mod]
  rw [roundUp, roundUp, hrest]
  split <;> omega

end RoundUp

/-! ## Placements -/

/-- Where a field starts when the fields before it end at `cursor`, whatever sizes there are. -/
def exactStart (mode : Mode) (cursor : Nat) (field : Field) : Nat :=
  if mode.aligned && decide (1 < field.unitSize) then roundUp cursor field.unitSize else cursor

/-- The layout of fields that follow `cursor` bytes, whatever sizes there are. -/
def placement (mode : Mode) (cursor : Nat) : List Field → Layout
  | [] => ⟨[], cursor⟩
  | field :: fields =>
    let offset := exactStart mode cursor field
    let rest := placement mode (offset + field.totalSize) fields
    ⟨offset :: rest.offsets, rest.size⟩

/-- The layout with all offsets, and the size, larger by a distance. -/
def shift (distance : Nat) (layout : Layout) : Layout :=
  ⟨layout.offsets.map (distance + ·), distance + layout.size⟩

variable {mode : Mode} {field : Field} {fields others : List Field} {layout : Layout}
  {cursor later distance : Nat}

/-- A field starts at its cursor or later. -/
theorem le_exactStart (mode : Mode) (cursor : Nat) (field : Field) :
    cursor ≤ exactStart mode cursor field := by
  unfold exactStart
  split
  · exact le_roundUp _ _
  · exact Nat.le_refl _

/-- A field that is not aligned starts at its cursor. -/
theorem exactStart_of_not_aligned (h : ¬ (mode.aligned = true ∧ 1 < field.unitSize)) :
    exactStart mode cursor field = cursor :=
  if_neg (by simpa using h)

/-- A later cursor never lets a field start earlier. -/
theorem exactStart_mono (hle : cursor ≤ later) (mode : Mode) (field : Field) :
    exactStart mode cursor field ≤ exactStart mode later field := by
  unfold exactStart
  split
  · exact roundUp_mono hle _
  · exact hle

/-- Where a field is aligned to its unit, a cursor that is later by a multiple of it shifts the
field. -/
theorem exactStart_add (hdvd : mode.aligned = true → field.unitSize ∣ distance) (cursor : Nat) :
    exactStart mode (distance + cursor) field = distance + exactStart mode cursor field := by
  unfold exactStart
  split
  case isTrue haligned =>
    rw [Bool.and_eq_true] at haligned
    exact roundUp_add (hdvd haligned.1) cursor
  case isFalse => rfl

/-- An offset is rounded up to the exact one, where that fits. -/
theorem alignUp_eq {offset : Nat} (hoffset : offset ≤ Size.maxSize) (unit : Nat) :
    alignUp offset unit = if roundUp offset unit ≤ Size.maxSize then .ok (roundUp offset unit)
      else .error .sizeOverflow := by
  by_cases hmultiple : offset % unit = 0
  · have hexact : roundUp offset unit = offset := if_pos hmultiple
    rw [alignUp, if_pos hmultiple, hexact, if_pos hoffset]
  · have hexact : roundUp offset unit = offset + (unit - offset % unit) := if_neg hmultiple
    rw [alignUp, if_neg hmultiple, hexact]
    by_cases hfits : offset + (unit - offset % unit) ≤ Size.maxSize
    · simp only [Size.checkedAdd_of_le hfits, if_pos hfits]
    · simp only [Size.checkedAdd_of_lt (Nat.lt_of_not_le hfits), if_neg hfits]

/-- The start that is computed is the exact one, where that fits. -/
theorem start_eq (hcursor : cursor ≤ Size.maxSize) : start mode cursor field =
    if exactStart mode cursor field ≤ Size.maxSize then .ok (exactStart mode cursor field)
    else .error .sizeOverflow := by
  unfold start exactStart
  by_cases haligned : (mode.aligned && decide (1 < field.unitSize)) = true
  · simp only [if_pos haligned, alignUp_eq hcursor]
  · simp only [if_neg haligned, if_pos hcursor]

/-- A placement has an offset for each field, and its fields follow one another from the cursor on.
-/
theorem inOrder_placement (mode : Mode) (cursor : Nat) (fields : List Field) :
    (placement mode cursor fields).offsets.length = fields.length ∧
      InOrder (placement mode cursor fields).size cursor
        (fields.zip (placement mode cursor fields).offsets) := by
  induction fields generalizing cursor with
  | nil => exact ⟨rfl, .nil (Nat.le_refl cursor)⟩
  | cons field fields ih =>
    obtain ⟨hlength, horder⟩ := ih (exactStart mode cursor field + field.totalSize)
    exact ⟨congrArg (· + 1) hlength, .cons (le_exactStart mode cursor field) horder⟩

/-- The record ends at the cursor or later. -/
theorem le_size_placement (mode : Mode) (cursor : Nat) (fields : List Field) :
    cursor ≤ (placement mode cursor fields).size :=
  (inOrder_placement mode cursor fields).2.cursor_le

/-- The layout that is computed is the exact one, where its size fits. -/
theorem computeFrom_eq (hcursor : cursor ≤ Size.maxSize) : computeFrom mode cursor fields =
    if (placement mode cursor fields).size ≤ Size.maxSize then .ok (placement mode cursor fields)
    else .error .sizeOverflow := by
  induction fields generalizing cursor with
  | nil => exact (if_pos hcursor).symm
  | cons field fields ih =>
    rw [computeFrom, start_eq hcursor, placement]
    generalize exactStart mode cursor field = offset
    have hsize := le_size_placement mode (offset + field.totalSize) fields
    by_cases hlast : (placement mode (offset + field.totalSize) fields).size ≤ Size.maxSize
    · -- Where the size in the end fits, so does every step.
      have hstart : offset ≤ Size.maxSize := by omega
      have hnext : offset + field.totalSize ≤ Size.maxSize := by omega
      simp only [if_pos hstart, bind, Except.bind, Size.checkedAdd_of_le hnext, ih hnext,
        if_pos hlast]
      rfl
    · rw [if_neg hlast]
      by_cases hstart : offset ≤ Size.maxSize
      · by_cases hnext : offset + field.totalSize ≤ Size.maxSize
        · simp only [if_pos hstart, bind, Except.bind, Size.checkedAdd_of_le hnext, ih hnext,
            if_neg hlast]
        · simp only [if_pos hstart, bind, Except.bind,
            Size.checkedAdd_of_lt (Nat.lt_of_not_le hnext)]
      · rw [if_neg hstart]
        rfl

/-- A layout is computed just where it is the exact one and its size fits. -/
theorem computeFrom_eq_ok_iff (hcursor : cursor ≤ Size.maxSize) :
    computeFrom mode cursor fields = .ok layout ↔
      placement mode cursor fields = layout ∧ layout.size ≤ Size.maxSize := by
  rw [computeFrom_eq hcursor]
  constructor
  · intro h
    split at h
    case isTrue hfits =>
      obtain rfl := Except.ok.inj h
      exact ⟨rfl, hfits⟩
    case isFalse => contradiction
  · rintro ⟨rfl, hfits⟩
    rw [if_pos hfits]

/-- A layout from a cursor that is a size has a size, too. -/
theorem size_le_of_computeFrom (h : computeFrom mode cursor fields = .ok layout)
    (hcursor : cursor ≤ Size.maxSize) : layout.size ≤ Size.maxSize :=
  ((computeFrom_eq_ok_iff hcursor).mp h).2

/-- A layout that is computed is the exact one. -/
theorem eq_placement_of_compute (h : compute mode fields = .ok layout) :
    layout = placement mode 0 fields :=
  ((computeFrom_eq_ok_iff (Nat.zero_le _)).mp h).1.symm

/-- A layout from a cursor that is a size has an offset for each field, and they follow one another
from there. -/
theorem inOrder_of_computeFrom (h : computeFrom mode cursor fields = .ok layout)
    (hcursor : cursor ≤ Size.maxSize) :
    layout.offsets.length = fields.length ∧
      InOrder layout.size cursor (fields.zip layout.offsets) := by
  obtain ⟨rfl, -⟩ := (computeFrom_eq_ok_iff hcursor).mp h
  exact inOrder_placement mode cursor fields

/-- A placement goes on from where the first of its fields end. -/
theorem placement_append (mode : Mode) (cursor : Nat) (fields others : List Field) :
    placement mode cursor (fields ++ others) =
      ⟨(placement mode cursor fields).offsets ++
        (placement mode (placement mode cursor fields).size others).offsets,
        (placement mode (placement mode cursor fields).size others).size⟩ := by
  induction fields generalizing cursor with
  | nil => rfl
  | cons field fields ih =>
    rw [List.cons_append, placement, ih]
    rfl

/-- A later cursor never makes the record shorter. -/
theorem size_placement_mono (hle : cursor ≤ later) (mode : Mode) (fields : List Field) :
    (placement mode cursor fields).size ≤ (placement mode later fields).size := by
  induction fields generalizing cursor later with
  | nil => exact hle
  | cons field fields ih => exact ih (Nat.add_le_add_right (exactStart_mono hle mode field) _)

/-- A cursor that is later by a multiple of all units shifts the placement, and any cursor does
where fields are not aligned. -/
theorem placement_add
    (hdvd : ∀ field ∈ fields, mode.aligned = true → field.unitSize ∣ distance) (cursor : Nat) :
    placement mode (distance + cursor) fields = (placement mode cursor fields).shift distance := by
  induction fields generalizing cursor with
  | nil => rfl
  | cons field fields ih =>
    obtain ⟨hfirst, hrest⟩ := List.forall_mem_cons.mp hdvd
    rw [placement, exactStart_add hfirst, Nat.add_assoc, ih hrest]
    rfl

/-- The layout of two lists of fields is that of the first, and behind it that of the second, which
can be laid out alone, too. Behind a multiple of all units, or without alignment, it is then only
shifted. -/
theorem exists_of_compute_append {first : Layout} (hfirst : compute mode fields = .ok first)
    (h : compute mode (fields ++ others) = .ok layout) :
    ∃ rest second, computeFrom mode first.size others = .ok rest ∧
      compute mode others = .ok second ∧ layout = ⟨first.offsets ++ rest.offsets, rest.size⟩ ∧
      ((∀ field ∈ others, mode.aligned = true → field.unitSize ∣ first.size) →
        rest = second.shift first.size) := by
  obtain rfl := eq_placement_of_compute hfirst
  have hsize := size_le_of_computeFrom h (Nat.zero_le _)
  obtain rfl := eq_placement_of_compute h
  rw [placement_append] at hsize ⊢
  -- The size of the whole bounds the sizes of the parts.
  have hstart : (placement mode 0 fields).size ≤ Size.maxSize :=
    Nat.le_trans (le_size_placement _ _ _) hsize
  have halone : (placement mode 0 others).size ≤ Size.maxSize :=
    Nat.le_trans (size_placement_mono (Nat.zero_le _) _ _) hsize
  refine ⟨_, placement mode 0 others, ?_, ?_, rfl, fun hdvd => ?_⟩
  · rw [computeFrom_eq hstart, if_pos hsize]
  · rw [compute, computeFrom_eq (Nat.zero_le _), if_pos halone]
  · exact placement_add hdvd 0

end BinaryRecord.Layout
