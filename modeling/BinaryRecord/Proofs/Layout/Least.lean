import BinaryRecord.Proofs.Layout.Exact

/-!
# The least of all legal layouts

Offsets are legal for the fields of a record (`IsLegal`) when each field starts at the end of the
one before it or later, and an aligned one at a multiple of its unit. What is computed is legal and
the least of all that is: no field could start earlier, and the record could not be smaller
(`IsLeastLayout`). `compute_least` says so, and that there is an error only where every legal layout
ends beyond the largest size.

A legal layout that is taken from its first field on never falls behind the placement
(`IsLegal.placement_le`). The placement puts a field at the first multiple of its unit that is no
earlier than the end of the field before it, and so never behind a legal offset.
-/

namespace BinaryRecord.Layout

variable {mode : Mode} {field : Field} {fields : List Field} {layout : Layout}
  {offsets : List Nat} {places : List (Field × Nat)} {cursor later offset : Nat}

/-! ## Legal offsets -/

/-- Offsets at which the fields of a record may stand. -/
structure IsLegal (mode : Mode) (fields : List Field) (offsets : List Nat) : Prop where
  /-- Each field has an offset. -/
  length_eq : offsets.length = fields.length
  /-- A field starts where the one before it ends, or later. -/
  end_le_next : (fields.zip offsets).IsChain fun place next =>
    place.2 + place.1.totalSize ≤ next.2
  /-- In an aligned mode a field with a unit of several bytes stands at a multiple of it. -/
  dvd : mode.aligned = true → ∀ place ∈ fields.zip offsets, 1 < place.1.unitSize →
    place.1.unitSize ∣ place.2

/-- Where the last of the places ends, or the cursor where there is none. -/
def lastEnd (cursor : Nat) (places : List (Field × Nat)) : Nat :=
  (places.getLast?.map fun place => place.2 + place.1.totalSize).getD cursor

/-- The last end is that of the places behind the first, or of the first where it is alone. -/
theorem lastEnd_cons :
    lastEnd cursor ((field, offset) :: places) = lastEnd (offset + field.totalSize) places := by
  rw [lastEnd, lastEnd, List.getLast?_cons]
  cases places.getLast? <;> rfl

/-- A later cursor never makes the last end earlier. -/
theorem lastEnd_mono (hle : cursor ≤ later) (places : List (Field × Nat)) :
    lastEnd cursor places ≤ lastEnd later places := by
  unfold lastEnd
  cases places.getLast? with
  | none => exact hle
  | some place => exact Nat.le_refl _

namespace IsLegal

/-- Fields with legal offsets have them without the first of them, too. -/
theorem tail (h : IsLegal mode (field :: fields) (offset :: offsets)) :
    IsLegal mode fields offsets where
  length_eq := Nat.succ.inj h.length_eq
  end_le_next := h.end_le_next.tail
  dvd haligned place hplace := h.dvd haligned place (List.mem_cons_of_mem _ hplace)

/-- The field behind the first one starts where that ends, or later. -/
theorem end_le_head (h : IsLegal mode (field :: fields) (offset :: offsets)) :
    ∀ place ∈ (fields.zip offsets).head?, offset + field.totalSize ≤ place.2 :=
  (List.isChain_cons.mp h.end_le_next).1

/-- A field starts no later in the placement than at a legal offset from the cursor on. -/
theorem exactStart_le (h : IsLegal mode (field :: fields) (offset :: offsets))
    (hcursor : cursor ≤ offset) : exactStart mode cursor field ≤ offset := by
  unfold exactStart
  split
  case isTrue haligned =>
    obtain ⟨haligned, hunit⟩ := Bool.and_eq_true_iff.mp haligned
    have hdvd := h.dvd haligned (field, offset) List.mem_cons_self (of_decide_eq_true hunit)
    exact roundUp_le hcursor hdvd
  case isFalse => exact hcursor

/-- Where legal offsets start at the cursor or later, the placement from there on is nowhere behind
them, and neither is its end. -/
theorem placement_le (h : IsLegal mode fields offsets)
    (hcursor : ∀ place ∈ (fields.zip offsets).head?, cursor ≤ place.2) :
    List.Forall₂ (· ≤ ·) (placement mode cursor fields).offsets offsets ∧
      (placement mode cursor fields).size ≤ lastEnd cursor (fields.zip offsets) := by
  -- Where the placement is ahead, its cursor is not the end of a legal field, but never behind it.
  induction fields generalizing cursor offsets with
  | nil =>
    obtain rfl := List.length_eq_zero_iff.mp h.length_eq
    exact ⟨.nil, Nat.le_refl cursor⟩
  | cons field fields ih =>
    cases offsets with
    | nil =>
      have hlength := h.length_eq
      contradiction
    | cons offset offsets =>
      have hstart := h.exactStart_le (hcursor (field, offset) rfl)
      have hend := Nat.add_le_add_right hstart field.totalSize
      obtain ⟨hoffsets, hsize⟩ := ih h.tail fun place hplace =>
        Nat.le_trans hend (h.end_le_head place hplace)
      refine ⟨.cons hstart hoffsets, ?_⟩
      calc (placement mode cursor (field :: fields)).size
          ≤ lastEnd (exactStart mode cursor field + field.totalSize) (fields.zip offsets) := hsize
        _ ≤ lastEnd (offset + field.totalSize) (fields.zip offsets) := lastEnd_mono hend _
        _ = lastEnd cursor ((field :: fields).zip (offset :: offsets)) := lastEnd_cons.symm

end IsLegal

/-! ## The least layout -/

/-- A field that is aligned stands at a multiple of its unit. -/
theorem StandsAt.dvd (h : StandsAt mode cursor field offset) (haligned : mode.aligned = true)
    (hunit : 1 < field.unitSize) : field.unitSize ∣ offset := by
  unfold StandsAt at h
  rw [if_pos ⟨haligned, hunit⟩] at h
  exact h.1.2

/-- The offsets of an exact layout are legal. -/
theorem IsPlacement.isLegal (h : IsPlacement mode cursor fields layout) :
    IsLegal mode fields layout.offsets := by
  refine ⟨h.inOrder.1, h.isChain.imp fun _ _ hstands => hstands.le,
    fun haligned place hplace hunit => ?_⟩
  induction h with
  | nil => exact absurd hplace List.not_mem_nil
  | cons hstart _ ih =>
    rcases List.mem_cons.mp hplace with rfl | hplace
    · exact hstart.dvd haligned hunit
    · exact ih hplace

/-- A layout of a record of which no part can be any smaller. -/
structure IsLeastLayout (mode : Mode) (fields : List Field) (layout : Layout) : Prop where
  /-- The fields may stand at the offsets. -/
  isLegal : IsLegal mode fields layout.offsets
  /-- The record ends where its last field does. -/
  size_eq : layout.size = lastEnd 0 (fields.zip layout.offsets)
  /-- At no legal offsets does a field stand any earlier. -/
  offsets_le : ∀ other, IsLegal mode fields other →
    List.Forall₂ (· ≤ ·) layout.offsets other
  /-- At no legal offsets does the record end any earlier. -/
  size_le : ∀ other, IsLegal mode fields other → layout.size ≤ lastEnd 0 (fields.zip other)

/-- The exact layout of a record is the least one. -/
theorem IsPlacement.isLeastLayout (h : IsPlacement mode 0 fields layout) :
    IsLeastLayout mode fields layout := by
  have hlegal := h.isLegal
  have hsize := h.size_eq
  obtain rfl := isPlacement_iff.mp h
  refine ⟨hlegal, hsize, fun other hother => ?_, fun other hother => ?_⟩
  · exact (hother.placement_le fun place _ => Nat.zero_le place.2).1
  · exact (hother.placement_le fun place _ => Nat.zero_le place.2).2

/-- The fields of a record have a least layout, and it is what is computed, unless no legal layout
ends within the largest size, which is when there is an error. -/
theorem compute_least (mode : Mode) (fields : List Field) : ∃ least,
    IsLeastLayout mode fields least ∧
      (compute mode fields = .ok least ∨
        compute mode fields = .error .sizeOverflow ∧
          ∀ offsets, IsLegal mode fields offsets →
            Size.maxSize < lastEnd 0 (fields.zip offsets)) := by
  have hleast : IsLeastLayout mode fields (placement mode 0 fields) :=
    (isPlacement_iff.mpr rfl).isLeastLayout
  refine ⟨placement mode 0 fields, hleast, ?_⟩
  rw [compute, computeFrom_eq (Nat.zero_le _)]
  by_cases hfits : (placement mode 0 fields).size ≤ Size.maxSize
  · exact .inl (if_pos hfits)
  · refine .inr ⟨if_neg hfits, fun offsets hoffsets => ?_⟩
    exact Nat.lt_of_lt_of_le (Nat.not_le.mp hfits) (hleast.size_le offsets hoffsets)

end BinaryRecord.Layout
