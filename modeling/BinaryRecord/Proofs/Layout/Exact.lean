import BinaryRecord.Proofs.Layout.Placement

/-!
# Layouts are exact

The exact layout of fields is described apart from how it is computed: `IsPlacement` puts the first
field at the cursor, or at the least multiple of its unit from there on where it is aligned, and
goes on behind it, in the natural numbers. There is one such layout for every list of fields and
every mode. `compute_exact` says that it is what `compute` gives where its size is one that fits,
that `compute` fails exactly where it does not, and that the layout is tight (`IsTight`): fields
follow one another without overlap, with gaps below a unit or, where fields are not aligned, without
any.
-/

namespace BinaryRecord.Layout

variable {mode : Mode} {field : Field} {fields : List Field} {layout : Layout} {cursor offset : Nat}

/-! ## The exact layout -/

/-- Where a field stands when the fields before it end at `cursor`. In an aligned mode a field with
a unit of several bytes stands at the least multiple of its unit from there on, and any other field
right there. -/
def StandsAt (mode : Mode) (cursor : Nat) (field : Field) (offset : Nat) : Prop :=
  if mode.aligned = true ∧ 1 < field.unitSize then
    IsLeast {multiple | cursor ≤ multiple ∧ field.unitSize ∣ multiple} offset
  else offset = cursor

/-- The layout of fields from a cursor on, each behind the one before it. Its size is where the last
of them ends. -/
inductive IsPlacement (mode : Mode) : Nat → List Field → Layout → Prop
  | nil (cursor : Nat) : IsPlacement mode cursor [] ⟨[], cursor⟩
  | cons {cursor offset : Nat} {field : Field} {fields : List Field} {rest : Layout}
      (hstart : StandsAt mode cursor field offset)
      (hrest : IsPlacement mode (offset + field.totalSize) fields rest) :
      IsPlacement mode cursor (field :: fields) ⟨offset :: rest.offsets, rest.size⟩

/-- Rounding up gives the least multiple from an offset on. -/
theorem isLeast_roundUp {unit : Nat} (hunit : 0 < unit) (offset : Nat) :
    IsLeast {multiple | offset ≤ multiple ∧ unit ∣ multiple} (roundUp offset unit) :=
  ⟨⟨le_roundUp _ _, dvd_roundUp hunit _⟩, fun _ hmultiple => roundUp_le hmultiple.1 hmultiple.2⟩

/-- The exact start of a field is where it stands, and it stands nowhere else. -/
theorem standsAt_iff :
    StandsAt mode cursor field offset ↔ offset = exactStart mode cursor field := by
  unfold StandsAt exactStart
  by_cases haligned : mode.aligned = true ∧ 1 < field.unitSize
  · have hleast := isLeast_roundUp (Nat.zero_lt_of_lt haligned.2) cursor
    rw [if_pos haligned, if_pos (by simpa using haligned)]
    constructor
    · exact fun h => h.unique hleast
    · rintro rfl
      exact hleast
  · rw [if_neg haligned, if_neg (by simpa using haligned)]

/-- The placement is the one exact layout. -/
theorem isPlacement_iff : IsPlacement mode cursor fields layout ↔
    layout = placement mode cursor fields := by
  constructor
  · intro h
    induction h with
    | nil => rfl
    | cons hstart _ ih =>
      obtain rfl := standsAt_iff.mp hstart
      rw [placement, ← ih]
  · rintro rfl
    induction fields generalizing cursor with
    | nil => exact .nil cursor
    | cons field fields ih => exact .cons (standsAt_iff.mpr rfl) ih

/-! ## Gaps -/

namespace StandsAt

/-- A field stands at the cursor or behind it. -/
theorem le (h : StandsAt mode cursor field offset) : cursor ≤ offset := by
  rw [standsAt_iff.mp h]
  exact le_exactStart mode cursor field

/-- Where nothing is aligned, there is no gap. -/
theorem eq_of_unaligned (h : StandsAt mode cursor field offset) (haligned : mode.aligned = false) :
    offset = cursor := by
  unfold StandsAt at h
  rwa [if_neg (by simp [haligned])] at h

/-- A gap is smaller than a unit. -/
theorem gap_lt (h : StandsAt mode cursor field offset) :
    offset - cursor < max 1 field.unitSize := by
  unfold StandsAt at h
  split at h
  case isTrue haligned =>
    -- Otherwise the multiple before this one would be behind the cursor, too.
    obtain ⟨⟨hle, hdvd⟩, hleast⟩ := h
    by_contra hgap
    have hearlier : offset ≤ offset - field.unitSize :=
      hleast ⟨by omega, Nat.dvd_sub hdvd (Nat.dvd_refl _)⟩
    omega
  case isFalse => omega

/-- The first field stands at the start of the record, which is a multiple of every unit. -/
theorem eq_zero (h : StandsAt mode 0 field offset) : offset = 0 := by
  unfold StandsAt at h
  split at h
  · exact Nat.le_zero.mp (h.2 ⟨Nat.le_refl 0, Nat.dvd_zero _⟩)
  · exact h

end StandsAt

/-! ## What holds of exact layouts -/

/-- The first field stands where the cursor says, and each other one where the one before it ends.
-/
theorem IsPlacement.isChain (h : IsPlacement mode cursor fields layout) :
    (fields.zip layout.offsets).IsChain fun place next =>
      StandsAt mode (place.2 + place.1.totalSize) next.1 next.2 := by
  induction h with
  | nil => exact .nil
  | cons _ hrest ih =>
    cases hrest with
    | nil => exact .singleton _
    | cons hnext => exact .cons_cons hnext ih

/-- The fields of an exact layout follow one another within its size, and each has an offset. -/
theorem IsPlacement.inOrder (h : IsPlacement mode cursor fields layout) :
    layout.offsets.length = fields.length ∧
      InOrder layout.size cursor (fields.zip layout.offsets) := by
  obtain rfl := isPlacement_iff.mp h
  exact inOrder_placement mode cursor fields

/-- The size is where the last field ends, or the cursor where there are no fields. -/
theorem IsPlacement.size_eq (h : IsPlacement mode cursor fields layout) :
    layout.size = ((fields.zip layout.offsets).getLast?.map
      fun place => place.2 + place.1.totalSize).getD cursor := by
  induction h with
  | nil => rfl
  | @cons cursor offset field fields rest _ hrest ih =>
    -- The last of the others is the last of all, unless there are no others.
    rw [List.zip_cons_cons, List.getLast?_cons, ih]
    cases (fields.zip rest.offsets).getLast? with
    | none => rfl
    | some place => rfl

/-- Without alignment the size grows by the sizes of the fields and by nothing else. -/
theorem IsPlacement.size_eq_add_sum (h : IsPlacement mode cursor fields layout)
    (haligned : mode.aligned = false) :
    layout.size = cursor + (fields.map (·.totalSize)).sum := by
  induction h with
  | nil => rfl
  | cons hstart _ ih =>
    obtain rfl := hstart.eq_of_unaligned haligned
    rw [ih, List.map_cons, List.sum_cons, Nat.add_assoc]

/-- Places that follow one another do not overlap: each ends before any later one starts. -/
theorem InOrder.pairwise {size : Nat} {places : List (Field × Nat)}
    (h : InOrder size cursor places) :
    places.Pairwise fun place later => place.2 + place.1.totalSize ≤ later.2 := by
  induction h with
  | nil => exact .nil
  | cons _ hrest ih => exact .cons (fun later hlater => (hrest.bounds_of_mem hlater).1) ih

/-- The fields of a record stand as close to one another as their alignment lets them. -/
structure IsTight (mode : Mode) (fields : List Field) (layout : Layout) : Prop where
  /-- Each field has an offset. -/
  length_offsets : layout.offsets.length = fields.length
  /-- Offsets never decrease. -/
  offsets_le : layout.offsets.Pairwise (· ≤ ·)
  /-- Every field ends within the record. -/
  end_le_size : ∀ place ∈ fields.zip layout.offsets, place.2 + place.1.totalSize ≤ layout.size
  /-- Every field ends where the next one stands, or before. -/
  end_le_next : (fields.zip layout.offsets).IsChain fun place next =>
    place.2 + place.1.totalSize ≤ next.2
  /-- The gap in front of a field is smaller than its unit, and empty where a unit is no more than a
  byte. -/
  gap_lt : (fields.zip layout.offsets).IsChain fun place next =>
    next.2 - (place.2 + place.1.totalSize) < max 1 next.1.unitSize
  /-- Where fields are not aligned, there are no gaps. -/
  gap_eq_zero : mode.aligned = false → (fields.zip layout.offsets).IsChain fun place next =>
    next.2 - (place.2 + place.1.totalSize) = 0
  /-- The first field stands at the start of the record. -/
  first_eq_zero : ∀ offset, layout.offsets.head? = some offset → offset = 0
  /-- The record ends where its last field does, and is empty if it has none. -/
  size_eq_end : layout.size = ((fields.zip layout.offsets).getLast?.map
    fun place => place.2 + place.1.totalSize).getD 0
  /-- Where fields are not aligned, the size is the sum of theirs. -/
  size_eq_sum : mode.aligned = false → layout.size = (fields.map (·.totalSize)).sum

/-- An exact layout of a record is tight. -/
theorem IsPlacement.isTight (h : IsPlacement mode 0 fields layout) :
    IsTight mode fields layout := by
  obtain ⟨hlength, horder⟩ := h.inOrder
  refine ⟨hlength, ?_, fun place hplace => (horder.bounds_of_mem hplace).2,
    h.isChain.imp fun _ _ hstands => hstands.le, h.isChain.imp fun _ _ hstands => hstands.gap_lt,
    fun haligned => h.isChain.imp fun place next hstands => ?_, ?_, h.size_eq, fun haligned => ?_⟩
  · -- A field starts before it ends, and so before any later one starts.
    have hoffsets : layout.offsets = (fields.zip layout.offsets).map (·.2) :=
      (List.map_snd_zip (Nat.le_of_eq hlength)).symm
    rw [hoffsets, List.pairwise_map]
    exact horder.pairwise.imp fun hends => Nat.le_trans (Nat.le_add_right _ _) hends
  · rw [hstands.eq_of_unaligned haligned, Nat.sub_self]
  · intro offset hfirst
    cases h with
    | nil => simp at hfirst
    | cons hstart => rw [← Option.some.inj hfirst, hstart.eq_zero]
  · rw [h.size_eq_add_sum haligned, Nat.zero_add]

/-- There is exactly one exact layout of the fields of a record, and it is tight. It is what is
computed, unless its size does not fit, which is when there is an error. -/
theorem compute_exact (mode : Mode) (fields : List Field) : ∃ exact,
    IsPlacement mode 0 fields exact ∧ (∀ other, IsPlacement mode 0 fields other → other = exact) ∧
      (compute mode fields = .error .sizeOverflow ↔ Size.maxSize < exact.size) ∧
      (exact.size ≤ Size.maxSize → compute mode fields = .ok exact) ∧
      IsTight mode fields exact := by
  have hexact : IsPlacement mode 0 fields (placement mode 0 fields) := isPlacement_iff.mpr rfl
  have hcompute : compute mode fields = if (placement mode 0 fields).size ≤ Size.maxSize then
      .ok (placement mode 0 fields) else .error .sizeOverflow := computeFrom_eq (Nat.zero_le _)
  refine ⟨placement mode 0 fields, hexact, fun other => isPlacement_iff.mp, ?_, fun hfits => ?_,
    hexact.isTight⟩
  · rw [hcompute]
    split <;> simp <;> omega
  · rw [hcompute, if_pos hfits]

/-- An odd unit in an aligned mode, and a field that is empty. -/
example : compute .nativeAligned
    [⟨'B', .unsigned, 1, 1⟩, ⟨'s', .bytes, 3, 6⟩, ⟨'H', .unsigned, 2, 0⟩, ⟨'I', .unsigned, 4, 4⟩] =
      .ok ⟨[0, 3, 10, 12], 16⟩ := by
  decide

end BinaryRecord.Layout
