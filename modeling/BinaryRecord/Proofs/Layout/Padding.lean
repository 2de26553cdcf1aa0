import BinaryRecord.Proofs.Layout.AnyOffsets
import BinaryRecord.Proofs.Layout.Least

/-!
# Padding

The padding in front of a field is read off the offsets of a layout, one step after these have been
computed. `AccountsForBytes` says that the two agree for every field of a record: every byte of it
belongs to a field or is padding, so that an offset is the sum of all that comes before it, and no
padding is larger than the field that follows it needs (`IsPadding`).

The paddings of places are the gaps between them (`gaps`), and the sums telescope whatever the
places are, as long as they follow one another. `accountsForBytes_of_compute` puts this together
with where the fields stand in a computed layout.
-/

namespace BinaryRecord.Layout

variable {mode : Mode} {field : Field} {fields : List Field} {layout : Layout}
  {place : Field × Nat} {places : List (Field × Nat)} {cursor offset size k : Nat}

/-! ## Gaps between places -/

/-- The gap in front of each of the places, where the first follows the cursor. -/
def gaps (cursor : Nat) : List (Field × Nat) → List Nat
  | [] => []
  | (field, offset) :: places => (offset - cursor) :: gaps (offset + field.totalSize) places

/-- There is a gap for each place, if only an empty one. -/
theorem length_gaps (cursor : Nat) (places : List (Field × Nat)) :
    (gaps cursor places).length = places.length := by
  induction places generalizing cursor with
  | nil => rfl
  | cons place places ih => exact congrArg (· + 1) (ih _)

/-- The gap of a place goes from the end of the place before it to its offset. -/
theorem getElem?_gaps (cursor : Nat) (places : List (Field × Nat)) (k : Nat) :
    (gaps cursor places)[k]? =
      places[k]?.map fun place => place.2 - lastEnd cursor (places.take k) := by
  induction places generalizing cursor k with
  | nil => rfl
  | cons place places ih =>
    cases k with
    | zero => rfl
    | succ k =>
      rw [gaps, List.getElem?_cons_succ, ih, List.getElem?_cons_succ, List.take_succ_cons,
        lastEnd_cons]

namespace InOrder

/-- Places that follow one another end after all their bytes and all gaps. -/
theorem lastEnd_eq (h : InOrder size cursor places) : lastEnd cursor places =
    cursor + (places.map (·.1.totalSize)).sum + (gaps cursor places).sum := by
  induction h with
  | nil => rfl
  | cons hstart _ ih =>
    rw [lastEnd_cons, ih, gaps, List.map_cons, List.sum_cons, List.sum_cons]
    dsimp only
    omega

/-- The offset of a place is what comes before it: the bytes of the places and the gaps, its own
included. -/
theorem offset_eq (h : InOrder size cursor places) (hplace : places[k]? = some place) :
    place.2 = cursor + ((places.take k).map (·.1.totalSize)).sum +
      ((gaps cursor places).take (k + 1)).sum := by
  induction h generalizing k with
  | nil => simp at hplace
  | @cons cursor offset field places hstart _ ih =>
    cases k with
    | zero =>
      obtain rfl := Option.some.inj hplace
      simp [gaps]
      omega
    | succ k =>
      rw [ih hplace, gaps, List.take_succ_cons, List.take_succ_cons, List.map_cons,
        List.sum_cons, List.sum_cons]
      dsimp only
      omega

end InOrder

/-! ## Paddings of a layout -/

/-- The padding that a field needs when the fields before it end at `cursor`. In an aligned mode, in
front of a field with a unit of several bytes, it is the least number of bytes that make the end a
multiple of the unit. There is none in front of any other field. -/
def IsPadding (mode : Mode) (cursor : Nat) (field : Field) (padding : Nat) : Prop :=
  if mode.aligned = true ∧ 1 < field.unitSize then
    IsLeast {count | field.unitSize ∣ cursor + count} padding
  else padding = 0

/-- A field stands behind the padding that it needs. -/
theorem StandsAt.isPadding (h : StandsAt mode cursor field offset) :
    IsPadding mode cursor field (offset - cursor) := by
  have hle := h.le
  unfold StandsAt at h
  unfold IsPadding
  split
  case isTrue haligned =>
    rw [if_pos haligned] at h
    obtain ⟨⟨-, hdvd⟩, hleast⟩ := h
    constructor
    · show field.unitSize ∣ cursor + (offset - cursor)
      rwa [Nat.add_sub_cancel' hle]
    · intro count hcount
      have hoffset : offset ≤ cursor + count := hleast ⟨Nat.le_add_right _ _, hcount⟩
      omega
  case isFalse haligned =>
    rw [if_neg haligned] at h
    omega

/-- Every field of an exact layout stands where the one before it has it. -/
theorem IsPlacement.standsAt (h : IsPlacement mode cursor fields layout)
    (hplace : (fields.zip layout.offsets)[k]? = some place) :
    StandsAt mode (lastEnd cursor ((fields.zip layout.offsets).take k)) place.1 place.2 := by
  induction h generalizing k with
  | nil => simp at hplace
  | cons hstart _ ih =>
    cases k with
    | zero =>
      obtain rfl := Option.some.inj hplace
      exact hstart
    | succ k =>
      rw [List.zip_cons_cons, List.take_succ_cons, lastEnd_cons]
      exact ih hplace

/-- The last of the first places is the one that comes before the next. -/
theorem lastEnd_take_succ (hplace : places[k]? = some place) :
    lastEnd cursor (places.take (k + 1)) = place.2 + place.1.totalSize := by
  rw [lastEnd, List.take_add_one, hplace, Option.toList_some, List.getLast?_concat]
  rfl

/-- Where an exact layout fits, the padding in front of a field is the gap between it and the one
before. -/
theorem IsPlacement.paddingBefore_eq (h : IsPlacement mode 0 fields layout)
    (hsize : layout.size ≤ Size.maxSize) (index : Nat) :
    layout.paddingBefore fields index = .ok (gaps 0 (fields.zip layout.offsets))[index]? := by
  obtain ⟨hlength, horder⟩ := h.inOrder
  rw [getElem?_gaps]
  cases hplace : (fields.zip layout.offsets)[index]? with
  | none =>
    rw [List.getElem?_eq_none_iff, List.length_zip, hlength, Nat.min_self] at hplace
    have hnone : layout.offsets[index]? = none := List.getElem?_eq_none (hlength ▸ hplace)
    rw [paddingBefore, hnone]
    rfl
  | some place =>
    have hoffset := (List.getElem?_zip_eq_some.mp hplace).2
    have hle := (h.standsAt hplace).le
    cases index with
    | zero =>
      rw [paddingBefore, hoffset]
      rfl
    | succ previous =>
      -- The end of the field before is no larger than the size, so that it fits.
      have hlt := (List.getElem?_eq_some_iff.mp hplace).1
      obtain ⟨before, hbefore⟩ : ∃ before, (fields.zip layout.offsets)[previous]? = some before :=
        ⟨_, List.getElem?_eq_getElem (Nat.lt_of_succ_lt hlt)⟩
      obtain ⟨hfield, hstart⟩ := List.getElem?_zip_eq_some.mp hbefore
      have hend := (horder.bounds_of_mem (List.mem_of_getElem? hbefore)).2
      have hbehind : StandsBehind layout fields (previous + 1) place.2
          (before.2 + before.1.totalSize) := .mk hoffset hstart hfield
      rw [lastEnd_take_succ hbefore] at hle ⊢
      rw [hbehind.paddingBefore_of_le (Nat.le_trans hend hsize), if_pos hle]
      rfl

/-- Every byte of a record belongs to a field or to the padding in front of one. -/
structure AccountsForBytes (mode : Mode) (fields : List Field) (layout : Layout)
    (paddings : List Nat) : Prop where
  /-- Each field has a padding. -/
  length_eq : paddings.length = fields.length
  /-- The paddings are those that are read off the offsets, where the reading never stops. There is
  one for the index of a field, and none for any other index. -/
  paddingBefore_eq : ∀ index, layout.paddingBefore fields index = .ok paddings[index]?
  /-- The end of a field, from which padding is counted, fits. -/
  end_le : ∀ place ∈ fields.zip layout.offsets, place.2 + place.1.totalSize ≤ Size.maxSize
  /-- Each field has an offset, which is the sum of the sizes of the fields before it and of the
  paddings up to its own. -/
  offset_eq : ∀ k < fields.length, layout.offsets[k]? =
    some (((fields.take k).map (·.totalSize)).sum + (paddings.take (k + 1)).sum)
  /-- The size is the sum of all sizes of fields and of all paddings. -/
  size_eq : layout.size = (fields.map (·.totalSize)).sum + paddings.sum
  /-- The padding of a field is what it needs behind the field before it. -/
  isPadding : ∀ k field padding, fields[k]? = some field → paddings[k]? = some padding →
    IsPadding mode (lastEnd 0 ((fields.zip layout.offsets).take k)) field padding

/-- The paddings of a computed layout account for every byte of it. -/
theorem accountsForBytes_of_compute (h : compute mode fields = .ok layout) :
    ∃ paddings, AccountsForBytes mode fields layout paddings := by
  have hplacement : IsPlacement mode 0 fields layout :=
    isPlacement_iff.mpr (eq_placement_of_compute h)
  have hsize := size_le_of_computeFrom h (Nat.zero_le _)
  obtain ⟨hlength, horder⟩ := hplacement.inOrder
  have hlengths : (fields.zip layout.offsets).length = fields.length := by
    rw [List.length_zip, hlength, Nat.min_self]
  have hsizes : (fields.zip layout.offsets).map (·.1.totalSize) = fields.map (·.totalSize) := by
    conv_rhs => rw [← List.map_fst_zip (Nat.le_of_eq hlength.symm), List.map_map]
    rfl
  refine ⟨gaps 0 (fields.zip layout.offsets), ?_⟩
  constructor
  case length_eq => rw [length_gaps, hlengths]
  case paddingBefore_eq => exact hplacement.paddingBefore_eq hsize
  case end_le =>
    intro place hplace
    exact Nat.le_trans (horder.bounds_of_mem hplace).2 hsize
  case offset_eq =>
    intro k hk
    obtain ⟨place, hplace⟩ : ∃ place, (fields.zip layout.offsets)[k]? = some place :=
      ⟨_, List.getElem?_eq_getElem (hlengths.symm ▸ hk)⟩
    have hoffset := horder.offset_eq hplace
    rw [List.map_take, hsizes, ← List.map_take, Nat.zero_add] at hoffset
    rw [← hoffset]
    exact (List.getElem?_zip_eq_some.mp hplace).2
  case size_eq =>
    have hend : lastEnd 0 (fields.zip layout.offsets) = _ := horder.lastEnd_eq
    rw [hsizes, Nat.zero_add] at hend
    exact hplacement.size_eq.trans hend
  case isPadding =>
    intro k field padding hfield hpadding
    rw [getElem?_gaps, Option.map_eq_some_iff] at hpadding
    obtain ⟨place, hplace, rfl⟩ := hpadding
    obtain rfl := Option.some.inj ((List.getElem?_zip_eq_some.mp hplace).1.symm.trans hfield)
    exact (hplacement.standsAt hplace).isPadding

/-- An odd unit in an aligned mode, and a field without bytes. -/
theorem accountsForBytes_odd_unit :
    compute .nativeAligned [⟨'B', .unsigned, 1, 1⟩, ⟨'s', .bytes, 3, 6⟩, ⟨'H', .unsigned, 2, 0⟩,
      ⟨'I', .unsigned, 4, 4⟩] = .ok ⟨[0, 3, 10, 12], 16⟩ ∧
    ∃ paddings, AccountsForBytes .nativeAligned [⟨'B', .unsigned, 1, 1⟩, ⟨'s', .bytes, 3, 6⟩,
      ⟨'H', .unsigned, 2, 0⟩, ⟨'I', .unsigned, 4, 4⟩] ⟨[0, 3, 10, 12], 16⟩ paddings := by
  have hcompute : compute .nativeAligned [⟨'B', .unsigned, 1, 1⟩, ⟨'s', .bytes, 3, 6⟩,
      ⟨'H', .unsigned, 2, 0⟩, ⟨'I', .unsigned, 4, 4⟩] = .ok ⟨[0, 3, 10, 12], 16⟩ := by
    decide
  exact ⟨hcompute, accountsForBytes_of_compute hcompute⟩

end BinaryRecord.Layout
