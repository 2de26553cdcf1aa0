import BinaryRecord.Layout
import Mathlib.Logic.ExistsUnique

/-!
# Padding between any offsets

A layout can be put together from any offsets, in any order, and read with fields that it was not
computed for, of which there are more or fewer than offsets. `IsGap` says what the gap in front of a
field is there, in the natural numbers: there is one answer for every index (`existsUnique_isGap`).
`paddingBefore` measures from the end of the field before (`StandsBehind`). It relies on two things
that it does not check: that there is an offset before every other, which is always so, and that the
end of the field before fits. `measuresGap` says that it answers the exact gap as long as that end
fits. Where it does not, there is no gap, and instead of answering so the reading stops.
-/

namespace BinaryRecord.Layout

variable {layout : Layout} {fields : List Field} {field : Field} {answer other : Option Nat}
  {index previous offset stop gap : Nat} {otherOffset otherStop : Nat}

/-! ## The exact gap -/

/-- The numbers of a layout and of the fields that it is read with are sizes. -/
structure HasSizes (layout : Layout) (fields : List Field) : Prop where
  /-- Every offset is a size. -/
  offset_le : ∀ offset ∈ layout.offsets, offset ≤ Size.maxSize
  /-- The number of bytes of every field is one. -/
  totalSize_le : ∀ field ∈ fields, field.totalSize ≤ Size.maxSize

/-- The index is that of an offset, and the field before it ends at `stop`. This end is the exact
sum, which may be larger than any size. -/
inductive StandsBehind (layout : Layout) (fields : List Field) : Nat → Nat → Nat → Prop
  | mk {previous offset start : Nat} {field : Field}
      (hoffset : layout.offsets[previous + 1]? = some offset)
      (hstart : layout.offsets[previous]? = some start)
      (hfield : fields[previous]? = some field) :
      StandsBehind layout fields (previous + 1) offset (start + field.totalSize)

/-- The gap in front of the field at an index. -/
inductive IsGap (layout : Layout) (fields : List Field) : Nat → Option Nat → Prop
  /-- There is none where there is no such offset. -/
  | noOffset {index : Nat} (hindex : layout.offsets.length ≤ index) :
      IsGap layout fields index none
  /-- There is none where there should be a field before, and is not. -/
  | noField {previous : Nat} (hprevious : fields.length ≤ previous) :
      IsGap layout fields (previous + 1) none
  /-- There is none where the field before ends behind the offset. -/
  | overlap {index offset stop : Nat} (hbehind : StandsBehind layout fields index offset stop)
      (hlt : offset < stop) : IsGap layout fields index none
  /-- At the start of the record it is the whole offset. -/
  | first {offset : Nat} (hoffset : layout.offsets[0]? = some offset) :
      IsGap layout fields 0 (some offset)
  /-- Anywhere else it is the difference between the offset and the end of the field before. -/
  | behind {index offset stop : Nat} (hbehind : StandsBehind layout fields index offset stop)
      (hle : stop ≤ offset) : IsGap layout fields index (some (offset - stop))

namespace StandsBehind

/-- There is only one offset, and only one end of the field before. -/
theorem unique (h : StandsBehind layout fields index offset stop)
    (hother : StandsBehind layout fields index otherOffset otherStop) :
    offset = otherOffset ∧ stop = otherStop := by
  cases h with
  | mk hoffset hstart hfield =>
    cases hother with
    | mk hotherOffset hotherStart hotherField =>
      obtain rfl := Option.some.inj (hoffset.symm.trans hotherOffset)
      obtain rfl := Option.some.inj (hstart.symm.trans hotherStart)
      obtain rfl := Option.some.inj (hfield.symm.trans hotherField)
      exact ⟨rfl, rfl⟩

/-- What stands behind a field has an offset. -/
theorem index_lt (h : StandsBehind layout fields index offset stop) :
    index < layout.offsets.length := by
  cases h with
  | mk hoffset => exact (List.getElem?_eq_some_iff.mp hoffset).1

/-- What stands behind a field has it before. -/
theorem previous_lt (h : StandsBehind layout fields (previous + 1) offset stop) :
    previous < fields.length := by
  cases h with
  | mk _ _ hfield => exact (List.getElem?_eq_some_iff.mp hfield).1

/-- The gap behind a field is the difference, if there is one. -/
theorem isGap (h : StandsBehind layout fields index offset stop) :
    IsGap layout fields index (if stop ≤ offset then some (offset - stop) else none) := by
  split
  case isTrue hle => exact .behind h hle
  case isFalse hlt => exact .overlap h (Nat.lt_of_not_le hlt)

end StandsBehind

/-- Where there is a gap, no other answer is exact. -/
theorem IsGap.eq_some (h : IsGap layout fields index (some gap))
    (hother : IsGap layout fields index other) : other = some gap := by
  cases h with
  | first hoffset =>
    cases hother with
    | noOffset hindex => simp [List.getElem?_eq_none hindex] at hoffset
    | first hother => exact hother.symm.trans hoffset
    | overlap hbehind => nomatch hbehind
    | behind hbehind => nomatch hbehind
  | behind hbehind hle =>
    cases hother with
    | noOffset hindex => exact absurd hbehind.index_lt (Nat.not_lt_of_le hindex)
    | noField hprevious => exact absurd hbehind.previous_lt (Nat.not_lt_of_le hprevious)
    | first => nomatch hbehind
    | overlap hother hlt =>
      obtain ⟨rfl, rfl⟩ := hbehind.unique hother
      omega
    | behind hother =>
      obtain ⟨rfl, rfl⟩ := hbehind.unique hother
      rfl

/-- There is only one exact answer. -/
theorem IsGap.unique (h : IsGap layout fields index answer)
    (hother : IsGap layout fields index other) : answer = other := by
  cases answer with
  | some gap => exact (h.eq_some hother).symm
  | none =>
    cases other with
    | none => rfl
    | some gap => exact hother.eq_some h

/-! ## Reading a padding -/

namespace StandsBehind

/-- Behind a field, the padding is the gap where the end of that field fits, and else the reading
stops there. -/
theorem paddingBefore_eq (h : StandsBehind layout fields index offset stop) :
    layout.paddingBefore fields index = if stop ≤ Size.maxSize then
      .ok (if stop ≤ offset then some (offset - stop) else none)
    else .error (.endTooLarge stop) := by
  cases h with
  | @mk previous offset start field hoffset hstart hfield =>
    simp only [paddingBefore, hoffset, hstart, hfield]
    by_cases hfits : start + field.totalSize ≤ Size.maxSize
    · simp only [Size.checkedAdd_of_le hfits, if_pos hfits]
    · simp only [Size.checkedAdd_of_lt (Nat.lt_of_not_le hfits), if_neg hfits]

/-- Behind a field whose end fits, the padding is the gap. -/
theorem paddingBefore_of_le (h : StandsBehind layout fields index offset stop)
    (hfits : stop ≤ Size.maxSize) : layout.paddingBefore fields index =
      .ok (if stop ≤ offset then some (offset - stop) else none) := by
  rw [h.paddingBefore_eq, if_pos hfits]

/-- Behind a field whose end does not fit, the reading stops at that end. -/
theorem paddingBefore_of_lt (h : StandsBehind layout fields index offset stop)
    (hlarge : Size.maxSize < stop) :
    layout.paddingBefore fields index = .error (.endTooLarge stop) := by
  rw [h.paddingBefore_eq, if_neg (Nat.not_le_of_lt hlarge)]

/-- An end that does not fit is behind every offset. -/
theorem isGap_none_of_lt (h : StandsBehind layout fields index offset stop)
    (hsizes : HasSizes layout fields) (hlarge : Size.maxSize < stop) :
    IsGap layout fields index none := by
  have hoffset : offset ≤ Size.maxSize := by
    cases h with
    | mk hoffset => exact hsizes.offset_le _ (List.mem_of_getElem? hoffset)
  exact .overlap h (Nat.lt_of_le_of_lt hoffset hlarge)

end StandsBehind

/-- Every index stands behind a field, or its padding is read without any sum and is exact. -/
theorem standsBehind_or_exact (layout : Layout) (fields : List Field) (index : Nat) :
    (∃ offset stop, StandsBehind layout fields index offset stop) ∨
      ∃ answer, IsGap layout fields index answer ∧
        layout.paddingBefore fields index = .ok answer := by
  -- The cases are those in which reading a padding comes to an answer, in order.
  cases hoffset : layout.offsets[index]? with
  | none =>
    refine .inr ⟨none, .noOffset (List.getElem?_eq_none_iff.mp hoffset), ?_⟩
    simp [paddingBefore, hoffset]
  | some offset =>
    cases index with
    | zero =>
      refine .inr ⟨some offset, .first hoffset, ?_⟩
      simp [paddingBefore, hoffset]
    | succ previous =>
      -- Where an index has an offset, so has the one before it.
      obtain ⟨hlength, -⟩ := List.getElem?_eq_some_iff.mp hoffset
      obtain ⟨start, hstart⟩ : ∃ start, layout.offsets[previous]? = some start :=
        ⟨_, List.getElem?_eq_getElem (Nat.lt_of_succ_lt hlength)⟩
      cases hfield : fields[previous]? with
      | none =>
        refine .inr ⟨none, .noField (List.getElem?_eq_none_iff.mp hfield), ?_⟩
        simp [paddingBefore, hoffset, hstart, hfield]
      | some field => exact .inl ⟨_, _, .mk hoffset hstart hfield⟩

/-- There is exactly one exact answer for every index. -/
theorem existsUnique_isGap (layout : Layout) (fields : List Field) (index : Nat) :
    ∃! answer, IsGap layout fields index answer := by
  obtain ⟨offset, stop, hbehind⟩ | ⟨answer, hexact, -⟩ := standsBehind_or_exact layout fields index
  · exact ⟨_, hbehind.isGap, fun _ hother => hother.unique hbehind.isGap⟩
  · exact ⟨answer, hexact, fun _ hother => hother.unique hexact⟩

/-- What is answered is the exact gap. -/
theorem isGap_of_paddingBefore (h : layout.paddingBefore fields index = .ok answer) :
    IsGap layout fields index answer := by
  obtain ⟨offset, stop, hbehind⟩ | ⟨other, hexact, hanswer⟩ :=
    standsBehind_or_exact layout fields index
  · rw [hbehind.paddingBefore_eq] at h
    split at h
    case isTrue => exact Except.ok.inj h ▸ hbehind.isGap
    case isFalse => contradiction
  · exact Except.ok.inj (hanswer.symm.trans h) ▸ hexact

/-- The reading stops just where the end of the field before does not fit. -/
theorem paddingBefore_eq_error_iff {cause : Unmeasurable} :
    layout.paddingBefore fields index = .error cause ↔
      ∃ offset stop, StandsBehind layout fields index offset stop ∧ Size.maxSize < stop ∧
        cause = .endTooLarge stop := by
  constructor
  · intro hstop
    obtain ⟨offset, stop, hbehind⟩ | ⟨answer, -, hanswer⟩ :=
      standsBehind_or_exact layout fields index
    · rcases Nat.lt_or_ge Size.maxSize stop with hlarge | hfits
      · rw [hbehind.paddingBefore_of_lt hlarge] at hstop
        exact ⟨offset, stop, hbehind, hlarge, (Except.error.inj hstop).symm⟩
      · rw [hbehind.paddingBefore_of_le hfits] at hstop
        contradiction
    · rw [hanswer] at hstop
      contradiction
  · rintro ⟨offset, stop, hbehind, hlarge, rfl⟩
    exact hbehind.paddingBefore_of_lt hlarge

/-- Where that end fits, if there is one, the answer is the exact gap. -/
theorem paddingBefore_eq_ok_iff : layout.paddingBefore fields index = .ok answer ↔
    IsGap layout fields index answer ∧
      ∀ offset stop, StandsBehind layout fields index offset stop → stop ≤ Size.maxSize := by
  constructor
  · refine fun hanswer => ⟨isGap_of_paddingBefore hanswer, fun offset stop hbehind => ?_⟩
    refine Nat.le_of_not_lt fun hlarge => ?_
    rw [hbehind.paddingBefore_of_lt hlarge] at hanswer
    contradiction
  · -- Only one answer is exact, so what is given is the one in question.
    rintro ⟨hexact, hfits⟩
    obtain ⟨offset, stop, hbehind⟩ | ⟨other, hother, hanswer⟩ :=
      standsBehind_or_exact layout fields index
    · rw [hbehind.paddingBefore_of_le (hfits offset stop hbehind), hexact.unique hbehind.isGap]
    · rw [hanswer, hexact.unique hother]

/-- How the padding that is read off any offsets compares with the exact gap. -/
structure MeasuresGap (layout : Layout) (fields : List Field) (index : Nat) : Prop where
  /-- There is exactly one exact answer. -/
  existsUnique : ∃! answer, IsGap layout fields index answer
  /-- It is the one that is given just where the end of the field before, if there is one, fits. -/
  eq_ok_iff : ∀ answer, layout.paddingBefore fields index = .ok answer ↔
    IsGap layout fields index answer ∧
      ∀ offset stop, StandsBehind layout fields index offset stop → stop ≤ Size.maxSize
  /-- The reading stops just where that end does not fit, and for no other reason. -/
  eq_error_iff : ∀ cause, layout.paddingBefore fields index = .error cause ↔
    ∃ offset stop, StandsBehind layout fields index offset stop ∧ Size.maxSize < stop ∧
      cause = .endTooLarge stop
  /-- There is no gap where it stops. -/
  isGap_none : ∀ cause, layout.paddingBefore fields index = .error cause →
    IsGap layout fields index none

/-- The padding that is read off any sizes is the exact gap, unless the end of the field before does
not fit, where the reading stops. -/
theorem measuresGap (hsizes : HasSizes layout fields) (index : Nat) :
    MeasuresGap layout fields index where
  existsUnique := existsUnique_isGap layout fields index
  eq_ok_iff _ := paddingBefore_eq_ok_iff
  eq_error_iff _ := paddingBefore_eq_error_iff
  isGap_none _ hstop := by
    obtain ⟨offset, stop, hbehind, hlarge, -⟩ := paddingBefore_eq_error_iff.mp hstop
    exact hbehind.isGap_none_of_lt hsizes hlarge

/-- More offsets than fields, and a field that ends `2^64 + 4` bytes from the start of the record,
in front of one that starts after three. -/
theorem measuresGap_largest_field :
    HasSizes ⟨[18446744073709551615, 5, 3, 9], 8⟩
      [⟨'B', .unsigned, 1, 1⟩, ⟨'s', .bytes, 1, 18446744073709551615⟩] ∧
    MeasuresGap ⟨[18446744073709551615, 5, 3, 9], 8⟩
      [⟨'B', .unsigned, 1, 1⟩, ⟨'s', .bytes, 1, 18446744073709551615⟩] 2 := by
  have hsizes : HasSizes ⟨[18446744073709551615, 5, 3, 9], 8⟩
      [⟨'B', .unsigned, 1, 1⟩, ⟨'s', .bytes, 1, 18446744073709551615⟩] :=
    ⟨by decide, by decide⟩
  exact ⟨hsizes, measuresGap hsizes 2⟩

/-- A byte at the largest offset of all ends at one that does not fit. There is no gap between it
and the field after it, whose offset is smaller, but reading the padding stops instead of saying so.
-/
theorem paddingBefore_of_unbounded_end : ∃ (layout : Layout) (fields : List Field) (index : Nat),
    HasSizes layout fields ∧ IsGap layout fields index none ∧
      layout.paddingBefore fields index = .error (.endTooLarge 18446744073709551616) ∧
      ∀ answer, layout.paddingBefore fields index ≠ .ok answer := by
  let layout : Layout := ⟨[18446744073709551615, 5], 6⟩
  let fields : List Field := [⟨'B', .unsigned, 1, 1⟩, ⟨'B', .unsigned, 1, 1⟩]
  have hsizes : HasSizes layout fields := ⟨by decide, by decide⟩
  have hnone : IsGap layout fields 1 none := .overlap (.mk rfl rfl rfl) (by decide)
  have hstop : layout.paddingBefore fields 1 = .error (.endTooLarge 18446744073709551616) := rfl
  refine ⟨layout, fields, 1, hsizes, hnone, hstop, fun answer hanswer => ?_⟩
  rw [hstop] at hanswer
  contradiction

end BinaryRecord.Layout
