import BinaryRecord.Proofs.Format.Parse
import BinaryRecord.Proofs.Schema.Images
import BinaryRecord.Proofs.Schema.Marker

/-!
# Alignment only inserts gaps

An aligned record is the record without alignment, but for gaps of zeros in front of its fields: to
leave out the bytes that belong to no field, padding included, takes the one to the other, and none
of these bytes has a part in a value (`leavesOutGaps_of_compile`). This is so where both modes have
the same sizes, hence for all formats without `l` and `L`.

In either record the fields stand in order, so that its bytes without gaps are what its fields hold,
one after the other (`withoutGaps_eq_flatten`); without alignment there are no gaps to leave out
(`covers_of_unaligned`).
-/

namespace BinaryRecord

open Layout (InOrder Covers covers_cons_iff)

/-! ## Layouts without alignment -/

namespace Layout

variable {mode : Mode} {fields : List Field} {layout : Layout} {cursor : Nat}

/-- Without alignment every byte of a placement belongs to a field. -/
theorem covers_placement_of_unaligned (haligned : mode.aligned = false) {i : Nat}
    (hfirst : cursor ≤ i) (hlast : i < (placement mode cursor fields).size) :
    Covers (fields.zip (placement mode cursor fields).offsets) i := by
  induction fields generalizing cursor with
  | nil => exact absurd hfirst (Nat.not_le_of_lt hlast)
  | cons field fields ih =>
    have hstart : exactStart mode cursor field = cursor :=
      exactStart_of_not_aligned (by simp [haligned])
    simp only [placement, hstart] at hlast ⊢
    rw [List.zip_cons_cons, covers_cons_iff]
    by_cases hi : i < cursor + field.totalSize
    · exact .inl ⟨hfirst, hi⟩
    · exact .inr (ih (by omega) hlast)

/-- Without alignment every byte belongs to a field. -/
theorem covers_of_unaligned (haligned : mode.aligned = false)
    (h : compute mode fields = .ok layout) {i : Nat} (hlast : i < layout.size) :
    Covers (fields.zip layout.offsets) i := by
  obtain rfl := eq_placement_of_compute h
  exact covers_placement_of_unaligned haligned (Nat.zero_le i) hlast

end Layout

/-! ## Leaving out the gaps -/

namespace Schema

variable {schema : Schema} {places : List (Field × Nat)} {bytes : List UInt8} {cursor : Nat}

/-- The bytes at the positions that the predicate holds of, where the first byte is at `start`. -/
def keep (p : Nat → Bool) (start : Nat) (bytes : List UInt8) : List UInt8 :=
  ((bytes.zipIdx start).filter fun entry => p entry.2).map (·.1)

/-- The bytes that belong to one of the places, in order. -/
def withoutGaps (places : List (Field × Nat)) (bytes : List UInt8) : List UInt8 :=
  keep (fun i => Covers places i) 0 bytes

section Keep

variable {p q : Nat → Bool} {start : Nat} {more : List UInt8}

/-- What is kept of bytes and of those behind them. -/
theorem keep_append : keep p start (bytes ++ more) =
    keep p start bytes ++ keep p (start + bytes.length) more := by
  rw [keep, List.zipIdx_append, List.filter_append, List.map_append, keep, keep]

/-- Only the positions of the bytes matter. -/
theorem keep_congr (h : ∀ i, start ≤ i → i < start + bytes.length → p i = q i) :
    keep p start bytes = keep q start bytes := by
  refine congrArg _ (List.filter_congr fun entry hentry => ?_)
  obtain ⟨hfirst, hlast, -⟩ := List.mem_zipIdx hentry
  exact h entry.2 hfirst hlast

/-- All bytes are kept where the predicate holds of all positions. -/
theorem keep_eq_self (h : ∀ i, start ≤ i → i < start + bytes.length → p i = true) :
    keep p start bytes = bytes := by
  rw [keep_congr (q := fun _ => true) h, keep, List.filter_true, List.zipIdx_map_fst]

/-- No bytes are kept where the predicate holds of no position. -/
theorem keep_eq_nil (h : ∀ i, start ≤ i → i < start + bytes.length → p i = false) :
    keep p start bytes = [] := by
  rw [keep_congr (q := fun _ => false) h, keep, List.filter_false, List.map_nil]

end Keep

/-- Of the bytes from the cursor on, those that belong to a place are what the places hold. -/
theorem keep_drop_eq_flatten (horder : InOrder bytes.length cursor places) :
    keep (fun i => Covers places i) cursor (bytes.drop cursor) =
      (heldAt places bytes).flatten := by
  induction places generalizing cursor with
  | nil => exact keep_eq_nil fun i _ _ => by simp [Covers]
  | cons place places ih =>
    obtain ⟨field, offset⟩ := place
    cases horder with
    | cons hstart hrest =>
      have hend := hrest.cursor_le
      have hgap : (slice bytes cursor (offset - cursor)).length = offset - cursor :=
        length_slice (by omega)
      have hfield := length_slice hend
      have hfirst : keep (fun i => Covers ((field, offset) :: places) i) cursor
          (slice bytes cursor (offset - cursor)) = [] := by
        refine keep_eq_nil fun i _ hi => ?_
        have hcovers : ¬ Covers ((field, offset) :: places) i :=
          (InOrder.cons (Nat.le_refl offset) hrest).not_covers_of_lt (by omega)
        simpa using hcovers
      have hown : keep (fun i => Covers ((field, offset) :: places) i) offset
          (slice bytes offset field.totalSize) = slice bytes offset field.totalSize := by
        refine keep_eq_self fun i hi hlast => ?_
        have hcovers : Covers ((field, offset) :: places) i :=
          covers_cons_iff.mpr (.inl ⟨hi, by omega⟩)
        simpa using hcovers
      have hothers : keep (fun i => Covers ((field, offset) :: places) i)
          (offset + field.totalSize) (bytes.drop (offset + field.totalSize)) =
            (heldAt places bytes).flatten := by
        rw [← ih hrest]
        refine keep_congr fun i hi _ => ?_
        have hcovers : Covers ((field, offset) :: places) i ↔ Covers places i := by
          rw [covers_cons_iff]
          exact or_iff_right (by omega)
        simp only [hcovers]
      -- The bytes from the cursor on are a gap, the field, and the bytes behind the field.
      rw [drop_eq_append_slice hstart, keep_append, keep_append, hfirst, hgap, hfield,
        Nat.add_sub_cancel' hstart, hown, hothers]
      rfl

/-- The bytes of a record without its gaps are what its places hold, one after the other. -/
theorem withoutGaps_eq_flatten (horder : InOrder bytes.length 0 places) :
    withoutGaps places bytes = (heldAt places bytes).flatten :=
  keep_drop_eq_flatten horder

/-- What places hold is as wide as their fields. -/
theorem map_length_heldAt (horder : InOrder bytes.length cursor places) :
    (heldAt places bytes).map List.length = places.map (·.1.totalSize) := by
  rw [heldAt, List.map_map]
  refine List.map_congr_left fun place hplace => ?_
  exact length_slice (horder.bounds_of_mem hplace).2

/-- As many bytes belong to fields as the fields have together. -/
theorem WellFormed.length_withoutGaps (hschema : schema.WellFormed)
    (hlength : bytes.length = schema.size) :
    (withoutGaps schema.places bytes).length = (schema.fields.map (·.totalSize)).sum := by
  have horder : InOrder bytes.length 0 schema.places := hlength.symm ▸ hschema.inOrder
  rw [withoutGaps_eq_flatten horder, List.length_flatten, map_length_heldAt horder,
    ← hschema.map_fst_places, List.map_map]
  rfl

/-! ## Records with and without gaps -/

/-- Every byte of a record belongs to a field. -/
def HasNoGaps (schema : Schema) : Prop :=
  ∀ i < schema.size, Covers schema.places i

namespace HasNoGaps

/-- Without gaps there is nothing to leave out. -/
theorem withoutGaps_eq (h : schema.HasNoGaps) (hlength : bytes.length = schema.size) :
    withoutGaps schema.places bytes = bytes :=
  keep_eq_self fun i _ hi => by simpa using h i (by omega)

/-- Without gaps a record is what its fields hold, one after the other. -/
theorem eq_flatten (h : schema.HasNoGaps) (hschema : schema.WellFormed)
    (hlength : bytes.length = schema.size) : bytes = (heldAt schema.places bytes).flatten := by
  rw [← withoutGaps_eq_flatten (hlength.symm ▸ hschema.inOrder), h.withoutGaps_eq hlength]

/-- Without gaps a record is as long as its fields together. -/
theorem size_eq (h : schema.HasNoGaps) (hschema : schema.WellFormed) :
    schema.size = (schema.fields.map (·.totalSize)).sum := by
  have hblank : (List.replicate schema.size (0 : UInt8)).length = schema.size :=
    List.length_replicate
  rw [← hschema.length_withoutGaps hblank, h.withoutGaps_eq hblank, hblank]

end HasNoGaps

/-- The first schema has the records of the second without their gaps. -/
structure LeavesOutGaps (packed aligned : Schema) : Prop where
  /-- The record is the aligned one without its gaps, and the same arguments are refused. -/
  pack_eq : ∀ arguments,
    packed.pack arguments = (aligned.pack arguments).map (withoutGaps aligned.places)
  /-- What is left out is zero. -/
  zero : ∀ arguments bytes, aligned.pack arguments = .ok bytes →
    ∀ i < bytes.length, ¬ Covers aligned.places i → bytes[i]? = some 0
  /-- What is left out has no part in the values. -/
  unpack_eq : ∀ bytes, bytes.length = aligned.size → ∃ values,
    aligned.unpack bytes = .ok values ∧
      packed.unpack (withoutGaps aligned.places bytes) = .ok values

section Fields

variable {packed aligned : Schema}

/-- Where the gaps are left out, a record is as long as one of the same fields without gaps. -/
theorem length_withoutGaps_of_fields_eq (hpacked : packed.WellFormed)
    (haligned : aligned.WellFormed) (hfields : packed.fields = aligned.fields)
    (hgaps : packed.HasNoGaps) (hlength : bytes.length = aligned.size) :
    (withoutGaps aligned.places bytes).length = packed.size := by
  rw [haligned.length_withoutGaps hlength, hgaps.size_eq hpacked, hfields]

/-- Where the gaps are left out, the same fields without gaps hold what they held. -/
theorem heldAt_withoutGaps (hpacked : packed.WellFormed) (haligned : aligned.WellFormed)
    (hfields : packed.fields = aligned.fields) (hgaps : packed.HasNoGaps)
    (hlength : bytes.length = aligned.size) :
    heldAt packed.places (withoutGaps aligned.places bytes) = heldAt aligned.places bytes := by
  have hshort := length_withoutGaps_of_fields_eq hpacked haligned hfields hgaps hlength
  have horder : InOrder bytes.length 0 aligned.places := hlength.symm ▸ haligned.inOrder
  -- The fields are as wide in both, and hold the same bytes together.
  refine List.eq_iff_flatten_eq.mpr ⟨?_, ?_⟩
  · rw [← hgaps.eq_flatten hpacked hshort, withoutGaps_eq_flatten horder]
  · have hwidths : packed.places.map (·.1.totalSize) = aligned.places.map (·.1.totalSize) := by
      have hplaces := hpacked.map_fst_places.trans (hfields.trans haligned.map_fst_places.symm)
      simpa [Function.comp_def] using congrArg (List.map (·.totalSize)) hplaces
    rw [map_length_heldAt (hshort.symm ▸ hpacked.inOrder), map_length_heldAt horder, hwidths]

/-- Records of the same fields, in the same byte order, differ in the gaps of the second where the
first has none. -/
theorem WellFormed.leavesOutGaps (hpacked : packed.WellFormed) (haligned : aligned.WellFormed)
    (hfields : packed.fields = aligned.fields)
    (horder : packed.mode.byteOrder = aligned.mode.byteOrder)
    (hcount : packed.argumentCount = aligned.argumentCount) (hgaps : packed.HasNoGaps) :
    LeavesOutGaps packed aligned := by
  refine ⟨?_, fun arguments bytes hpack i hi hgap => ?_, fun bytes hlength => ?_⟩
  · refine haligned.pack_eq_map_of_imagesOf_eq hpacked hcount (fun arguments => ?_)
      fun images bytes other hfilled hother => ?_
    · rw [hfields, horder]
    · have hheld : heldAt packed.places other = heldAt aligned.places bytes :=
        hother.slices_eq.trans hfilled.slices_eq.symm
      rw [hgaps.eq_flatten hpacked hother.length_eq, hheld,
        withoutGaps_eq_flatten (hfilled.length_eq.symm ▸ haligned.inOrder)]
  · obtain ⟨-, images, -, hfilled⟩ := haligned.pack_eq_ok_iff.mp hpack
    exact hfilled.zero i (hfilled.length_eq ▸ hi) hgap
  · have hshort := length_withoutGaps_of_fields_eq hpacked haligned hfields hgaps hlength
    have hheld := heldAt_withoutGaps hpacked haligned hfields hgaps hlength
    refine ⟨_, haligned.unpack_eq_values hlength, ?_⟩
    rw [hpacked.unpack_eq_values hshort, hpacked.values_eq_heldAt, haligned.values_eq_heldAt,
      hheld, hfields, horder]

end Fields

/-! ## Formats -/

variable {allocator : Allocator} {tokens : String} {packed aligned : Schema}

/-- Without `l` and `L`, the records of `=` are those of `@` without the gaps that alignment
inserts. -/
theorem leavesOutGaps_of_compile (hl : 'l' ∉ tokens.toList) (hL : 'L' ∉ tokens.toList)
    (haligned : compile allocator ("@" ++ tokens) = .ok aligned)
    (hpacked : compile allocator ("=" ++ tokens) = .ok packed) : LeavesOutGaps packed aligned := by
  have hfirst := wellFormed_of_compile hpacked
  have hsecond := wellFormed_of_compile haligned
  have htext : ("@" ++ tokens).toList = '@' :: tokens.toList := String.toList_append ..
  have htext' : ("=" ++ tokens).toList = '=' :: tokens.toList := String.toList_append ..
  obtain ⟨runs, fields, layout, hruns, hfields, hlayout, rfl⟩ :=
    (compile_of_marker_eq_ok_iff htext rfl).mp haligned
  obtain ⟨runs', fields', layout', hruns', hfields', hlayout', rfl⟩ :=
    (compile_of_marker_eq_ok_iff htext' rfl).mp hpacked
  obtain rfl := Except.ok.inj (hruns.symm.trans hruns')
  -- No run is of a type whose sizes differ.
  have hsizes : Field.ofRuns allocator Mode.nativeStandard runs =
      Field.ofRuns allocator Mode.nativeAligned runs := by
    refine Field.ofRunsFrom_congr fun run hrun code hcode => ?_
    obtain ⟨hmem, hchar⟩ := TypeCode.mem_all_of_find hcode
    have htypeChar := Format.typeChar_mem_of_parseRuns hruns hrun
    rw [← hchar] at htypeChar
    have hnotl : code.char ≠ 'l' := fun h => hl (h ▸ htypeChar)
    have hnotL : code.char ≠ 'L' := fun h => hL (h ▸ htypeChar)
    exact TypeCode.size_eq_of_ne hmem hnotl hnotL _ _
  obtain rfl := Except.ok.inj ((hfields'.symm.trans hsizes).trans hfields)
  refine hfirst.leavesOutGaps hsecond rfl rfl rfl fun i hi => ?_
  exact Layout.covers_of_unaligned rfl hlayout' hi

/-- A byte, padding, and a number in front of which alignment leaves a gap. -/
theorem leavesOutGaps_of_compile_mixed_fields : ∃ packed aligned,
    'l' ∉ "b2xH".toList ∧ 'L' ∉ "b2xH".toList ∧
    compile .generous ("@" ++ "b2xH") = .ok aligned ∧
    compile .generous ("=" ++ "b2xH") = .ok packed ∧
    aligned.pack [.int (-1), .uint 258] = .ok [255, 0, 0, 0, 2, 1] ∧
    packed.pack [.int (-1), .uint 258] = .ok [255, 0, 0, 2, 1] ∧ LeavesOutGaps packed aligned := by
  have haligned : compile .generous ("@" ++ "b2xH") = .ok ⟨"@b2xH", .nativeAligned,
      [⟨'b', .signed, 1, 1⟩, ⟨'x', .pad, 1, 2⟩, ⟨'H', .unsigned, 2, 2⟩], ⟨[0, 1, 4], 6⟩, 2⟩ := by
    decide +kernel
  have hpacked : compile .generous ("=" ++ "b2xH") = .ok ⟨"=b2xH", .nativeStandard,
      [⟨'b', .signed, 1, 1⟩, ⟨'x', .pad, 1, 2⟩, ⟨'H', .unsigned, 2, 2⟩], ⟨[0, 1, 3], 5⟩, 2⟩ := by
    decide +kernel
  exact ⟨_, _, by decide, by decide, haligned, hpacked, by decide +kernel, by decide +kernel,
    leavesOutGaps_of_compile (by decide) (by decide) haligned hpacked⟩

end Schema

end BinaryRecord
