import BinaryRecord.Proofs.Schema.RecordCursor

/-!
# Records in larger buffers

Packing into a buffer looks for room first, whatever the arguments are, and then comes to what
packing alone does (`packInto_of_room`). What it writes is the record, at its offset and nowhere
else (`Written`). Unpacking there gives the values of the bytes that stand at the offset.
-/

namespace BinaryRecord.Schema

variable {schema : Schema} {arguments : List Value} {offset i : Nat}
  {record before after : List UInt8}

/-! ## Writing records -/

/-- The bytes after a record has been written over those before, from an offset on. -/
structure Written (record : List UInt8) (offset : Nat) (before after : List UInt8) : Prop where
  /-- There is room for the record. -/
  room : offset + record.length ≤ before.length
  /-- The record stands between the bytes in front of it and those behind it. -/
  eq : after = before.take offset ++ record ++ before.drop (offset + record.length)

namespace Written

/-- Writing a record is writing its bytes over an array. -/
theorem toList_overwrite (h : Written record offset before after) :
    (Window.overwrite before.toArray offset record).toList = after := by
  rw [Window.toList_overwrite (by simpa using h.room), h.eq]

/-- There are as many bytes as before. -/
theorem length_eq (h : Written record offset before after) : after.length = before.length := by
  rw [← h.toList_overwrite, Array.length_toList, Window.size_overwrite, List.size_toArray]

/-- The record stands at its offset. -/
theorem slice_eq (h : Written record offset before after) :
    slice after offset record.length = record := by
  rw [← h.toList_overwrite]
  exact Window.slice_overwrite (by simpa using h.room)

/-- A byte at which the record stands is one of its own. -/
theorem getElem?_of_inside (h : Written record offset before after) (hfirst : offset ≤ i)
    (hlast : i < offset + record.length) : after[i]? = record[i - offset]? := by
  have hbyte : (slice after offset record.length)[i - offset]? = _ := getElem?_slice (i - offset)
  rw [h.slice_eq, if_pos (by omega), Nat.add_sub_cancel' hfirst] at hbyte
  exact hbyte.symm

/-- All other bytes are as they were. -/
theorem getElem?_of_outside (h : Written record offset before after)
    (hi : i < offset ∨ offset + record.length ≤ i) : after[i]? = before[i]? := by
  rw [← h.toList_overwrite]
  exact Window.getElem?_overwrite_of_outside (by simpa using h.room) hi

end Written

/-! ## Packing -/

/-- A record that was packed is as long as the schema says. -/
theorem length_of_pack (h : schema.pack arguments = .ok record) : record.length = schema.size := by
  unfold pack at h
  split at h
  case isTrue =>
    obtain ⟨window, hwindow, h⟩ := bind_eq_ok_iff.mp h
    obtain rfl := Except.ok.inj h
    rw [Window.length_toList, Window.length_storeFields hwindow, length_zeroed]
  case isFalse => cases h

/-- The end of a record comes to the same when it is computed with sizes: where the sum is not one
of 64 bits, it is beyond the end of any buffer. -/
theorem recordEnd_eq_checkedAdd {available : Nat} (h : available ≤ Size.maxSize) (schema : Schema)
    (offset : Nat) : schema.recordEnd available offset =
      match Size.checkedAdd offset schema.size with
      | some stop =>
        if stop ≤ available then .ok stop
        else .error (.bufferTooSmall (Size.saturatingAdd offset schema.size) available)
      | none => .error (.bufferTooSmall (Size.saturatingAdd offset schema.size) available) := by
  unfold recordEnd
  by_cases hsum : offset + schema.size ≤ Size.maxSize
  · rw [Size.checkedAdd_of_le hsum]
  · rw [Size.checkedAdd_of_lt (Nat.lt_of_not_le hsum), if_neg (by omega)]

/-- A record that would end behind the buffer is refused, whatever its arguments are. -/
theorem packInto_of_no_room (hroom : before.length < offset + schema.size)
    (arguments : List Value) :
    schema.packInto before offset arguments =
      .error (.bufferTooSmall (min (offset + schema.size) Size.maxSize) before.length) := by
  rw [packInto, recordEnd, if_neg (Nat.not_le.mpr hroom)]
  rfl

/-- A record that would end within the buffer is packed into it as it is packed alone. -/
theorem packInto_of_room (hroom : offset + schema.size ≤ before.length) (arguments : List Value) :
    schema.packInto before offset arguments = (schema.pack arguments).map fun record =>
      before.take offset ++ record ++ before.drop (offset + schema.size) := by
  rw [packInto, recordEnd, if_pos hroom]
  rfl

/-- Packing into a buffer succeeds exactly when the record can be made and there is room for it,
and then writes it. -/
theorem packInto_eq_ok_iff : schema.packInto before offset arguments = .ok after ↔
    ∃ record, schema.pack arguments = .ok record ∧ Written record offset before after := by
  by_cases hroom : offset + schema.size ≤ before.length
  · rw [packInto_of_room hroom]
    cases hpack : schema.pack arguments with
    | error e => simp [Except.map]
    | ok record =>
      have hlength := length_of_pack hpack
      constructor
      · intro h
        exact ⟨record, rfl, by rwa [hlength], by rw [hlength]; exact (Except.ok.inj h).symm⟩
      · rintro ⟨_, h, hwritten⟩
        obtain rfl := Except.ok.inj h
        rw [hwritten.eq, hlength]
        rfl
  · rw [packInto_of_no_room (Nat.not_le.mp hroom)]
    constructor
    · intro h
      cases h
    · rintro ⟨record, hpack, hwritten⟩
      have hend := hwritten.room
      rw [length_of_pack hpack] at hend
      exact absurd hend hroom

/-! ## Unpacking -/

/-- The values of a record that was packed are the canonical forms of its arguments. -/
theorem WellFormed.canonicalForms_of_pack (hschema : schema.WellFormed)
    (hplaces : schema.argumentCount = schema.argumentPlaces.length)
    (hpack : schema.pack arguments = .ok record) :
    Field.CanonicalForms schema.argumentFields arguments (schema.values record) := by
  obtain ⟨images, himages, hfilled⟩ := hschema.exists_haveImages_of_pack hplaces hpack
  rw [values, slices, hfilled.slices_eq]
  exact himages.canonicalForms fun _ hfield => hschema.isProper_of_mem_argumentFields hfield

/-- Unpacking from a buffer gives the values of the bytes at the offset. -/
theorem WellFormed.unpackFrom_eq (hschema : schema.WellFormed)
    (hroom : offset + schema.size ≤ before.length) :
    schema.unpackFrom before offset = .ok (schema.values (slice before offset schema.size)) := by
  rw [unpackFrom, recordEnd, if_pos hroom, ← hschema.unpack_eq_values (length_slice hroom)]
  exact congrArg schema.unpack extract_eq_slice

end BinaryRecord.Schema
