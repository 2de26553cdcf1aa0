import BinaryRecord.Proofs.Schema.RoundTrip
import BinaryRecord.Schema.RecordCursor

/-!
# Cursors stand between records

A buffer of records is cut into them at the multiples of their size: `recordAt` gives the bytes of
one record, and `records` the values of all of them. The invariant of a cursor is that it stands at
one of these cuts (`Aligned`). It holds of a new cursor and is kept by every step, so that a record
stands at the cursor unless the cursor is at the end of the buffer (`Aligned.hasNext_iff`), and
going through the whole buffer gives its records in order, one by one (`next_after_of_lt`) or all at
once (`unpackAll_eq`).
-/

namespace BinaryRecord

namespace Schema

variable {schema : Schema} {bytes : List UInt8}

/-- The values in the bytes of a record. -/
def values (schema : Schema) (record : List UInt8) : List Value :=
  List.zipWith (fun field => field.decode schema.mode.byteOrder) schema.argumentFields
    (schema.slices record)

/-- The bytes of the record of the given index in a buffer of records. -/
def recordAt (schema : Schema) (bytes : List UInt8) (i : Nat) : List UInt8 :=
  slice bytes (i * schema.size) schema.size

/-- The values of the records in a buffer, first to last. -/
def records (schema : Schema) (bytes : List UInt8) : List (List Value) :=
  (List.range (bytes.length / schema.size)).map fun i => schema.values (schema.recordAt bytes i)

/-- A record is as long as the schema says, where the buffer has so many records. -/
theorem length_recordAt {i : Nat} (hi : i < bytes.length / schema.size) :
    (schema.recordAt bytes i).length = schema.size := by
  have hend : (i + 1) * schema.size ≤ bytes.length :=
    (Nat.mul_le_mul_right _ hi).trans (Nat.div_mul_le_self _ _)
  exact length_slice (by rwa [← Nat.succ_mul])

/-- Unpacking gives the values of a record. -/
theorem WellFormed.unpack_eq_values (hschema : schema.WellFormed)
    (hlength : bytes.length = schema.size) : schema.unpack bytes = .ok (schema.values bytes) :=
  hschema.unpack_eq hlength

/-- The values of a record, place by place. -/
theorem values_eq_map (schema : Schema) (bytes : List UInt8) :
    schema.values bytes = schema.argumentPlaces.map fun place =>
      place.1.decode schema.mode.byteOrder (slice bytes place.2 place.1.totalSize) := by
  rw [values, argumentFields, slices, List.zipWith_map, List.zipWith_self]

/-- A record that was packed holds at each place the image of its argument, and unpacking gives the
value of that image. -/
theorem WellFormed.hasImage_of_pack {arguments : List Value} {field : Field} {offset k : Nat}
    {value : Value} (hschema : schema.WellFormed)
    (hplaces : schema.argumentCount ≤ schema.argumentPlaces.length)
    (hplace : schema.argumentPlaces[k]? = some (field, offset))
    (hpack : schema.pack arguments = .ok bytes) (hvalue : arguments[k]? = some value) :
    field.HasImage schema.mode.byteOrder value (slice bytes offset field.totalSize) ∧
      ∃ values, schema.unpack bytes = .ok values ∧ values[k]? = some
        (field.decode schema.mode.byteOrder (slice bytes offset field.totalSize)) := by
  obtain ⟨-, hargument⟩ := hschema.isProper_of_mem_argumentPlaces (List.mem_of_getElem? hplace)
  have houtcome := hschema.packOutcome hplaces arguments
  rw [hpack] at houtcome
  cases houtcome with
  | packed _ _ hrecord =>
    have himage := Field.hasImage_of_encode hargument
      (hrecord.encode_eq k field offset value hplace hvalue)
    refine ⟨himage, _, hschema.unpack_eq_values hrecord.length_eq, ?_⟩
    rw [values_eq_map, List.getElem?_map, hplace]
    rfl

end Schema

namespace RecordCursor

variable {cursor : RecordCursor}

/-- The cursor after a number of calls to `next`. -/
def after (cursor : RecordCursor) (calls : Nat) : RecordCursor :=
  (fun cursor : RecordCursor => cursor.next.2)^[calls] cursor

/-- One more call is made to the cursor that the others have moved. -/
theorem after_succ (cursor : RecordCursor) (calls : Nat) :
    cursor.after (calls + 1) = (cursor.after calls).next.2 :=
  Function.iterate_succ_apply' _ _ _

/-- Calls to `next` move the cursor in the same buffer of the same records. -/
theorem schema_bytes_after (cursor : RecordCursor) (calls : Nat) :
    (cursor.after calls).schema = cursor.schema ∧ (cursor.after calls).bytes = cursor.bytes := by
  induction calls with
  | zero => exact ⟨rfl, rfl⟩
  | succ calls ih =>
    rw [after_succ]
    unfold next
    split
    · exact ih
    · exact ih

/-- The cursor stands between two records of a buffer that is filled with them, or at one of its
ends. -/
structure Aligned (cursor : RecordCursor) : Prop where
  /-- The buffer is a whole number of records. -/
  size_dvd_length : cursor.schema.size ∣ cursor.bytes.size
  /-- So are the bytes gone past. -/
  size_dvd_position : cursor.schema.size ∣ cursor.position
  /-- The cursor is in the buffer. -/
  position_le : cursor.position ≤ cursor.bytes.size

/-- A record that stands at the cursor ends within the buffer. -/
theorem hasNext_eq_true_iff :
    cursor.hasNext = true ↔ cursor.position + cursor.schema.size ≤ cursor.bytes.size := by
  rw [hasNext, decide_eq_true_eq]

/-- A record at the cursor is one more than those after it. -/
theorem length_eq_succ (hnext : cursor.hasNext = true) :
    cursor.length = cursor.advance.length + 1 := by
  have hend := hasNext_eq_true_iff.mp hnext
  have hle : cursor.schema.size ≤ cursor.bytes.size - cursor.position := by omega
  rw [length, length, Nat.div_eq_sub_div cursor.size_pos hle]
  simp only [advance, Nat.sub_add_eq]

/-- The record at the cursor is the bytes from its position on. -/
theorem current_eq (hschema : cursor.schema.WellFormed) (hnext : cursor.hasNext = true) :
    cursor.current =
      .ok (cursor.schema.values
        (slice cursor.bytes.toList cursor.position cursor.schema.size)) := by
  have hlength : (slice cursor.bytes.toList cursor.position cursor.schema.size).length =
      cursor.schema.size := length_slice (hasNext_eq_true_iff.mp hnext)
  rw [current, Array.toList_extract, extract_eq_slice, hschema.unpack_eq_values hlength]

/-- As long as there are records to come, every step goes past one of them. -/
theorem position_after {calls : Nat} (h : calls ≤ cursor.length) :
    (cursor.after calls).position = cursor.position + calls * cursor.schema.size := by
  induction calls with
  | zero => rw [Nat.zero_mul, Nat.add_zero]; rfl
  | succ calls ih =>
    obtain ⟨hschema, hbytes⟩ := cursor.schema_bytes_after calls
    have hposition := ih (Nat.le_of_succ_le h)
    have hnext : (cursor.after calls).hasNext = true := by
      have hend := (Nat.le_div_iff_mul_le cursor.size_pos).mp h
      have hpos := cursor.size_pos
      rw [hasNext_eq_true_iff, hposition, hschema, hbytes]
      rw [Nat.succ_mul] at hend
      omega
    rw [after_succ, next, if_pos hnext, Nat.succ_mul, ← Nat.add_assoc, ← hposition, ← hschema]
    rfl

/-- A record stands at the cursor as long as there are records to come, and no longer. -/
theorem hasNext_after_iff {calls : Nat} (h : calls ≤ cursor.length) :
    (cursor.after calls).hasNext = true ↔ calls < cursor.length := by
  obtain ⟨hschema, hbytes⟩ := cursor.schema_bytes_after calls
  have hpos := cursor.size_pos
  rw [hasNext_eq_true_iff, position_after h, hschema, hbytes, ← Nat.succ_le_iff, length,
    Nat.le_div_iff_mul_le hpos, Nat.succ_mul]
  omega

/-- Each record is got in its turn. -/
theorem next_after_of_lt (hschema : cursor.schema.WellFormed) {i : Nat} (hi : i < cursor.length) :
    (cursor.after i).next.1 = some (.ok (cursor.schema.values
      (slice cursor.bytes.toList (cursor.position + i * cursor.schema.size)
        cursor.schema.size))) := by
  obtain ⟨hsame, hbytes⟩ := cursor.schema_bytes_after i
  have hnext := (hasNext_after_iff hi.le).mpr hi
  rw [next, if_pos hnext, current_eq (hsame ▸ hschema) hnext, hsame, hbytes,
    position_after hi.le]

/-- After the last record none stands at the cursor, now and ever after. -/
theorem hasNext_after_of_le {calls : Nat} (h : cursor.length ≤ calls) :
    (cursor.after calls).hasNext = false := by
  induction calls, h using Nat.le_induction with
  | base =>
    rw [Bool.eq_false_iff, Ne, hasNext_after_iff (Nat.le_refl _)]
    exact Nat.lt_irrefl _
  | succ calls _ ih =>
    rwa [after_succ, next, if_neg (Bool.eq_false_iff.mp ih)]

/-- From then on no record is got. -/
theorem next_after_of_le {calls : Nat} (h : cursor.length ≤ calls) :
    (cursor.after calls).next.1 = none := by
  rw [next, if_neg (Bool.eq_false_iff.mp (hasNext_after_of_le h))]

namespace Aligned

/-- A record stands at a cursor that has not come to the end. -/
theorem hasNext_iff (h : cursor.Aligned) :
    cursor.hasNext = true ↔ cursor.position < cursor.bytes.size := by
  have hpos := cursor.size_pos
  have hrest := Nat.dvd_sub h.size_dvd_length h.size_dvd_position
  rw [hasNext_eq_true_iff]
  constructor
  · omega
  · -- What is left is a whole number of records, and not none.
    intro hlt
    have hle := Nat.le_of_dvd (Nat.sub_pos_of_lt hlt) hrest
    omega

/-- Past a record, the cursor stands between records again. -/
theorem advance (h : cursor.Aligned) (hnext : cursor.hasNext = true) : cursor.advance.Aligned where
  size_dvd_length := h.size_dvd_length
  size_dvd_position := Nat.dvd_add h.size_dvd_position (Nat.dvd_refl _)
  position_le := hasNext_eq_true_iff.mp hnext

/-- Every step leaves the cursor between records. -/
theorem next (h : cursor.Aligned) : cursor.next.2.Aligned := by
  unfold RecordCursor.next
  split
  case isTrue hnext => exact h.advance hnext
  case isFalse => exact h

/-- Any number of steps leave the cursor between records. -/
theorem after (h : cursor.Aligned) (calls : Nat) : (cursor.after calls).Aligned := by
  induction calls with
  | zero => exact h
  | succ calls ih =>
    rw [after_succ]
    exact ih.next

/-- The end of a record at the cursor, or of one behind the last, fits in a size where the buffer
takes less than half of what sizes can say. -/
theorem position_add_size_le (h : cursor.Aligned) (hbytes : cursor.bytes.size < 2^63)
    (hsize : cursor.schema.size ≤ Size.maxSize) :
    cursor.position + cursor.schema.size ≤ Size.maxSize := by
  have hposition := h.position_le
  rcases Nat.eq_zero_or_pos cursor.bytes.size with hempty | hpos
  · omega
  · -- Where the buffer has bytes, a record has no more of them.
    have hle := Nat.le_of_dvd hpos h.size_dvd_length
    have hmax : Size.maxSize = 2^64 - 1 := rfl
    omega

/-- At the end there are no records to come. -/
theorem length_eq_zero (h : cursor.Aligned) (hnext : ¬ cursor.hasNext = true) :
    cursor.length = 0 := by
  have hend := h.hasNext_iff.not.mp hnext
  rw [length, Nat.sub_eq_zero_of_le (Nat.le_of_not_lt hend), Nat.zero_div]

/-- Going through the records still to come gives their values in order. -/
theorem toList_eq (h : cursor.Aligned) (hschema : cursor.schema.WellFormed) :
    cursor.toList = .ok ((List.range cursor.length).map fun i => cursor.schema.values
      (slice cursor.bytes.toList (cursor.position + i * cursor.schema.size)
        cursor.schema.size)) := by
  induction cursor using toList.induct with
  | case1 cursor hnext ih =>
    -- The record of index `i` past this one is that of index `i + 1` from here.
    have hshift : ∀ i, cursor.advance.position + i * cursor.schema.size =
        cursor.position + (i + 1) * cursor.schema.size := by
      intro i
      show cursor.position + cursor.schema.size + i * cursor.schema.size = _
      rw [Nat.succ_mul]
      omega
    rw [toList, dif_pos hnext, length_eq_succ hnext, List.range_succ_eq_map, List.map_cons,
      List.map_map, Nat.zero_mul, Nat.add_zero]
    refine bind_eq_ok_iff.mpr ⟨_, current_eq hschema hnext, bind_eq_ok_iff.mpr
      ⟨_, ih (h.advance hnext) hschema, congrArg (fun rest => Except.ok (_ :: rest)) ?_⟩⟩
    apply List.map_congr_left
    intro i _
    exact congrArg (fun offset => cursor.schema.values
      (slice cursor.bytes.toList offset cursor.schema.size)) (hshift i)
  | case2 cursor hnext =>
    rw [toList, dif_neg hnext, h.length_eq_zero hnext]
    rfl

end Aligned

end RecordCursor

namespace Schema

variable {schema : Schema} {bytes : List UInt8} {cursor : RecordCursor}

/-- There is a cursor for a buffer that is filled with records of at least one byte. It is a new
one: all records are still to come. -/
theorem cursor_eq_ok_iff : schema.cursor bytes = .ok cursor ↔
    schema.size ∣ bytes.length ∧ cursor.schema = schema ∧ cursor.bytes = bytes.toArray ∧
      cursor.position = 0 := by
  unfold Schema.cursor
  obtain ⟨own, ownBytes, position, hpos⟩ := cursor
  split
  case isTrue hzero =>
    simp only [reduceCtorEq, false_iff, not_and]
    rintro - rfl
    omega
  case isFalse =>
    rw [Nat.dvd_iff_mod_eq_zero]
    split
    case isTrue hdvd => simp [hdvd, eq_comm]
    case isFalse hdvd => simp [hdvd]

/-- A new cursor stands between records. -/
theorem aligned_of_cursor (h : schema.cursor bytes = .ok cursor) : cursor.Aligned := by
  obtain ⟨hdvd, rfl, hbytes, hposition⟩ := cursor_eq_ok_iff.mp h
  refine ⟨?_, ?_, ?_⟩
  · rw [hbytes]
    simpa using hdvd
  · rw [hposition]
    exact Nat.dvd_zero _
  · rw [hposition]
    exact Nat.zero_le _

/-- Going through a buffer that is filled with records gives all of them. -/
theorem unpackAll_eq (hschema : schema.WellFormed) (hsize : 0 < schema.size)
    (hdvd : schema.size ∣ bytes.length) : schema.unpackAll bytes = .ok (schema.records bytes) := by
  have hcursor : schema.cursor bytes = .ok ⟨schema, bytes.toArray, 0, hsize⟩ :=
    cursor_eq_ok_iff.mpr ⟨hdvd, rfl, rfl, rfl⟩
  refine bind_eq_ok_iff.mpr ⟨_, hcursor, ?_⟩
  rw [(aligned_of_cursor hcursor).toList_eq hschema]
  simp [RecordCursor.length, records, recordAt]

end Schema

end BinaryRecord
