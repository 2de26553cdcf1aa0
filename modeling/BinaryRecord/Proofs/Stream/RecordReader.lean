import BinaryRecord.Proofs.Schema.RecordCursor
import BinaryRecord.Proofs.Stream.Source
import BinaryRecord.Stream.RecordReader

/-!
# Reading does not depend on the pieces

A reader whose source delivers bytes reads the records that the bytes are cut into, one for each
call, whatever pieces the source hands out and wherever it interrupts a call
(`result_of_delivers`). At the end of the bytes it answers that there are no more records, or, where
they end within a record, that this one is truncated.

`read_eq` describes one call by the bytes that are still to come, of which it takes the next record,
and `delivers_after` follows them through any number of calls.
-/

namespace BinaryRecord.RecordReader

variable {allocator : Allocator} {text : String} {schema : Schema} {reader : RecordReader}
  {source : Source}
  {bytes : List UInt8}

/-- The reader after a number of calls to `read`. -/
def after (reader : RecordReader) (calls : Nat) : RecordReader :=
  (fun reader : RecordReader => reader.read.2)^[calls] reader

/-- What the call to `read` of the given index answers. The index of the first call is 0. -/
def result (reader : RecordReader) (i : Nat) : Except PackError (Option (List Value)) :=
  (reader.after i).read.1

/-- One more call is made by the reader that the others have left. -/
theorem after_succ (reader : RecordReader) (calls : Nat) :
    reader.after (calls + 1) = (reader.after calls).read.2 :=
  Function.iterate_succ_apply' _ _ _

/-- What a call to `read` answers where the bytes are still to come. -/
def answer (schema : Schema) (bytes : List UInt8) : Except PackError (Option (List Value)) :=
  if schema.size ≤ bytes.length then (schema.unpack (bytes.take schema.size)).map some
  else if bytes = [] then .ok none
  else .error (.stream (.truncated bytes.length schema.size))

/-- A call takes the next record off the bytes that are still to come, or else all of them. -/
theorem read_eq (hsize : 0 < reader.schema.size) (h : reader.source.Delivers bytes) :
    ∃ source, source.Delivers (bytes.drop reader.schema.size) ∧
      reader.read = (answer reader.schema bytes, { reader with source }) := by
  obtain ⟨source, hfill, hrest⟩ := h.fill reader.schema.size []
  refine ⟨source, hrest, ?_⟩
  simp only [List.nil_append] at hfill
  simp only [read, hsize.ne', if_false, hfill]
  unfold answer
  by_cases henough : reader.schema.size ≤ bytes.length
  · simp only [henough, if_true]
  · cases bytes with
    | nil => simp only [henough, if_false, if_true]
    | cons first more => simp only [henough, if_false, reduceCtorEq]

/-- After a number of calls the schema is the same, and the records that were read are gone from the
bytes still to come. -/
theorem delivers_after (hsize : 0 < reader.schema.size) (h : reader.source.Delivers bytes)
    (calls : Nat) : (reader.after calls).schema = reader.schema ∧
      (reader.after calls).source.Delivers (bytes.drop (calls * reader.schema.size)) := by
  induction calls with
  | zero => simpa [after] using h
  | succ calls ih =>
    obtain ⟨hschema, hdelivers⟩ := ih
    obtain ⟨source, hrest, hread⟩ := read_eq (hschema ▸ hsize) hdelivers
    rw [after_succ, hread, Nat.succ_mul, ← List.drop_drop]
    rw [hschema] at hrest
    exact ⟨hschema, hrest⟩

/-- The answer of any call, from the bytes that are to come by then. -/
theorem result_eq (hsize : 0 < reader.schema.size) (h : reader.source.Delivers bytes) (i : Nat) :
    reader.result i = answer reader.schema (bytes.drop (i * reader.schema.size)) := by
  obtain ⟨hschema, hdelivers⟩ := delivers_after hsize h i
  obtain ⟨source, -, hread⟩ := read_eq (hschema ▸ hsize) hdelivers
  rw [result, hread, hschema]

/-! ## The answers -/

/-- Where a whole record is to come, the answer is its values. -/
theorem answer_of_lt (hschema : schema.WellFormed) {i : Nat} (hi : i < bytes.length / schema.size) :
    answer schema (bytes.drop (i * schema.size)) =
      .ok (some (schema.values (schema.recordAt bytes i))) := by
  have hlength := Schema.length_recordAt hi
  have henough : schema.size ≤ (bytes.drop (i * schema.size)).length := by
    rw [Schema.recordAt, slice, List.length_take] at hlength
    omega
  rw [answer, if_pos henough]
  show (schema.unpack (schema.recordAt bytes i)).map some = _
  rw [hschema.unpack_eq_values hlength]
  rfl

/-- Where no bytes are to come, the answer is that there are no more records. -/
theorem answer_nil (hsize : 0 < schema.size) : answer schema [] = .ok none := by
  rw [answer, if_neg (by simpa using hsize.ne'), if_pos rfl]

/-- Where fewer bytes are to come than a record has, the answer is that it is truncated. -/
theorem answer_of_length_lt (hlength : bytes.length < schema.size) (hbytes : bytes ≠ []) :
    answer schema bytes = .error (.stream (.truncated bytes.length schema.size)) := by
  rw [answer, if_neg (Nat.not_le_of_lt hlength), if_neg hbytes]

/-- The results, in order, are those of reading the records of the bytes off a stream. -/
structure ReadsOff (schema : Schema) (bytes : List UInt8)
    (result : Nat → Except PackError (Option (List Value))) : Prop where
  /-- Each whole record is read. -/
  record : ∀ i < bytes.length / schema.size, ∃ values,
    schema.unpack (slice bytes (i * schema.size) schema.size) = .ok values ∧
      result i = .ok (some values)
  /-- After a whole number of records there are no more, now and ever after. -/
  ended : schema.size ∣ bytes.length → ∀ i ≥ bytes.length / schema.size, result i = .ok none
  /-- A whole number of records are those that fill a buffer of the bytes. -/
  unpackAll : schema.size ∣ bytes.length → ∃ records, schema.unpackAll bytes = .ok records ∧
    (List.range (bytes.length / schema.size)).map result =
      records.map fun record => .ok (some record)
  /-- A record of which not all bytes come is an error that tells how many did. -/
  truncated : ¬ schema.size ∣ bytes.length →
    result (bytes.length / schema.size) = .error (.stream ⟨.unexpectedEof,
      s!"record truncated after {bytes.length % schema.size} of {schema.size} bytes"⟩)

/-- Whatever pieces a source delivers bytes in, and however often it interrupts a call, the records
of the bytes are read off it. -/
theorem result_of_delivers (hcompile : Schema.compile allocator text = .ok schema)
    (hsize : 0 < schema.size) (h : source.Delivers bytes) :
    ReadsOff schema bytes (RecordReader.mk schema source).result := by
  have hschema := Schema.wellFormed_of_compile hcompile
  have hresult : ∀ i, (RecordReader.mk schema source).result i =
      answer schema (bytes.drop (i * schema.size)) := result_eq hsize h
  have hrecord : ∀ i < bytes.length / schema.size, (RecordReader.mk schema source).result i =
      .ok (some (schema.values (schema.recordAt bytes i))) :=
    fun i hi => (hresult i).trans (answer_of_lt hschema hi)
  refine ⟨fun i hi => ?_, fun hdvd i hi => ?_, fun hdvd => ?_, fun hdvd => ?_⟩
  · exact ⟨_, hschema.unpack_eq_values (Schema.length_recordAt hi), hrecord i hi⟩
  · -- All bytes have been read by then.
    have hgone : bytes.length ≤ i * schema.size := by
      rw [← Nat.div_mul_cancel hdvd]
      exact Nat.mul_le_mul_right _ hi
    rw [hresult, List.drop_of_length_le hgone, answer_nil hsize]
  · refine ⟨_, Schema.unpackAll_eq hschema hsize hdvd, ?_⟩
    rw [Schema.records, List.map_map]
    exact List.map_congr_left fun i hi => hrecord i (List.mem_range.mp hi)
  · -- What is left after the last whole record is the rest of the division.
    have hrest : (bytes.drop (bytes.length / schema.size * schema.size)).length =
        bytes.length % schema.size := by
      rw [List.length_drop, Nat.mod_eq_sub_div_mul]
    have hpositive : 0 < bytes.length % schema.size :=
      Nat.pos_of_ne_zero fun hzero => hdvd (Nat.dvd_of_mod_eq_zero hzero)
    rw [hresult, answer_of_length_lt, hrest]
    · rfl
    · rw [hrest]
      exact Nat.mod_lt _ hsize
    · exact List.ne_nil_of_length_pos (hrest ▸ hpositive)

/-- Two whole records and the first byte of a third, in pieces that are cut within records, and
interruptions before, between and after the pieces. -/
theorem result_of_delivers_interrupted_pieces : ∃ schema,
    Schema.compile .generous ">H" = .ok schema ∧
    0 < schema.size ∧
    Source.Delivers ⟨[.failure ⟨.interrupted, ""⟩, .data 1 [], .failure ⟨.interrupted, ""⟩,
      .data 2 [3, 4, 5], .failure ⟨.interrupted, ""⟩, .ended]⟩ [1, 2, 3, 4, 5] ∧
    ReadsOff schema [1, 2, 3, 4, 5]
      (RecordReader.mk schema ⟨[.failure ⟨.interrupted, ""⟩, .data 1 [],
        .failure ⟨.interrupted, ""⟩, .data 2 [3, 4, 5], .failure ⟨.interrupted, ""⟩,
        .ended]⟩).result := by
  have hcompile : Schema.compile .generous ">H" = .ok
      ⟨">H", .big, [⟨'H', .unsigned, 2, 2⟩], ⟨[0], 2⟩, 1⟩ := by
    decide +kernel
  have hsize : 0 < Schema.size ⟨">H", .big, [⟨'H', .unsigned, 2, 2⟩], ⟨[0], 2⟩, 1⟩ := by decide
  have hdelivers : Source.Delivers ⟨[.failure ⟨.interrupted, ""⟩, .data 1 [],
      .failure ⟨.interrupted, ""⟩, .data 2 [3, 4, 5], .failure ⟨.interrupted, ""⟩, .ended]⟩
      [1, 2, 3, 4, 5] :=
    .interrupted rfl (.piece 1 [] (.interrupted rfl (.piece 2 [3, 4, 5] (.interrupted rfl
      (.ended .nil)))))
  exact ⟨_, hcompile, hsize, hdelivers, result_of_delivers hcompile hsize hdelivers⟩

end BinaryRecord.RecordReader
