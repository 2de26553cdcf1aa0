import BinaryRecord.Proofs.Schema.PackInto
import BinaryRecord.Proofs.Stream.RecordReader
import BinaryRecord.Proofs.Stream.RecordWriter

/-!
# Records that are written are read back

A writer whose sink has no limit writes every record that can be packed, alone or in a batch
(`RecordWriter.Ready.attempts_eq`), so that the sink holds all of them, one behind the other, and
nothing else. Bytes that are records of one schema, put together, are cut into the same records by a
reader, by a cursor and by offsets (`isReadAs_of_flatten`, `endsAt_of_flatten`). Hence all of them
give back what was written (`RecordWriter.readsBack_of_unlimited`).
-/

namespace BinaryRecord

/-- The arguments can be packed. -/
def Schema.Packs (schema : Schema) (arguments : List Value) : Prop :=
  ∃ record, schema.pack arguments = .ok record

variable {allocator : Allocator} {text : String} {schema : Schema}

/-! ## Writing -/

namespace RecordWriter

variable {writer : RecordWriter} {arguments : List Value} {batch : List (List Value)}

/-- The arguments of the records that are to be written. -/
def Request.argumentLists : Request → List (List Value)
  | .write arguments => [arguments]
  | .writeBatch batch => batch
  | .flush => []

/-- The attempt that writes the record of the arguments. -/
def Attempt.success (arguments : List Value) : Attempt :=
  ⟨arguments, .ok ()⟩

/-- The writer has the schema, and its sink takes all records. -/
structure Ready (schema : Schema) (writer : RecordWriter) : Prop where
  /-- The schema is that of the records. -/
  schema_eq : writer.schema = schema
  /-- The sink has no limit. -/
  unlimited : writer.sink.Unlimited

/-- A record that can be packed is written. -/
theorem Ready.write (h : Ready schema writer) (hpack : schema.Packs arguments) :
    ∃ after, writer.write arguments = (.ok (), after) ∧ Ready schema after := by
  obtain ⟨record, hrecord⟩ := hpack
  obtain ⟨sink, hsink, hunlimited⟩ := h.unlimited.writeAll record
  rw [← h.schema_eq] at hrecord
  exact ⟨_, write_of_whole hrecord hsink, h.schema_eq, hunlimited⟩

/-- All records of a batch are written, if they can be packed. -/
theorem Ready.writeBatch (h : Ready schema writer)
    (hpack : ∀ arguments ∈ batch, schema.Packs arguments) :
    writer.batchAttempts batch = batch.map Attempt.success ∧
      ∃ after, writer.writeBatch batch = (.ok (), after) ∧ Ready schema after := by
  induction batch generalizing writer with
  | nil => exact ⟨rfl, writer, rfl, h⟩
  | cons arguments batch ih =>
    obtain ⟨hfirst, hrest⟩ := List.forall_mem_cons.mp hpack
    obtain ⟨next, hwrite, hnext⟩ := h.write hfirst
    obtain ⟨hattempts, after, hbatch, hafter⟩ := ih hnext hrest
    simp only [batchAttempts, RecordWriter.writeBatch, hwrite, hattempts]
    exact ⟨rfl, after, hbatch, hafter⟩

/-- All records of a request are written, if they can be packed. -/
theorem Ready.perform (h : Ready schema writer) (request : Request)
    (hpack : ∀ arguments ∈ request.argumentLists, schema.Packs arguments) :
    writer.attemptsOf request = request.argumentLists.map Attempt.success ∧
      Ready schema (writer.perform request).2 := by
  cases request with
  | write arguments =>
    obtain ⟨after, hwrite, hafter⟩ := h.write (hpack arguments List.mem_cons_self)
    rw [attemptsOf, RecordWriter.perform, hwrite]
    exact ⟨rfl, hafter⟩
  | writeBatch batch =>
    have hall : ∀ arguments ∈ batch, schema.Packs arguments := hpack
    obtain ⟨hattempts, after, hbatch, hafter⟩ := h.writeBatch hall
    rw [attemptsOf, RecordWriter.perform, hbatch]
    exact ⟨hattempts, hafter⟩
  | flush => exact ⟨rfl, h⟩

/-- All records of some requests are written, if they can be packed. -/
theorem Ready.attempts_eq (h : Ready schema writer) (requests : List Request)
    (hpack : ∀ arguments ∈ requests.flatMap Request.argumentLists, schema.Packs arguments) :
    writer.attempts requests = (requests.flatMap Request.argumentLists).map Attempt.success := by
  induction requests generalizing writer with
  | nil => rfl
  | cons request requests ih =>
    rw [List.flatMap_cons] at hpack ⊢
    obtain ⟨hfirst, hrest⟩ := List.forall_mem_append.mp hpack
    obtain ⟨hattempts, hnext⟩ := h.perform request hfirst
    rw [attempts, hattempts, ih hnext hrest, List.map_append]

/-- The sink holds the records that can be packed, and nothing else that it did not hold before. -/
theorem exists_held_eq {sink : Sink} (hsink : sink.Unlimited) (requests : List Request)
    (hpack : ∀ arguments ∈ requests.flatMap Request.argumentLists, schema.Packs arguments) :
    ((start schema sink).after requests).records =
        Size.checked (requests.flatMap Request.argumentLists).length ∧
      ∃ records : List (List UInt8),
        (requests.flatMap Request.argumentLists).map schema.pack = records.map .ok ∧
          ((start schema sink).after requests).sink.held = sink.held ++ records.flatten := by
  have hready : Ready schema (start schema sink) := ⟨rfl, hsink⟩
  have hattempts := hready.attempts_eq requests hpack
  have haccounts := (Accounts.start schema sink).after requests
  generalize requests.flatMap Request.argumentLists = lists at hattempts
  rw [List.nil_append, hattempts] at haccounts
  have hsucceeded : (lists.map Attempt.success).filter Attempt.succeeded =
      lists.map Attempt.success := by
    rw [List.filter_eq_self]
    simp [Attempt.success, Attempt.succeeded]
  have hbroke : (lists.map Attempt.success).find? Attempt.broke = none := by
    rw [List.find?_eq_none]
    simp [Attempt.success, Attempt.broke]
  obtain ⟨records, hrecords, hheld⟩ := haccounts.held_eq_of_none hbroke
  rw [hsucceeded, List.map_map] at hrecords
  refine ⟨?_, records, hrecords, hheld⟩
  rw [haccounts.records_eq, List.countP_eq_length_filter, hsucceeded, List.length_map]

end RecordWriter

/-! ## Reading -/

/-- Whichever way the record of the given index is read from a buffer of records, it has the values.
-/
structure IsReadAs (schema : Schema) (bytes : List UInt8) (i : Nat) (values : List Value) :
    Prop where
  /-- A reader gets it, whatever pieces the bytes come in. -/
  reader : ∀ source : Source, source.Delivers bytes →
    (RecordReader.mk schema source).result i = .ok (some values)
  /-- A cursor comes to it. -/
  cursor : ∀ cursor, schema.cursor bytes = .ok cursor →
    (cursor.after i).next.1 = some (.ok values)
  /-- It stands at its offset. -/
  unpackFrom : schema.unpackFrom bytes (i * schema.size) = .ok values

/-- Whichever way a buffer of records is gone through, there are so many of them. -/
structure EndsAt (schema : Schema) (bytes : List UInt8) (count : Nat) : Prop where
  /-- A reader answers from then on that there are no more records. -/
  reader : ∀ source : Source, source.Delivers bytes → ∀ i ≥ count,
    (RecordReader.mk schema source).result i = .ok none
  /-- There is a cursor, and from then on it gives none, and none are to come. -/
  cursor : ∃ cursor, schema.cursor bytes = .ok cursor ∧ cursor.length = count ∧ ∀ i ≥ count,
    (cursor.after i).next.1 = none ∧ (cursor.after i).length = 0

variable {records : List (List UInt8)}

/-- Records that are put together are as many as there are in the buffer. -/
theorem count_flatten (hsize : 0 < schema.size)
    (hrecords : ∀ record ∈ records, record.length = schema.size) :
    records.flatten.length / schema.size = records.length := by
  rw [length_flatten_of_length_eq hrecords, Nat.mul_div_cancel _ hsize]

/-- Records that are put together are read one by one. -/
theorem isReadAs_of_flatten (hschema : schema.WellFormed) (hsize : 0 < schema.size)
    (hrecords : ∀ record ∈ records, record.length = schema.size) {i : Nat}
    (hi : i < records.length) :
    IsReadAs schema records.flatten i (schema.values records[i]) := by
  have hslice := slice_flatten hrecords hi
  have hwhole : i < records.flatten.length / schema.size := by
    rwa [count_flatten hsize hrecords]
  constructor
  · intro source hdelivers
    rw [RecordReader.result_eq hsize hdelivers, RecordReader.answer_of_lt hschema hwhole,
      Schema.recordAt, hslice]
  · intro cursor hcursor
    obtain ⟨-, rfl, hbytes, hposition⟩ := Schema.cursor_eq_ok_iff.mp hcursor
    have hlength : i < cursor.length := by
      rwa [RecordCursor.length, hbytes, hposition]
    rw [RecordCursor.next_after_of_lt hschema hlength, hbytes, hposition, Nat.zero_add, hslice]
  · have hroom : i * schema.size + schema.size ≤ records.flatten.length := by
      rw [← Nat.succ_mul]
      exact (Nat.le_div_iff_mul_le hsize).mp hwhole
    rw [hschema.unpackFrom_eq hroom, hslice]

/-- Records that are put together come to an end after the last of them. -/
theorem endsAt_of_flatten (hsize : 0 < schema.size)
    (hrecords : ∀ record ∈ records, record.length = schema.size) :
    EndsAt schema records.flatten records.length := by
  have hlength := length_flatten_of_length_eq hrecords
  constructor
  · intro source hdelivers i hi
    -- All bytes have been read by then.
    have hgone : records.flatten.length ≤ i * schema.size := by
      rw [hlength]
      exact Nat.mul_le_mul_right _ hi
    rw [RecordReader.result_eq hsize hdelivers, List.drop_of_length_le hgone,
      RecordReader.answer_nil hsize]
  · have hdvd : schema.size ∣ records.flatten.length := hlength ▸ Nat.dvd_mul_left _ _
    have hcursor : schema.cursor records.flatten =
        .ok ⟨schema, records.flatten.toArray, 0, hsize⟩ :=
      Schema.cursor_eq_ok_iff.mpr ⟨hdvd, rfl, rfl, rfl⟩
    have haligned := Schema.aligned_of_cursor hcursor
    have hcount : RecordCursor.length ⟨schema, records.flatten.toArray, 0, hsize⟩ =
        records.length := by
      rw [← count_flatten hsize hrecords]
      rfl
    refine ⟨_, hcursor, hcount, fun i hi => ?_⟩
    rw [← hcount] at hi
    exact ⟨RecordCursor.next_after_of_le hi, (haligned.after i).length_eq_zero
      (Bool.eq_false_iff.mp (RecordCursor.hasNext_after_of_le hi))⟩

/-! ## Reading what was written -/

/-- The bytes are the records of the lists of arguments, in whichever way they are read. -/
structure ReadsBack (schema : Schema) (lists : List (List Value)) (bytes : List UInt8) : Prop where
  /-- There are as many bytes as so many records have. -/
  length_eq : bytes.length = lists.length * schema.size
  /-- The values of each record are the canonical forms of its own arguments. -/
  record : ∀ i (hi : i < lists.length), ∃ values, IsReadAs schema bytes i values ∧
    Field.CanonicalForms schema.argumentFields lists[i] values
  /-- There are no other records. -/
  ended : EndsAt schema bytes lists.length

/-- Records that were packed are the values of their arguments in whichever way they are read. -/
theorem readsBack_of_pack (hcompile : Schema.compile allocator text = .ok schema)
    (hfields : schema.fields.length ≤ Size.maxSize) (hsize : 0 < schema.size)
    {lists : List (List Value)} (hpack : lists.map schema.pack = records.map .ok) :
    ReadsBack schema lists records.flatten := by
  have hschema := Schema.wellFormed_of_compile hcompile
  have hcount : lists.length = records.length := by
    simpa using congrArg List.length hpack
  have hrecord : ∀ i (hi : i < lists.length), schema.pack lists[i] = .ok records[i] := by
    intro i hi
    simpa [hi, hcount ▸ hi] using congrArg (·[i]?) hpack
  have hrecords : ∀ record ∈ records, record.length = schema.size := by
    intro record hmem
    obtain ⟨i, hi, rfl⟩ := List.getElem_of_mem hmem
    exact Schema.length_of_pack (hrecord i (hcount ▸ hi))
  refine ⟨?_, fun i hi => ⟨schema.values records[i], ?_, ?_⟩, ?_⟩
  · rw [length_flatten_of_length_eq hrecords, hcount]
  · exact isReadAs_of_flatten hschema hsize hrecords (hcount ▸ hi)
  · exact hschema.canonicalForms_of_pack (Schema.argumentCount_eq hcompile hfields) (hrecord i hi)
  · rw [hcount]
    exact endsAt_of_flatten hsize hrecords

namespace RecordWriter

/-- Lists of arguments that can all be packed are written, in whichever requests, to a sink that has
no limit, however many bytes it takes in a call and however many calls it interrupts. What it holds
is their records, in whichever way they are read. The fields, which are a list in memory, are no
more than a size can say. -/
theorem readsBack_of_unlimited {sink : Sink} {requests : List Request}
    (hcompile : Schema.compile allocator text = .ok schema)
    (hfields : schema.fields.length ≤ Size.maxSize) (hsize : 0 < schema.size)
    (hsink : sink.Unlimited)
    (hpack : ∀ arguments ∈ requests.flatMap Request.argumentLists, schema.Packs arguments) :
    (start schema sink).attempts requests =
        (requests.flatMap Request.argumentLists).map Attempt.success ∧
      ((start schema sink).after requests).records =
        Size.checked (requests.flatMap Request.argumentLists).length ∧
      ∃ bytes, ((start schema sink).after requests).sink.held = sink.held ++ bytes ∧
        ReadsBack schema (requests.flatMap Request.argumentLists) bytes := by
  have hready : Ready schema (start schema sink) := ⟨rfl, hsink⟩
  obtain ⟨hcount, records, hrecords, hheld⟩ := exists_held_eq hsink requests hpack
  exact ⟨hready.attempts_eq requests hpack, hcount, records.flatten, hheld,
    readsBack_of_pack hcompile hfields hsize hrecords⟩

/-- Three records, one written alone and two in a batch, to a sink that takes one byte in a call and
interrupts the first two. -/
theorem readsBack_of_unlimited_single_bytes : ∃ (schema : Schema) (sink : Sink)
    (requests : List Request), Schema.compile .generous ">Hb" = .ok schema ∧
    schema.fields.length ≤ Size.maxSize ∧ 0 < schema.size ∧ sink.Unlimited ∧
    requests = [.write [.uint 258, .int (-1)], .flush,
      .writeBatch [[.int 3, .int 4], [.uint 5, .uint 6]]] ∧
    (∀ arguments ∈ requests.flatMap Request.argumentLists, schema.Packs arguments) ∧
    (start schema sink).attempts requests =
      (requests.flatMap Request.argumentLists).map Attempt.success ∧
    ((start schema sink).after requests).records = some 3 ∧
    ∃ bytes, ((start schema sink).after requests).sink.held = bytes ∧
      ReadsBack schema (requests.flatMap Request.argumentLists) bytes := by
  have hcompile : Schema.compile .generous ">Hb" = .ok
      ⟨">Hb", .big, [⟨'H', .unsigned, 2, 2⟩, ⟨'b', .signed, 1, 1⟩], ⟨[0, 2], 3⟩, 2⟩ := by
    decide +kernel
  have hfields : 2 ≤ Size.maxSize := by decide
  have hsize : 0 < Schema.size
      ⟨">Hb", .big, [⟨'H', .unsigned, 2, 2⟩, ⟨'b', .signed, 1, 1⟩], ⟨[0, 2], 3⟩, 2⟩ := by
    decide
  have hsink : Sink.Unlimited ⟨none, some 1, 2, none, none, []⟩ := ⟨rfl, by decide⟩
  have hpack : ∀ arguments ∈ ([.write [.uint 258, .int (-1)], .flush,
      .writeBatch [[.int 3, .int 4], [.uint 5, .uint 6]]] : List Request).flatMap
        Request.argumentLists,
      Schema.Packs
        ⟨">Hb", .big, [⟨'H', .unsigned, 2, 2⟩, ⟨'b', .signed, 1, 1⟩], ⟨[0, 2], 3⟩, 2⟩
        arguments := by
    have hfirst : Schema.pack
        ⟨">Hb", .big, [⟨'H', .unsigned, 2, 2⟩, ⟨'b', .signed, 1, 1⟩], ⟨[0, 2], 3⟩, 2⟩
        [.uint 258, .int (-1)] = .ok [1, 2, 255] := by
      decide +kernel
    have hsecond : Schema.pack
        ⟨">Hb", .big, [⟨'H', .unsigned, 2, 2⟩, ⟨'b', .signed, 1, 1⟩], ⟨[0, 2], 3⟩, 2⟩
        [.int 3, .int 4] = .ok [0, 3, 4] := by
      decide +kernel
    have hthird : Schema.pack
        ⟨">Hb", .big, [⟨'H', .unsigned, 2, 2⟩, ⟨'b', .signed, 1, 1⟩], ⟨[0, 2], 3⟩, 2⟩
        [.uint 5, .uint 6] = .ok [0, 5, 6] := by
      decide +kernel
    simp [Request.argumentLists, Schema.Packs, hfirst, hsecond, hthird]
  obtain ⟨hattempts, hcount, bytes, hheld, hback⟩ :=
    readsBack_of_unlimited hcompile hfields hsize hsink hpack
  exact ⟨_, _, _, hcompile, hfields, hsize, hsink, rfl, hpack, hattempts, hcount, bytes, hheld,
    hback⟩

end RecordWriter

end BinaryRecord
