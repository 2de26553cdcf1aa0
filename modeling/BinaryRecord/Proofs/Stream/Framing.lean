import BinaryRecord.Proofs.Stream.BufferedReader
import BinaryRecord.Proofs.Stream.RecordReader

/-!
# Records are framed by the calls that read them

Whatever a source does, the bytes that it delivers are split into one piece for each call to `read`
(`framesRecords`). The piece of a call that gives a record is the record. That of a call that fails
is shorter than a record, and its bytes are gone: the next call starts a record of its own. The
piece of a call that finds the source at its end is empty.

Hence the bytes that were delivered are those of the records and those that were lost
(`Sound.length_pieces`). The answer that there are no more records says only that the call got no
bytes before the source ended. Whether it is an end between two records depends on the bytes that
were lost before (`endsAfter_of_ended`): after a record that was cut off, the same end is reported
as one between records (`ended_after_truncated`).
-/

namespace BinaryRecord.BufferedReader

variable {allocator : Allocator} {text : String} {reader : BufferedReader}

/-! ## Runs -/

/-- The reader after a number of calls to `read`. -/
def after (reader : BufferedReader) (calls : Nat) : BufferedReader :=
  (fun reader : BufferedReader => reader.read.2)^[calls] reader

/-- What the call to `read` of the given index answers. The index of the first call is 0. -/
def result (reader : BufferedReader) (i : Nat) : Except PackError (Option (List Value)) :=
  (reader.after i).read.1

/-- The calls to the source that it makes. -/
def callsOf (reader : BufferedReader) (i : Nat) : List SourceCall :=
  (reader.after (i + 1)).calls

/-- The bytes that are delivered in it. -/
def piece (reader : BufferedReader) (i : Nat) : List UInt8 :=
  delivered (reader.callsOf i)

/-- The bytes that are delivered in the first `n` calls to `read`. -/
def pieces (reader : BufferedReader) (n : Nat) : List UInt8 :=
  (List.range n).flatMap reader.piece

/-- The bytes that the call to `read` of the given index leaves out of any record. -/
def waste (reader : BufferedReader) (i : Nat) : List UInt8 :=
  if (reader.result i).isOk then [] else reader.piece i

/-- The bytes that are lost in the first `n` calls to `read`. -/
def lost (reader : BufferedReader) (n : Nat) : List UInt8 :=
  (List.range n).flatMap reader.waste

/-- The call to `read` of the given index gives a record. -/
def givesRecord (reader : BufferedReader) (i : Nat) : Bool :=
  reader.result i matches .ok (some _)

/-- The number of the first `n` calls to `read` that give a record. -/
def recordCount (reader : BufferedReader) (n : Nat) : Nat :=
  (List.range n).countP reader.givesRecord

/-- One more call is made by the reader that the others have left. -/
theorem after_succ (reader : BufferedReader) (n : Nat) :
    reader.after (n + 1) = (reader.after n).read.2 :=
  Function.iterate_succ_apply' _ _ _

/-- The bytes of one more call follow those of the others. -/
theorem pieces_succ (reader : BufferedReader) (n : Nat) :
    reader.pieces (n + 1) = reader.pieces n ++ reader.piece n := by
  rw [pieces, pieces, List.range_succ, List.flatMap_append, List.flatMap_singleton]

/-- The bytes lost in one more call follow those lost in the others. -/
theorem lost_succ (reader : BufferedReader) (n : Nat) :
    reader.lost (n + 1) = reader.lost n ++ reader.waste n := by
  rw [lost, lost, List.range_succ, List.flatMap_append, List.flatMap_singleton]

/-- One more call gives a record or does not. -/
theorem recordCount_succ (reader : BufferedReader) (n : Nat) :
    reader.recordCount (n + 1) = reader.recordCount n + (reader.givesRecord n).toNat := by
  rw [recordCount, recordCount, List.range_succ, List.countP_append, List.countP_singleton]
  cases reader.givesRecord n <;> rfl

/-- From call to call, a reader has the same schema, and room for one record of it. -/
theorem Sound.after (h : reader.Sound) (n : Nat) :
    (reader.after n).Sound ∧ (reader.after n).schema = reader.schema := by
  induction n with
  | zero => exact ⟨h, rfl⟩
  | succ n ih =>
    obtain ⟨hsound, hschema⟩ := ih
    rw [after_succ]
    exact ⟨hsound.of_reads hsound.reads, hsound.reads.schema_eq.trans hschema⟩

/-- Each call to `read` reads one record. -/
theorem Sound.reads_after (h : reader.Sound) (n : Nat) :
    Reads (reader.after n) (reader.result n) (reader.after (n + 1)) := by
  rw [after_succ]
  exact (h.after n).1.reads

/-! ## Framing -/

/-- The calls to `read` frame the bytes of the source. -/
structure FramesRecords (reader : BufferedReader) : Prop where
  /-- Each call takes up the source where the one before it has left it. -/
  plays : ∀ i, (reader.after i).source.Plays (reader.callsOf i) (reader.after (i + 1)).source
  /-- The pieces are what the source delivers, in order and without a gap, and it holds the rest. -/
  bytes_eq : ∀ n, reader.source.bytes = reader.pieces n ++ (reader.after n).source.bytes
  /-- The answer to each call is that of its own piece. -/
  framed : ∀ i, Framed reader.schema (reader.callsOf i) (reader.result i)
  /-- No call asks the source for more than the rest of its record. -/
  asks : ∀ i, AskForRest reader.schema.size (reader.callsOf i)
  /-- A reader without a buffer leaves the source as this one does, whatever its buffer holds. -/
  after_eq : ∀ n, (RecordReader.mk reader.schema reader.source).after n =
    ⟨reader.schema, (reader.after n).source⟩
  /-- It gives the same answers. -/
  result_eq : ∀ i, (RecordReader.mk reader.schema reader.source).result i = reader.result i

/-- The answer to each call is that of its own piece. -/
theorem Sound.framed_result (h : reader.Sound) (i : Nat) :
    Framed reader.schema (reader.callsOf i) (reader.result i) := by
  have hframed := (h.reads_after i).framed
  rwa [(h.after i).2] at hframed

/-- Each call asks for the rest of one record. -/
theorem Sound.askForRest (h : reader.Sound) (i : Nat) :
    AskForRest reader.schema.size (reader.callsOf i) := by
  have hasks := (h.reads_after i).asks
  rwa [(h.after i).2] at hasks

/-- Where the source is left by the same calls before, a reader without a buffer reads the same. -/
theorem Sound.read_eq (h : reader.Sound) (i : Nat) :
    (RecordReader.mk reader.schema (reader.after i).source).read =
      (reader.result i, ⟨reader.schema, (reader.after (i + 1)).source⟩) := by
  have hread := (h.reads_after i).read_eq
  rwa [(h.after i).2] at hread

/-- A reader without a buffer leaves the source as one with a buffer does. -/
theorem Sound.after_recordReader (h : reader.Sound) (n : Nat) :
    (RecordReader.mk reader.schema reader.source).after n =
      ⟨reader.schema, (reader.after n).source⟩ := by
  induction n with
  | zero => rfl
  | succ n ih => rw [RecordReader.after_succ, ih, h.read_eq]

/-- The bytes of the source are the pieces of the first calls and what it holds after them. -/
theorem Sound.bytes_eq_pieces (h : reader.Sound) (n : Nat) :
    reader.source.bytes = reader.pieces n ++ (reader.after n).source.bytes := by
  induction n with
  | zero => rfl
  | succ n ih =>
    calc reader.source.bytes
        = reader.pieces n ++ (reader.after n).source.bytes := ih
      _ = reader.pieces n ++ (reader.piece n ++ (reader.after (n + 1)).source.bytes) := by
          rw [(h.reads_after n).plays.bytes_eq]
          rfl
      _ = reader.pieces (n + 1) ++ (reader.after (n + 1)).source.bytes := by
          rw [pieces_succ, List.append_assoc]

/-- Reading frames the bytes of any source into records, from a buffer with any bytes in it. -/
theorem framesRecords (hcompile : Schema.compile allocator text = .ok reader.schema)
    (hsize : 0 < reader.schema.size) (hbuffer : reader.buffer.length = reader.schema.size) :
    FramesRecords reader := by
  have hsound : reader.Sound := ⟨Schema.wellFormed_of_compile hcompile, hsize, hbuffer⟩
  constructor
  · exact fun i => (hsound.reads_after i).plays
  · exact hsound.bytes_eq_pieces
  · exact hsound.framed_result
  · exact hsound.askForRest
  · exact hsound.after_recordReader
  · intro i
    rw [RecordReader.result, hsound.after_recordReader, hsound.read_eq]

/-- A record in two pieces with an interruption between them, a failure in the next record, and the
end of the stream in the one after it, read into a buffer that is not clear. -/
theorem framesRecords_interrupted_record :
    Schema.compile .generous ">H" = .ok ⟨">H", .big, [⟨'H', .unsigned, 2, 2⟩], ⟨[0], 2⟩, 1⟩ ∧
    0 < Schema.size ⟨">H", .big, [⟨'H', .unsigned, 2, 2⟩], ⟨[0], 2⟩, 1⟩ ∧
    FramesRecords ⟨⟨">H", .big, [⟨'H', .unsigned, 2, 2⟩], ⟨[0], 2⟩, 1⟩,
      ⟨[.data 1 [], .failure ⟨.interrupted, ""⟩, .data 2 [3], .failure ⟨.other, "lost"⟩, .data 4 [],
        .ended]⟩, [7, 9], []⟩ := by
  have hcompile : Schema.compile .generous ">H" = .ok
      ⟨">H", .big, [⟨'H', .unsigned, 2, 2⟩], ⟨[0], 2⟩, 1⟩ := by
    decide +kernel
  have hsize : 0 < Schema.size ⟨">H", .big, [⟨'H', .unsigned, 2, 2⟩], ⟨[0], 2⟩, 1⟩ := by decide
  exact ⟨hcompile, hsize, framesRecords hcompile hsize rfl⟩

/-! ## The end of a stream -/

/-- The bytes of a call are a record if it gives one, and otherwise they are lost. -/
theorem Sound.length_piece (h : reader.Sound) (i : Nat) :
    (reader.piece i).length =
      reader.schema.size * (reader.givesRecord i).toNat + (reader.waste i).length := by
  have hframed := h.framed_result i
  unfold givesRecord waste
  unfold piece
  generalize reader.result i = result at hframed ⊢
  cases hframed with
  | record hlength => simpa [Except.isOk, Except.toBool] using hlength
  | truncated => simp [Except.isOk, Except.toBool]
  | failed => simp [Except.isOk, Except.toBool]
  | ended hnone => simp [Except.isOk, Except.toBool, hnone]

/-- The bytes that were delivered are those of the records and those that were lost. -/
theorem Sound.length_pieces (h : reader.Sound) (n : Nat) :
    (reader.pieces n).length =
      reader.schema.size * reader.recordCount n + (reader.lost n).length := by
  induction n with
  | zero => rfl
  | succ n ih =>
    rw [pieces_succ, lost_succ, recordCount_succ, List.length_append, List.length_append, ih,
      h.length_piece, Nat.mul_add]
    omega

/-- No bytes are lost while no call fails. -/
theorem lost_eq_nil {n : Nat} (h : ∀ i < n, (reader.result i).isOk = true) :
    reader.lost n = [] := by
  unfold lost waste
  rw [List.flatMap_eq_nil_iff]
  intro i hi
  rw [if_pos (h i (List.mem_range.mp hi))]

/-- What the answer of a call that there are no more records says about the bytes delivered so far.
-/
structure EndsAfter (reader : BufferedReader) (n : Nat) : Prop where
  /-- The last call to the source got nothing. -/
  last : (reader.callsOf n).getLast?.map (·.result) = some (.ok [])
  /-- The bytes are those of the records and those that were lost before. -/
  length_eq : (reader.pieces (n + 1)).length =
    reader.schema.size * reader.recordCount n + (reader.lost n).length
  /-- They make up whole records exactly where the lost ones do. -/
  size_dvd_iff : reader.schema.size ∣ (reader.pieces (n + 1)).length ↔
    reader.schema.size ∣ (reader.lost n).length
  /-- Where no call has failed before, they do. -/
  size_dvd : (∀ i < n, (reader.result i).isOk = true) →
    reader.schema.size ∣ (reader.pieces (n + 1)).length

/-- A call that answers that there are no more records has got no bytes, so that the bytes up to the
end are those of the calls before it. -/
theorem endsAfter_of_ended {n : Nat} (hcompile : Schema.compile allocator text = .ok reader.schema)
    (hsize : 0 < reader.schema.size) (hbuffer : reader.buffer.length = reader.schema.size)
    (hended : reader.result n = .ok none) : EndsAfter reader n := by
  have hsound : reader.Sound := ⟨Schema.wellFormed_of_compile hcompile, hsize, hbuffer⟩
  have hframed := hsound.framed_result n
  rw [hended] at hframed
  obtain ⟨hnone, hlast⟩ : reader.piece n = [] ∧
      (reader.callsOf n).getLast?.map (·.result) = some (.ok []) := by
    cases hframed with
    | ended hnone hlast => exact ⟨hnone, hlast⟩
  have hlength : (reader.pieces (n + 1)).length =
      reader.schema.size * reader.recordCount n + (reader.lost n).length := by
    rw [pieces_succ, hnone, List.append_nil, hsound.length_pieces]
  have hiff : reader.schema.size ∣ (reader.pieces (n + 1)).length ↔
      reader.schema.size ∣ (reader.lost n).length := by
    rw [hlength, Nat.dvd_add_right (Nat.dvd_mul_right _ _)]
  refine ⟨hlast, hlength, hiff, fun hsucceeded => ?_⟩
  rw [hiff, lost_eq_nil hsucceeded]
  exact Nat.dvd_zero _

/-- The end of a stream, after one record and a failure between two of its bytes. -/
theorem endsAfter_of_ended_failure :
    (mk ⟨">H", .big, [⟨'H', .unsigned, 2, 2⟩], ⟨[0], 2⟩, 1⟩
      ⟨[.data 1 [2, 3], .failure ⟨.other, "lost"⟩, .data 4 [5]]⟩ [0, 0] []).result 3 = .ok none ∧
    EndsAfter ⟨⟨">H", .big, [⟨'H', .unsigned, 2, 2⟩], ⟨[0], 2⟩, 1⟩,
      ⟨[.data 1 [2, 3], .failure ⟨.other, "lost"⟩, .data 4 [5]]⟩, [0, 0], []⟩ 3 := by
  have hcompile : Schema.compile .generous ">H" = .ok
      ⟨">H", .big, [⟨'H', .unsigned, 2, 2⟩], ⟨[0], 2⟩, 1⟩ := by
    decide +kernel
  have hended : (mk ⟨">H", .big, [⟨'H', .unsigned, 2, 2⟩], ⟨[0], 2⟩, 1⟩
      ⟨[.data 1 [2, 3], .failure ⟨.other, "lost"⟩, .data 4 [5]]⟩ [0, 0] []).result 3 =
        .ok none := by
    decide +kernel
  exact ⟨hended, endsAfter_of_ended hcompile (by decide) rfl hended⟩

/-- A stream of one byte ends within its only record of two. The call after the one that fails for
that reason answers that there are no more records, as after a whole number of them. -/
theorem ended_after_truncated : ∃ reader : BufferedReader,
    Schema.compile .generous ">H" = .ok reader.schema ∧ 0 < reader.schema.size ∧
      reader.buffer.length = reader.schema.size ∧
      reader.result 0 = .error (.stream (.truncated 1 2)) ∧ reader.result 1 = .ok none ∧
      ¬ reader.schema.size ∣ (reader.pieces 2).length := by
  refine ⟨⟨⟨">H", .big, [⟨'H', .unsigned, 2, 2⟩], ⟨[0], 2⟩, 1⟩, ⟨[.data 1 []]⟩, [0, 0], []⟩, ?_⟩
  decide +kernel

end BinaryRecord.BufferedReader
