import BinaryRecord.Proofs.Stream.Framing

/-!
# Batches can be split anywhere

A batch of records is read by a loop that stops when there are as many as were asked for, at the end
of the source or at an error. `BufferedReader.readBatch` is this loop, for the reader with one
buffer, and notes all calls that it makes to the source. What it comes to is said by the calls to
`read` of which it consists (`BatchOutcome`): just those up to the last one that it needs.

Two batches, one after the other, are one batch of both counts where the first one is full, and a
batch that is not full is that of any larger count, too (`collect_add_of_full` and
`collect_add_of_not_full`, both by induction on the first count). `SplitsBatches` puts these
together with what a failure leaves of the source. It holds of readers of records of no bytes as
well, for which every call to `read` fails.
-/

namespace BinaryRecord

/-- What reading a batch comes to. -/
structure Batch where
  /-- The records, or the error of the call to `read` that failed. -/
  result : Except PackError (List (List Value))
  /-- The reader after the batch. -/
  reader : BufferedReader
  /-- All calls to the source, first to last. -/
  calls : List SourceCall

/-- The batch with records and calls of an earlier one in front of its own. -/
def Batch.behind (batch : Batch) (records : List (List Value)) (calls : List SourceCall) : Batch :=
  ⟨batch.result.map (records ++ ·), batch.reader, calls ++ batch.calls⟩

/-- What is put in front twice is put in front once, all together. -/
theorem Batch.behind_behind (batch : Batch) (records earlier : List (List Value))
    (calls before : List SourceCall) :
    (batch.behind records calls).behind earlier before =
      batch.behind (earlier ++ records) (before ++ calls) := by
  obtain ⟨result, reader, own⟩ := batch
  unfold behind
  cases result <;> simp [Except.map]

namespace BufferedReader

variable {allocator : Allocator} {text : String} {reader next : BufferedReader}
  {records all : List (List Value)}
  {record : List Value} {calls more : List SourceCall} {e : PackError} {m n : Nat}

/-- The loop over a batch of which some records are there and others are missing. -/
def collect (reader : BufferedReader) (records : List (List Value)) (calls : List SourceCall) :
    (missing : Nat) → Batch
  | 0 => ⟨.ok records, reader, calls⟩
  | missing + 1 =>
    let next := reader.read.2
    let calls := calls ++ next.calls
    match reader.read.1 with
    | .error e => ⟨.error e, next, calls⟩
    | .ok none => ⟨.ok records, next, calls⟩
    | .ok (some record) => next.collect (records ++ [record]) calls missing

/-- Up to `count` records, fewer where the source ends before. -/
def readBatch (reader : BufferedReader) (count : Nat) : Batch :=
  reader.collect [] [] count

/-! ## The loop -/

/-- A call that fails ends the loop with its error. -/
theorem collect_of_error (h : reader.read.1 = .error e) :
    reader.collect records calls (n + 1) =
      ⟨.error e, reader.read.2, calls ++ reader.read.2.calls⟩ := by
  simp only [collect, h]

/-- The end of the source ends the loop with the records that are there. -/
theorem collect_of_none (h : reader.read.1 = .ok none) :
    reader.collect records calls (n + 1) =
      ⟨.ok records, reader.read.2, calls ++ reader.read.2.calls⟩ := by
  simp only [collect, h]

/-- A record is put behind those that are there. -/
theorem collect_of_some (h : reader.read.1 = .ok (some record)) :
    reader.collect records calls (n + 1) =
      reader.read.2.collect (records ++ [record]) (calls ++ reader.read.2.calls) n := by
  simp only [collect, h]

/-- A call to `read` fails, ends, or gives a record. -/
theorem read_cases (reader : BufferedReader) : (∃ e, reader.read.1 = .error e) ∨
    reader.read.1 = .ok none ∨ ∃ record, reader.read.1 = .ok (some record) := by
  rcases reader.read.1 with e | _ | record
  · exact .inl ⟨e, rfl⟩
  · exact .inr (.inl rfl)
  · exact .inr (.inr ⟨record, rfl⟩)

/-- What is there at first makes no difference to what is read. -/
theorem collect_eq_behind (reader : BufferedReader) (records : List (List Value))
    (calls : List SourceCall) (n : Nat) :
    reader.collect records calls n = (reader.readBatch n).behind records calls := by
  induction n generalizing reader records calls with
  | zero => simp [readBatch, collect, Batch.behind, Except.map]
  | succ n ih =>
    unfold readBatch
    rcases reader.read_cases with ⟨e, hread⟩ | hread | ⟨record, hread⟩
    · rw [collect_of_error hread, collect_of_error hread]
      rfl
    · rw [collect_of_none hread, collect_of_none hread]
      simp [Batch.behind, Except.map]
    · rw [collect_of_some hread, collect_of_some hread, ih, ih _ ([] ++ [record]),
        Batch.behind_behind]
      rfl

/-- Where the first records are all there, the loop goes on for the others. -/
theorem collect_add_of_full (h : reader.collect records calls m = ⟨.ok all, next, more⟩)
    (hfull : all.length = records.length + m) (n : Nat) :
    reader.collect records calls (m + n) = next.collect all more n := by
  induction m generalizing reader records calls with
  | zero =>
    obtain ⟨rfl, rfl, rfl⟩ : records = all ∧ reader = next ∧ calls = more := by
      simpa [collect] using h
    rw [Nat.zero_add]
  | succ m ih =>
    rw [Nat.succ_add]
    rcases reader.read_cases with ⟨e, hread⟩ | hread | ⟨record, hread⟩
    · rw [collect_of_error hread] at h
      simp at h
    · rw [collect_of_none hread] at h
      obtain ⟨rfl, -, -⟩ : records = all ∧ _ ∧ _ := by simpa using h
      omega
    · rw [collect_of_some hread] at h ⊢
      apply ih h
      rw [hfull, List.length_append, List.length_singleton]
      omega

/-- Where the loop has ended before, it does so for any larger count. -/
theorem collect_add_of_not_full
    (h : ∀ all, (reader.collect records calls m).result = .ok all → all.length < records.length + m)
    (n : Nat) : reader.collect records calls (m + n) = reader.collect records calls m := by
  induction m generalizing reader records calls with
  | zero => exact absurd (h records rfl) (by omega)
  | succ m ih =>
    rw [Nat.succ_add]
    rcases reader.read_cases with ⟨e, hread⟩ | hread | ⟨record, hread⟩
    · rw [collect_of_error hread, collect_of_error hread]
    · rw [collect_of_none hread, collect_of_none hread]
    · rw [collect_of_some hread] at h
      rw [collect_of_some hread, collect_of_some hread]
      apply ih
      intro all hall
      have hless := h all hall
      rw [List.length_append, List.length_singleton]
      omega

/-! ## The calls of a batch -/

/-- The calls to the source that the first `n` calls to `read` make. -/
def callsUpTo (reader : BufferedReader) (n : Nat) : List SourceCall :=
  (List.range n).flatMap reader.callsOf

/-- The calls of one more call to `read` follow those of the others. -/
theorem callsUpTo_succ (reader : BufferedReader) (n : Nat) :
    reader.callsUpTo (n + 1) = reader.callsUpTo n ++ (reader.after n).read.2.calls := by
  rw [callsUpTo, callsUpTo, List.range_succ, List.flatMap_append, List.flatMap_singleton, callsOf,
    after_succ]

/-- The first calls to `read` give the records. -/
def GivesFirst (reader : BufferedReader) (records : List (List Value)) : Prop :=
  (List.range records.length).map reader.result = records.map fun record => .ok (some record)

/-- The records that calls to `read` give are one more where the next call gives one. -/
theorem GivesFirst.concat (h : reader.GivesFirst records)
    (hnext : reader.result records.length = .ok (some record)) :
    reader.GivesFirst (records ++ [record]) := by
  unfold GivesFirst at h ⊢
  rw [List.length_append, List.length_singleton, List.range_succ, List.map_append, h,
    List.map_append, List.map_singleton, hnext]
  rfl

/-- What a batch comes to, by the calls to `read` of which it consists. It makes as many of them as
records are asked for, or else as many as it takes to find the end or an error. -/
inductive BatchOutcome (reader : BufferedReader) (count : Nat) : Batch → Prop
  | full {records : List (List Value)} (hcount : records.length = count)
      (hrecords : reader.GivesFirst records) :
      BatchOutcome reader count ⟨.ok records, reader.after count, reader.callsUpTo count⟩
  | ended {records : List (List Value)} (hcount : records.length < count)
      (hrecords : reader.GivesFirst records) (hended : reader.result records.length = .ok none) :
      BatchOutcome reader count
        ⟨.ok records, reader.after (records.length + 1), reader.callsUpTo (records.length + 1)⟩
  | failed {records : List (List Value)} {e : PackError} (hcount : records.length < count)
      (hrecords : reader.GivesFirst records) (hfailed : reader.result records.length = .error e) :
      BatchOutcome reader count
        ⟨.error e, reader.after (records.length + 1), reader.callsUpTo (records.length + 1)⟩

/-- From where the first records are there, the loop comes to what the whole batch does. -/
theorem collect_outcome (hrecords : reader.GivesFirst records) (missing : Nat) :
    BatchOutcome reader (records.length + missing)
      ((reader.after records.length).collect records (reader.callsUpTo records.length)
        missing) := by
  induction missing generalizing records with
  | zero => exact .full rfl hrecords
  | succ missing ih =>
    have hless : records.length < records.length + (missing + 1) := by omega
    rcases (reader.after records.length).read_cases with ⟨e, hread⟩ | hread | ⟨record, hread⟩
    · rw [collect_of_error hread, ← callsUpTo_succ, ← after_succ]
      exact .failed hless hrecords hread
    · rw [collect_of_none hread, ← callsUpTo_succ, ← after_succ]
      exact .ended hless hrecords hread
    · have hnext := ih (hrecords.concat hread)
      rw [List.length_append, List.length_singleton, Nat.add_assoc, Nat.add_comm 1] at hnext
      rwa [collect_of_some hread, ← callsUpTo_succ, ← after_succ]

/-- A batch consists of calls to `read`. -/
theorem readBatch_outcome (reader : BufferedReader) (count : Nat) :
    BatchOutcome reader count (reader.readBatch count) := by
  have hnone : reader.GivesFirst [] := rfl
  have houtcome := collect_outcome hnone count
  rwa [List.length_nil, Nat.zero_add] at houtcome

/-! ## The bytes of a batch -/

/-- The buffer takes just one record, which may be one of no bytes. -/
structure Fitted (reader : BufferedReader) : Prop where
  /-- The schema is well formed. -/
  wellFormed : reader.schema.WellFormed
  /-- The buffer is as long as a record. -/
  length_buffer : reader.buffer.length = reader.schema.size

namespace Fitted

/-- A record of no bytes cannot be read, and no call is made for it. -/
theorem read_of_size_eq_zero (h : reader.Fitted) (hsize : reader.schema.size = 0) :
    reader.read = (.error .zeroSizedRecord, { reader with calls := [] }) := by
  have hbuffer : reader.buffer = [] := List.eq_nil_of_length_eq_zero (h.length_buffer.trans hsize)
  simp only [BufferedReader.read, hbuffer, if_true]

/-- A call to `read` keeps the schema and the length of the buffer, notes the calls that the source
answers, and comes to what it does without a buffer. -/
theorem read (h : reader.Fitted) :
    reader.read.2.Fitted ∧ reader.read.2.schema = reader.schema ∧
      reader.source.Plays reader.read.2.calls reader.read.2.source ∧
      (RecordReader.mk reader.schema reader.source).read =
        (reader.read.1, ⟨reader.schema, reader.read.2.source⟩) := by
  rcases Nat.eq_zero_or_pos reader.schema.size with hsize | hsize
  · rw [h.read_of_size_eq_zero hsize]
    refine ⟨⟨h.wellFormed, h.length_buffer⟩, rfl, .nil _, ?_⟩
    simp only [RecordReader.read, hsize, if_true]
  · have hsound : reader.Sound := ⟨h.wellFormed, hsize, h.length_buffer⟩
    have hreads := hsound.reads
    have hafter := hsound.of_reads hreads
    exact ⟨⟨hafter.wellFormed, hafter.length_buffer⟩, hreads.schema_eq, hreads.plays,
      hreads.read_eq⟩

/-- From call to call, a reader has the same schema, and room for just one record of it. -/
theorem after (h : reader.Fitted) (n : Nat) :
    (reader.after n).Fitted ∧ (reader.after n).schema = reader.schema := by
  induction n with
  | zero => exact ⟨h, rfl⟩
  | succ n ih =>
    obtain ⟨hfitted, hschema⟩ := ih
    obtain ⟨hnext, hsame, -, -⟩ := hfitted.read
    rw [after_succ]
    exact ⟨hnext, hsame.trans hschema⟩

/-- The source answers the calls that are noted, one call to `read` after the other. -/
theorem plays_callsUpTo (h : reader.Fitted) (n : Nat) :
    reader.source.Plays (reader.callsUpTo n) (reader.after n).source := by
  induction n with
  | zero => exact .nil _
  | succ n ih =>
    obtain ⟨-, -, hplays, -⟩ := (h.after n).1.read
    rw [callsUpTo_succ, after_succ]
    exact ih.append hplays

/-- The bytes of the source are the pieces of the first calls to `read` and what it holds after
them. -/
theorem bytes_eq_pieces (h : reader.Fitted) (n : Nat) :
    reader.source.bytes = reader.pieces n ++ (reader.after n).source.bytes := by
  have hpieces : delivered (reader.callsUpTo n) = reader.pieces n := List.flatMap_assoc
  rw [(h.plays_callsUpTo n).bytes_eq, hpieces]

/-- The piece of a call that gives a record is the record. -/
theorem piece_of_record (h : reader.Fitted) {i : Nat}
    (hrecord : reader.result i = .ok (some record)) :
    (reader.piece i).length = reader.schema.size ∧
      reader.schema.unpack (reader.piece i) = .ok record := by
  obtain ⟨hfitted, hschema⟩ := h.after i
  rcases Nat.eq_zero_or_pos reader.schema.size with hsize | hsize
  · rw [result, hfitted.read_of_size_eq_zero (hschema ▸ hsize)] at hrecord
    contradiction
  · have hsound : reader.Sound := ⟨h.wellFormed, hsize, h.length_buffer⟩
    have hframed := hsound.framed_result i
    rw [hrecord] at hframed
    cases hframed with
    | record hlength hunpack => exact ⟨hlength, hunpack⟩

/-- A reader without a buffer reads the same batches, and leaves the source as this one does. -/
theorem readBatch_eq (h : reader.Fitted) (n : Nat) :
    (RecordReader.mk reader.schema reader.source).readBatch n =
      ((reader.readBatch n).result, ⟨reader.schema, (reader.readBatch n).reader.source⟩) := by
  induction n generalizing reader with
  | zero => rfl
  | succ n ih =>
    obtain ⟨hnext, hschema, -, hplain⟩ := h.read
    unfold RecordReader.readBatch readBatch
    rw [hplain]
    rcases reader.read_cases with ⟨e, hread⟩ | hread | ⟨record, hread⟩
    · rw [collect_of_error hread, hread]
    · rw [collect_of_none hread, hread]
    · have hrest := ih hnext
      rw [hschema] at hrest
      rw [collect_of_some hread, hread, collect_eq_behind]
      simp only [hrest, Batch.behind]
      cases (reader.read.2.readBatch n).result <;> rfl

end Fitted

/-! ## Splitting batches -/

/-- Batches that are read one after the other are one batch, and each is what repeated calls to
`read` come to. -/
structure SplitsBatches (reader : BufferedReader) : Prop where
  /-- A batch makes calls to `read` until it has as many records as are asked for, or one of them
  finds the end or fails. It makes no other calls to the source than these do. -/
  outcome : ∀ count, BatchOutcome reader count (reader.readBatch count)
  /-- It never gives more records than are asked for. -/
  length_le : ∀ count records, (reader.readBatch count).result = .ok records →
    records.length ≤ count
  /-- After a batch with all its records, a batch of more records gives the rest of one of both
  counts, or its error. It makes the rest of the calls to the source. -/
  add_of_full : ∀ m n records, (reader.readBatch m).result = .ok records → records.length = m →
    reader.readBatch (m + n) =
      ((reader.readBatch m).reader.readBatch n).behind records (reader.readBatch m).calls
  /-- A batch that has found the end is that of any larger count. -/
  add_of_ended : ∀ m n records, (reader.readBatch m).result = .ok records → records.length < m →
    reader.readBatch (m + n) = reader.readBatch m
  /-- So is a batch that has failed. -/
  add_of_failed : ∀ m n e, (reader.readBatch m).result = .error e →
    reader.readBatch (m + n) = reader.readBatch m
  /-- A batch that fails has read some records, which are not given. Its error is that of the next
  call to `read`. The source has delivered the bytes of these records and those of the call that
  failed, and holds the others. -/
  failed : ∀ m e, (reader.readBatch m).result = .error e → ∃ records : List (List Value),
    records.length < m ∧ reader.GivesFirst records ∧ reader.result records.length = .error e ∧
      (∀ i record, records[i]? = some record → (reader.piece i).length = reader.schema.size ∧
        reader.schema.unpack (reader.piece i) = .ok record) ∧
      reader.source.bytes = reader.pieces records.length ++
        (reader.piece records.length ++ (reader.readBatch m).reader.source.bytes)
  /-- A batch of no records makes no calls to the source and changes nothing, whatever the size of a
  record is. -/
  zero : reader.readBatch 0 = ⟨.ok [], reader, []⟩
  /-- The calls of a batch are those that the source answers, from the point where it is at first to
  that where the batch leaves it. -/
  plays : ∀ count, reader.source.Plays (reader.readBatch count).calls
    (reader.readBatch count).reader.source
  /-- A reader without a buffer reads the same batches and leaves the source at the same point. -/
  recordReader_eq : ∀ count, (RecordReader.mk reader.schema reader.source).readBatch count =
    ((reader.readBatch count).result, ⟨reader.schema, (reader.readBatch count).reader.source⟩)

/-- The records that calls to `read` give are given one by one. -/
theorem GivesFirst.result_eq (h : reader.GivesFirst records) {i : Nat}
    (hrecord : records[i]? = some record) : reader.result i = .ok (some record) := by
  have hi : i < records.length := (List.getElem?_eq_some_iff.mp hrecord).1
  have hresult := congrArg (·[i]?) h
  simp only [List.getElem?_map, List.getElem?_range hi, hrecord, Option.map_some] at hresult
  exact Option.some.inj hresult

/-- Batches of a reader of any source can be split anywhere, whatever the buffer holds. -/
theorem splitsBatches (hcompile : Schema.compile allocator text = .ok reader.schema)
    (hbuffer : reader.buffer.length = reader.schema.size) : SplitsBatches reader := by
  have hfitted : reader.Fitted := ⟨Schema.wellFormed_of_compile hcompile, hbuffer⟩
  constructor
  case outcome => exact reader.readBatch_outcome
  case length_le =>
    intro count records hresult
    have houtcome := reader.readBatch_outcome count
    generalize reader.readBatch count = batch at houtcome hresult
    cases houtcome with
    | full hcount =>
      obtain rfl := Except.ok.inj hresult
      exact Nat.le_of_eq hcount
    | ended hcount =>
      obtain rfl := Except.ok.inj hresult
      exact Nat.le_of_lt hcount
    | failed => contradiction
  case add_of_full =>
    intro m n records hresult hfull
    have hbatch : reader.collect [] [] m =
        ⟨.ok records, (reader.readBatch m).reader, (reader.readBatch m).calls⟩ := by
      rw [← hresult]
      rfl
    rw [← collect_eq_behind]
    exact collect_add_of_full hbatch (by rw [hfull, List.length_nil, Nat.zero_add]) n
  case add_of_ended =>
    intro m n records hresult hless
    apply collect_add_of_not_full
    intro all hall
    obtain rfl := Except.ok.inj (hresult.symm.trans hall)
    rwa [List.length_nil, Nat.zero_add]
  case add_of_failed =>
    intro m n e hresult
    apply collect_add_of_not_full
    intro all hall
    have hboth := hresult.symm.trans hall
    contradiction
  case failed =>
    intro m e hresult
    have houtcome := reader.readBatch_outcome m
    generalize reader.readBatch m = batch at houtcome hresult
    cases houtcome with
    | full => contradiction
    | ended => contradiction
    | @failed records own hcount hrecords hfailed =>
      obtain rfl := Except.error.inj hresult
      refine ⟨records, hcount, hrecords, hfailed, fun i record hrecord => ?_, ?_⟩
      · exact hfitted.piece_of_record (hrecords.result_eq hrecord)
      · rw [hfitted.bytes_eq_pieces (records.length + 1), pieces_succ, List.append_assoc]
  case zero => rfl
  case plays =>
    intro count
    have houtcome := reader.readBatch_outcome count
    generalize reader.readBatch count = batch at houtcome
    cases houtcome with
    | full => exact hfitted.plays_callsUpTo _
    | ended => exact hfitted.plays_callsUpTo _
    | failed => exact hfitted.plays_callsUpTo _
  case recordReader_eq => exact hfitted.readBatch_eq

/-- A record, an end of the source after which it delivers again, and a failure within a record. -/
theorem splitsBatches_revived_source :
    Schema.compile .generous ">H" = .ok ⟨">H", .big, [⟨'H', .unsigned, 2, 2⟩], ⟨[0], 2⟩, 1⟩ ∧
    SplitsBatches ⟨⟨">H", .big, [⟨'H', .unsigned, 2, 2⟩], ⟨[0], 2⟩, 1⟩,
      ⟨[.data 1 [2], .ended, .data 3 [4, 5], .failure ⟨.other, "lost"⟩]⟩, [7, 9], []⟩ := by
  have hcompile : Schema.compile .generous ">H" = .ok
      ⟨">H", .big, [⟨'H', .unsigned, 2, 2⟩], ⟨[0], 2⟩, 1⟩ := by
    decide +kernel
  exact ⟨hcompile, splitsBatches hcompile rfl⟩

end BufferedReader

end BinaryRecord
