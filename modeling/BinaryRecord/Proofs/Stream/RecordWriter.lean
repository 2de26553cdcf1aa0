import BinaryRecord.Proofs.Schema.PackInto
import BinaryRecord.Proofs.Stream.Sink
import BinaryRecord.Stream.RecordWriter

/-!
# What a writer leaves in its sink

Whatever is asked of a writer, it counts the records that were written, and its sink holds these
records, in order, and after them at most a part of the first one that the sink did not take whole
(`appendsRecords`). A record that cannot be packed makes no call to the sink, and a batch writes the
records in front of the first that fails.

The account of what was tried so far (`Accounts`) is kept by one record (`Accounts.write`), hence by
a batch and by any run of requests. That nothing follows a torn record is due to the sink: it is
full from then on.
-/

namespace BinaryRecord

/-! ## Errors in packing -/

namespace Window

/-- An argument is refused for what it is. -/
theorem toError_ne_stream (refusal : Refusal) (index : Nat) (field : Field) (value : Value)
    (error : StreamError) : refusal.toError index field value ≠ .stream error := by
  cases refusal <;> exact PackError.noConfusion

/-- A stream has no part in storing an argument. -/
theorem storeField_ne_stream {window : Window} (field : Field) (offset index : Nat) (value : Value)
    (error : StreamError) :
    window.storeField field offset index value ≠ .error (.stream error) := by
  intro h
  rcases bind_eq_error_iff.mp h with himage | ⟨image, -, hstore⟩
  · cases hencode : field.encode window.order value with
    | ok image => simp [hencode, Except.mapError] at himage
    | error refusal =>
      rw [hencode] at himage
      exact toError_ne_stream _ _ _ _ _ (Except.error.inj himage)
  · cases hbytes : window.storeBytes offset image with
    | ok after => simp [hbytes, Except.mapError] at hstore
    | error cause => simp [hbytes, Except.mapError] at hstore

/-- A stream has no part in storing arguments. -/
theorem storeFields_ne_stream (window : Window) (index : Nat) (places : List (Field × Nat))
    (values : List Value) (error : StreamError) :
    window.storeFields index places values ≠ .error (.stream error) := by
  induction places generalizing window index values with
  | nil => simp [storeFields]
  | cons place places ih =>
    obtain ⟨field, offset⟩ := place
    intro h
    unfold storeFields at h
    split at h
    case isTrue =>
      cases values with
      | nil => simp at h
      | cons value values =>
        rcases bind_eq_error_iff.mp h with hfirst | ⟨stored, -, hrest⟩
        · exact storeField_ne_stream field offset index value error hfirst
        · exact ih _ _ _ hrest
    case isFalse => exact ih _ _ _ h

end Window

/-- A stream has no part in packing. -/
theorem Schema.pack_ne_stream (schema : Schema) (arguments : List Value) (error : StreamError) :
    schema.pack arguments ≠ .error (.stream error) := by
  intro h
  unfold pack at h
  split at h
  case isTrue =>
    rcases bind_eq_error_iff.mp h with hstore | ⟨window, -, hbytes⟩
    · exact Window.storeFields_ne_stream _ _ _ _ _ hstore
    · cases hbytes
  case isFalse => simp at h

namespace RecordWriter

/-! ## Runs -/

/-- What is asked of a writer. -/
inductive Request where
  /-- To write the record of the arguments. -/
  | write (arguments : List Value)
  /-- To write a record for each list of arguments. -/
  | writeBatch (batch : List (List Value))
  /-- To flush the sink. -/
  | flush

/-- The answer to a request, and the writer after it. -/
def perform (writer : RecordWriter) : Request → Except PackError Unit × RecordWriter
  | .write arguments => writer.write arguments
  | .writeBatch batch => writer.writeBatch batch
  | .flush => (writer.flush, writer)

/-- The writer after the requests. -/
def after (writer : RecordWriter) : List Request → RecordWriter
  | [] => writer
  | request :: requests => (writer.perform request).2.after requests

/-- A record that was to be written, alone or in a batch, and what came of it. -/
structure Attempt where
  /-- The arguments of the record. -/
  arguments : List Value
  /-- What came of writing it. -/
  outcome : Except PackError Unit

/-- The record was written. -/
def Attempt.succeeded (attempt : Attempt) : Bool :=
  attempt.outcome matches .ok ()

/-- The sink failed to take the record. -/
def Attempt.broke (attempt : Attempt) : Bool :=
  attempt.outcome matches .error (.stream _)

/-- The records of a batch that are tried, up to the first that fails. -/
def batchAttempts (writer : RecordWriter) : List (List Value) → List Attempt
  | [] => []
  | arguments :: batch =>
    match writer.write arguments with
    | (.ok (), after) => ⟨arguments, .ok ()⟩ :: after.batchAttempts batch
    | (.error e, _) => [⟨arguments, .error e⟩]

/-- The records that are tried in a request. -/
def attemptsOf (writer : RecordWriter) : Request → List Attempt
  | .write arguments => [⟨arguments, (writer.write arguments).1⟩]
  | .writeBatch batch => writer.batchAttempts batch
  | .flush => []

/-- The records that are tried in the requests, first to last. -/
def attempts (writer : RecordWriter) : List Request → List Attempt
  | [] => []
  | request :: requests =>
    writer.attemptsOf request ++ (writer.perform request).2.attempts requests

variable {schema : Schema} {writer : RecordWriter} {arguments : List Value}
  {tried : List Attempt} {held record : List UInt8}

/-! ## One record -/

/-- A record that cannot be packed leaves no trace. -/
theorem write_of_pack_error {e : PackError} (h : writer.schema.pack arguments = .error e) :
    writer.write arguments = (.error e, writer) := by
  rw [write, h]

/-- A record that the sink takes is counted. -/
theorem write_of_whole {sink : Sink} (h : writer.schema.pack arguments = .ok record)
    (hsink : writer.sink.writeAll record = (.ok (), sink)) :
    writer.write arguments =
      (.ok (), { writer with sink := sink, records := writer.count }) := by
  rw [write, h]
  simp only [hsink]

/-- A record that the sink does not take is not counted. -/
theorem write_of_torn {sink : Sink} {error : StreamError}
    (h : writer.schema.pack arguments = .ok record)
    (hsink : writer.sink.writeAll record = (.error error, sink)) :
    writer.write arguments = (.error (.stream error), { writer with sink := sink }) := by
  rw [write, h]
  simp only [hsink]

/-! ## The account -/

/-- What may stand behind the records after the first one that the sink did not take, if there is
one: some of the first bytes of that record, but not all. -/
def IsRemainder (schema : Schema) (torn : List UInt8) : Option Attempt → Prop
  | none => torn = []
  | some broken => ∃ record, schema.pack broken.arguments = .ok record ∧
      torn <+: record ∧ torn.length < record.length

/-- The writer is as what was tried so far left it, when its sink held some bytes at first. -/
structure Accounts (schema : Schema) (held : List UInt8) (tried : List Attempt)
    (writer : RecordWriter) : Prop where
  /-- The schema is never changed. -/
  schema_eq : writer.schema = schema
  /-- The records that were written are counted. -/
  records_eq : writer.records = Size.checked (tried.countP Attempt.succeeded)
  /-- They are what the sink holds, in order, and a remainder. -/
  held_eq : ∃ (records : List (List UInt8)) (torn : List UInt8),
    (tried.filter Attempt.succeeded).map (schema.pack ·.arguments) = records.map .ok ∧
      writer.sink.held = held ++ records.flatten ++ torn ∧
      IsRemainder schema torn (tried.find? Attempt.broke)
  /-- A sink that failed to take a record is full. -/
  full : ∀ broken, tried.find? Attempt.broke = some broken → writer.sink.Full

/-- Nothing was tried at first. -/
theorem Accounts.start (schema : Schema) (sink : Sink) :
    Accounts schema sink.held [] (start schema sink) := by
  refine ⟨rfl, rfl, ⟨[], [], rfl, ?_, rfl⟩, fun _ hbroken => by simp at hbroken⟩
  simp [RecordWriter.start]

/-- A record that is not written leaves the account as it is, unless it is the first that is torn.
-/
theorem Accounts.of_failed {attempt : Attempt} (h : Accounts schema held tried writer)
    (hfailed : attempt.succeeded = false)
    (hlater : attempt.broke = true → (tried.find? Attempt.broke).isSome) :
    Accounts schema held (tried ++ [attempt]) writer := by
  have hfilter : (tried ++ [attempt]).filter Attempt.succeeded =
      tried.filter Attempt.succeeded := by
    rw [List.filter_append, List.filter_cons, hfailed]
    exact List.append_nil _
  have hfind : (tried ++ [attempt]).find? Attempt.broke = tried.find? Attempt.broke := by
    rw [List.find?_append, List.find?_singleton]
    cases hbroken : tried.find? Attempt.broke with
    | some broken => rfl
    | none =>
      have hwhole : ¬ attempt.broke = true := fun hbroke => by
        simpa [hbroken] using hlater hbroke
      rw [if_neg hwhole]
      rfl
  refine ⟨h.schema_eq, ?_, ?_, ?_⟩
  · rw [h.records_eq, List.countP_eq_length_filter, List.countP_eq_length_filter, hfilter]
  · rw [hfilter, hfind]
    exact h.held_eq
  · rw [hfind]
    exact h.full

/-- Where no record was torn, the sink holds the records that were written and nothing else. -/
theorem Accounts.held_eq_of_none (h : Accounts schema held tried writer)
    (hnone : tried.find? Attempt.broke = none) : ∃ records : List (List UInt8),
      (tried.filter Attempt.succeeded).map (schema.pack ·.arguments) = records.map .ok ∧
        writer.sink.held = held ++ records.flatten := by
  obtain ⟨records, torn, hrecords, hbytes, hremainder⟩ := h.held_eq
  rw [hnone] at hremainder
  obtain rfl : torn = [] := hremainder
  rw [List.append_nil] at hbytes
  exact ⟨records, hrecords, hbytes⟩

/-- A record that is written follows those before, where none was torn. -/
theorem Accounts.of_whole {sink : Sink} (h : Accounts schema held tried writer)
    (hpack : schema.pack arguments = .ok record) (hnone : tried.find? Attempt.broke = none)
    (hheld : sink.held = writer.sink.held ++ record) :
    Accounts schema held (tried ++ [⟨arguments, .ok ()⟩])
      { writer with sink := sink, records := writer.count } := by
  have hfind : (tried ++ [Attempt.mk arguments (.ok ())]).find? Attempt.broke = none := by
    rw [List.find?_append, hnone]
    rfl
  obtain ⟨records, hrecords, hbytes⟩ := h.held_eq_of_none hnone
  refine ⟨h.schema_eq, ?_, ⟨records ++ [record], [], ?_, ?_, ?_⟩, ?_⟩
  · show writer.count = _
    rw [count, h.records_eq, Size.checked_bind_checkedAdd, List.countP_append]
    rfl
  · rw [List.filter_append, List.map_append, List.map_append, hrecords]
    exact congrArg _ (congrArg (· :: []) hpack)
  · show sink.held = _
    rw [hheld, hbytes]
    simp
  · rw [hfind]
    rfl
  · rw [hfind]
    exact fun _ hbroken => absurd hbroken (by simp)

/-- The first record that is torn leaves its remainder. -/
theorem Accounts.of_torn {sink : Sink} {error : StreamError} {taken : List UInt8}
    (h : Accounts schema held tried writer) (hpack : schema.pack arguments = .ok record)
    (hnone : tried.find? Attempt.broke = none) (hstarts : taken <+: record)
    (hless : taken.length < record.length) (hheld : sink.held = writer.sink.held ++ taken)
    (hfull : sink.Full) :
    Accounts schema held (tried ++ [⟨arguments, .error (.stream error)⟩])
      { writer with sink := sink } := by
  have hfind : (tried ++ [Attempt.mk arguments (.error (.stream error))]).find? Attempt.broke =
      some ⟨arguments, .error (.stream error)⟩ := by
    rw [List.find?_append, hnone]
    rfl
  obtain ⟨records, hrecords, hbytes⟩ := h.held_eq_of_none hnone
  refine ⟨h.schema_eq, ?_, ⟨records, taken, ?_, ?_, ?_⟩, fun _ _ => hfull⟩
  · rw [List.countP_append, h.records_eq]
    rfl
  · rw [List.filter_append, ← hrecords]
    exact congrArg _ (List.append_nil _)
  · show sink.held = _
    rw [hheld, hbytes]
  · rw [hfind]
    exact ⟨record, hpack, hstarts, hless⟩

/-- Where a record was torn, all records have bytes. -/
theorem Accounts.ne_nil_of_broken {broken : Attempt} (h : Accounts schema held tried writer)
    (hbroken : tried.find? Attempt.broke = some broken)
    (hpack : schema.pack arguments = .ok record) : record ≠ [] := by
  obtain ⟨records, torn, -, -, hremainder⟩ := h.held_eq
  rw [hbroken] at hremainder
  obtain ⟨first, hfirst, -, hless⟩ := hremainder
  have hlength := Schema.length_of_pack hfirst
  refine List.ne_nil_of_length_pos ?_
  rw [Schema.length_of_pack hpack]
  omega

/-- One more record is accounted for, whatever comes of it. -/
theorem Accounts.write (h : Accounts schema held tried writer) (arguments : List Value) :
    Accounts schema held (tried ++ [⟨arguments, (writer.write arguments).1⟩])
      (writer.write arguments).2 := by
  cases hpack : writer.schema.pack arguments with
  | error e =>
    rw [write_of_pack_error hpack]
    refine h.of_failed rfl fun hbroke => ?_
    cases e with
    | stream error => exact absurd hpack (writer.schema.pack_ne_stream arguments error)
    | _ => simp [Attempt.broke] at hbroke
  | ok record =>
    have hrecord : schema.pack arguments = .ok record := h.schema_eq ▸ hpack
    have houtcome := writer.sink.writeAll_outcome record
    generalize hsink : writer.sink.writeAll record = result at houtcome
    cases hbroken : tried.find? Attempt.broke with
    | none =>
      cases houtcome with
      | whole hheld =>
        rw [write_of_whole hpack hsink]
        exact h.of_whole hrecord hbroken hheld
      | torn hstarts hless hheld hfull =>
        rw [write_of_torn hpack hsink]
        exact h.of_torn hrecord hbroken hstarts hless hheld hfull
    | some broken =>
      -- The sink is full, so that it fails again, and it is left as it is.
      have hbytes : record ≠ [] := h.ne_nil_of_broken hbroken hrecord
      obtain ⟨error, hfull⟩ := (h.full broken hbroken).writeAll hbytes
      rw [write_of_torn hpack hfull]
      exact h.of_failed rfl fun _ => by simp [hbroken]

/-- The records of a batch are accounted for. -/
theorem Accounts.writeBatch (h : Accounts schema held tried writer) (batch : List (List Value)) :
    Accounts schema held (tried ++ writer.batchAttempts batch) (writer.writeBatch batch).2 := by
  induction batch generalizing writer tried with
  | nil =>
    rw [batchAttempts, List.append_nil]
    exact h
  | cons arguments batch ih =>
    have hfirst := h.write arguments
    rw [batchAttempts, RecordWriter.writeBatch]
    generalize writer.write arguments = result at hfirst
    obtain ⟨outcome, after⟩ := result
    cases outcome with
    | error e => exact hfirst
    | ok =>
      simp only
      rw [List.append_cons]
      exact ih hfirst

/-- Any one request is accounted for. -/
theorem Accounts.perform (h : Accounts schema held tried writer) (request : Request) :
    Accounts schema held (tried ++ writer.attemptsOf request) (writer.perform request).2 := by
  cases request with
  | write arguments => exact h.write arguments
  | writeBatch batch => exact h.writeBatch batch
  | flush =>
    rw [attemptsOf, List.append_nil]
    exact h

/-- Any run of requests is accounted for. -/
theorem Accounts.after (h : Accounts schema held tried writer) (requests : List Request) :
    Accounts schema held (tried ++ writer.attempts requests) (writer.after requests) := by
  induction requests generalizing writer tried with
  | nil =>
    rw [attempts, List.append_nil]
    exact h
  | cons request requests ih =>
    rw [attempts, ← List.append_assoc]
    exact ih (h.perform request)

/-! ## Batches -/

/-- What may come of a batch, and what was tried for it: either all its records are written as if
one by one, or those in front of one that fails are, and this one decides the result. -/
inductive BatchOutcome (writer : RecordWriter) :
    List (List Value) → List Attempt → Except PackError Unit × RecordWriter → Prop
  | whole {batch : List (List Value)}
      (hwritten : ∀ attempt ∈ writer.attempts (batch.map .write), attempt.succeeded = true) :
      BatchOutcome writer batch (writer.attempts (batch.map .write))
        (.ok (), writer.after (batch.map .write))
  | stopped (written : List (List Value)) {rest : List (List Value)} {arguments : List Value}
      {e : PackError} {after : RecordWriter}
      (hwritten : ∀ attempt ∈ writer.attempts (written.map .write), attempt.succeeded = true)
      (hfailed : (writer.after (written.map .write)).write arguments = (.error e, after)) :
      BatchOutcome writer (written ++ arguments :: rest)
        (writer.attempts (written.map .write) ++ [⟨arguments, .error e⟩]) (.error e, after)

/-- One more record, written in front of a batch. -/
theorem BatchOutcome.cons {after : RecordWriter} {batch : List (List Value)}
    {result : Except PackError Unit × RecordWriter}
    (hwrite : writer.write arguments = (.ok (), after))
    (h : BatchOutcome after batch tried result) :
    BatchOutcome writer (arguments :: batch) (⟨arguments, .ok ()⟩ :: tried) result := by
  have hattempts : ∀ requests, writer.attempts (.write arguments :: requests) =
      ⟨arguments, .ok ()⟩ :: after.attempts requests := by
    intro requests
    rw [attempts, attemptsOf, RecordWriter.perform, hwrite]
    rfl
  have hafter : ∀ requests, writer.after (.write arguments :: requests) = after.after requests := by
    intro requests
    rw [RecordWriter.after, RecordWriter.perform, hwrite]
  cases h with
  | whole hwritten =>
    rw [← hattempts, ← hafter]
    refine .whole ?_
    rw [List.map_cons, hattempts]
    exact List.forall_mem_cons.mpr ⟨rfl, hwritten⟩
  | @stopped written rest argument e last hwritten hfailed =>
    rw [← List.cons_append, ← List.cons_append, ← hattempts]
    refine .stopped (arguments :: written) ?_ ?_
    · rw [List.map_cons, hattempts]
      exact List.forall_mem_cons.mpr ⟨rfl, hwritten⟩
    · rw [List.map_cons, hafter]
      exact hfailed

/-- A batch comes to one of the two outcomes. -/
theorem writeBatch_outcome (writer : RecordWriter) (batch : List (List Value)) :
    BatchOutcome writer batch (writer.batchAttempts batch) (writer.writeBatch batch) := by
  induction batch generalizing writer with
  | nil => exact .whole fun _ hattempt => absurd hattempt List.not_mem_nil
  | cons arguments batch ih =>
    rw [batchAttempts, RecordWriter.writeBatch]
    generalize hwrite : writer.write arguments = result
    obtain ⟨outcome, after⟩ := result
    cases outcome with
    | error e =>
      exact .stopped [] (fun _ hattempt => absurd hattempt List.not_mem_nil) hwrite
    | ok => exact .cons hwrite (ih after)

/-! ## The sink -/

/-- What is written with the schema, and what is left in the sink by it. -/
structure AppendsRecords (schema : Schema) : Prop where
  /-- The writer counts the records that were written, alone or in batches, as long as their number
  is a size. -/
  records_eq : ∀ sink requests, ((start schema sink).after requests).records =
    Size.checked (((start schema sink).attempts requests).countP Attempt.succeeded)
  /-- What the sink holds more than at first are these records, in order, and then a part of the
  first record that it failed to take. -/
  held_eq : ∀ sink requests, ∃ (records : List (List UInt8)) (torn : List UInt8),
    (((start schema sink).attempts requests).filter Attempt.succeeded).map
      (schema.pack ·.arguments) = records.map .ok ∧
    ((start schema sink).after requests).sink.held = sink.held ++ records.flatten ++ torn ∧
    IsRemainder schema torn (((start schema sink).attempts requests).find? Attempt.broke) ∧
    (schema.size = 0 → torn = [])
  /-- A record that cannot be packed leaves any sink as it is. -/
  refused : ∀ arguments e, schema.pack arguments = .error e → ∀ sink records,
    (RecordWriter.mk schema sink records).write arguments = (.error e, ⟨schema, sink, records⟩)
  /-- A sink that interrupts the next call is not as it is after any call. -/
  called_ne_self : ∀ (sink : Sink) (bytes : List UInt8), 0 < sink.interrupts →
    (sink.write bytes).2 ≠ sink
  /-- A batch writes the records in front of the first that fails. -/
  batch_outcome : ∀ sink requests batch,
    BatchOutcome ((start schema sink).after requests) batch
      (((start schema sink).after requests).batchAttempts batch)
      (((start schema sink).after requests).writeBatch batch)

/-- Any schema, on any sink and in any run of requests. -/
theorem appendsRecords (schema : Schema) : AppendsRecords schema := by
  have haccounts : ∀ sink requests, Accounts schema sink.held
      ((start schema sink).attempts requests) ((start schema sink).after requests) :=
    fun sink requests => (Accounts.start schema sink).after requests
  refine ⟨fun sink requests => (haccounts sink requests).records_eq, fun sink requests => ?_,
    fun arguments e hpack sink records => write_of_pack_error hpack,
    fun sink bytes hinterrupts => sink.write_ne_self hinterrupts bytes,
    fun sink requests batch => writeBatch_outcome _ batch⟩
  obtain ⟨records, torn, hrecords, hheld, hremainder⟩ := (haccounts sink requests).held_eq
  refine ⟨records, torn, hrecords, hheld, hremainder, fun hsize => ?_⟩
  cases hbroken : ((start schema sink).attempts requests).find? Attempt.broke with
  | none =>
    rw [hbroken] at hremainder
    exact hremainder
  | some broken =>
    -- A record without bytes has no proper part.
    rw [hbroken] at hremainder
    obtain ⟨record, hrecord, -, hless⟩ := hremainder
    rw [Schema.length_of_pack hrecord, hsize] at hless
    exact absurd hless (Nat.not_lt_zero _)

end RecordWriter

end BinaryRecord
