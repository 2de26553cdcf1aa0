import BinaryRecord.Proofs.Schema.RecordCursor
import BinaryRecord.Proofs.Stream.Calls
import BinaryRecord.Proofs.Stream.Source
import BinaryRecord.Stream.RecordReader

/-!
# Readers with one buffer

`BufferedReader` reads records into one buffer, which is never cleared: a call to the source puts
what it gets over the bytes from `filled` on, and behind those there may be bytes of any earlier
record. It also notes the calls that it makes.

The invariant of filling the buffer is `Fills`: the bytes in front of `filled` are those that were
delivered for this record, and each call asks for the rest of it. A record is unpacked only when
there are no other bytes, so that `read` comes to what a reader without a buffer reads, and to what
the calls that it made say (`Sound.reads`).
-/

namespace BinaryRecord

/-- A reader of records that has one buffer for all of them. -/
structure BufferedReader where
  /-- What the records are of. -/
  schema : Schema
  /-- Where their bytes come from. -/
  source : Source
  /-- The bytes of the record that is being read, and behind them what was left there before. -/
  buffer : List UInt8
  /-- The calls to the source that were made for that record. -/
  calls : List SourceCall

namespace BufferedReader

/-- Why a buffer is not filled any further. -/
inductive Stop where
  /-- All of it is filled. -/
  | full
  /-- The source ended after so many bytes. -/
  | ended (filled : Nat)
  /-- The source failed. -/
  | failed (error : StreamError)

/-- A call for the rest of the buffer from `filled` on. -/
def callFrom (reader : BufferedReader) (filled : Nat) (result : Except StreamError (List UInt8)) :
    SourceCall :=
  ⟨reader.buffer.length - filled, result⟩

/-- The reader after such a call. What the call got is in the buffer from `filled` on. -/
def received (reader : BufferedReader) (filled : Nat) (result : Except StreamError (List UInt8))
    (source : Source) : BufferedReader :=
  let call := reader.callFrom filled result
  { reader with
    source := source
    buffer := reader.buffer.take filled ++ call.bytes ++
      reader.buffer.drop (filled + call.bytes.length)
    calls := reader.calls ++ [call] }

/-- Bytes that are put into a buffer make the rest of it shorter. -/
theorem length_received_sub {reader : BufferedReader} {filled : Nat}
    (hfilled : filled ≤ reader.buffer.length) (result : Except StreamError (List UInt8))
    (source : Source) :
    (reader.received filled result source).buffer.length -
      (filled + (reader.callFrom filled result).bytes.length) =
      reader.buffer.length - filled - (reader.callFrom filled result).bytes.length := by
  simp only [received, List.length_append, List.length_take, List.length_drop]
  omega

/-- Calls the source until the buffer is filled, from `filled` on. -/
def fill (reader : BufferedReader) (filled : Nat) : Stop × BufferedReader :=
  if reader.buffer.length ≤ filled then (.full, reader)
  else
    match _h : reader.source.read (reader.buffer.length - filled) with
    | (.ok [], source) => (.ended filled, reader.received filled (.ok []) source)
    | (.ok (first :: rest), source) =>
      (reader.received filled (.ok (first :: rest)) source).fill (filled + (first :: rest).length)
    | (.error error, source) =>
      if error.kind = .interrupted then (reader.received filled (.error error) source).fill filled
      else (.failed error, reader.received filled (.error error) source)
termination_by reader.buffer.length - filled + reader.source.script.length
decreasing_by
  · have hrest := length_received_sub (Nat.le_of_not_le ‹_›) (.ok (first :: rest)) source
    have hscript := Source.length_script_read_le ‹_›
    simp only [callFrom, SourceCall.bytes, List.length_cons] at hrest ⊢
    simp only [received] at hrest ⊢
    omega
  · have hrest := length_received_sub (Nat.le_of_not_le ‹_›) (.error error) source
    have hscript := Source.length_script_read_lt ‹_›
    simp only [callFrom, SourceCall.bytes, List.length_nil, Nat.add_zero, Nat.sub_zero] at hrest
    simp only [received] at hrest ⊢
    omega

/-- The next record, or none where the source has ended. -/
def read (reader : BufferedReader) : Except PackError (Option (List Value)) × BufferedReader :=
  let reader := { reader with calls := [] }
  if reader.buffer = [] then (.error .zeroSizedRecord, reader)
  else
    match reader.fill 0 with
    | (.full, reader) => ((reader.schema.unpack reader.buffer).map some, reader)
    | (.ended 0, reader) => (.ok none, reader)
    | (.ended filled, reader) =>
      (.error (.stream (.truncated filled reader.buffer.length)), reader)
    | (.failed error, reader) => (.error (.stream error), reader)

variable {reader after : BufferedReader} {source : Source} {filled : Nat}
  {calls : List SourceCall}

/-! ## One call -/

/-- What a call got fits into the rest of the buffer. -/
theorem length_bytes_le {result : Except StreamError (List UInt8)}
    (hread : reader.source.read (reader.buffer.length - filled) = (result, source)) :
    (reader.callFrom filled result).bytes.length ≤ reader.buffer.length - filled :=
  Source.length_bytes_read_le hread

/-- A call leaves the buffer as long as it is. -/
theorem length_buffer_received {result : Except StreamError (List UInt8)}
    (hfilled : filled ≤ reader.buffer.length)
    (hread : reader.source.read (reader.buffer.length - filled) = (result, source)) :
    (reader.received filled result source).buffer.length = reader.buffer.length := by
  have hbytes := length_bytes_le hread
  simp only [received, List.length_append, List.length_take, List.length_drop]
  omega

/-- What is filled after a call is not more than the buffer. -/
theorem add_length_bytes_le {result : Except StreamError (List UInt8)}
    (hfilled : filled ≤ reader.buffer.length)
    (hread : reader.source.read (reader.buffer.length - filled) = (result, source)) :
    filled + (reader.callFrom filled result).bytes.length ≤
      (reader.received filled result source).buffer.length := by
  have hbytes := length_bytes_le hread
  rw [length_buffer_received hfilled hread]
  omega

/-- After a call, what it got stands behind the bytes that were there before. -/
theorem take_buffer_received (hfilled : filled ≤ reader.buffer.length)
    (result : Except StreamError (List UInt8)) (source : Source) :
    (reader.received filled result source).buffer.take
      (filled + (reader.callFrom filled result).bytes.length) =
      reader.buffer.take filled ++ (reader.callFrom filled result).bytes := by
  apply List.take_left'
  rw [List.length_append, List.length_take, Nat.min_eq_left hfilled]

/-! ## Filling the buffer -/

/-- A full buffer needs no calls. -/
theorem fill_of_full (hfull : reader.buffer.length ≤ filled) :
    reader.fill filled = (.full, reader) := by
  rw [fill, if_pos hfull]

/-- A call that gets nothing is the last. -/
theorem fill_of_read_nil (hroom : ¬ reader.buffer.length ≤ filled)
    (h : reader.source.read (reader.buffer.length - filled) = (.ok [], source)) :
    reader.fill filled = (.ended filled, reader.received filled (.ok []) source) := by
  rw [fill, if_neg hroom]
  split <;> simp_all

/-- A call that gets a piece is followed by calls for what is missing then. -/
theorem fill_of_read_piece {first : UInt8} {rest : List UInt8}
    (hroom : ¬ reader.buffer.length ≤ filled)
    (h : reader.source.read (reader.buffer.length - filled) = (.ok (first :: rest), source)) :
    reader.fill filled = (reader.received filled (.ok (first :: rest)) source).fill
      (filled + (first :: rest).length) := by
  rw [fill, if_neg hroom]
  split <;> simp_all

/-- A call that is interrupted is made again. -/
theorem fill_of_interrupted {error : StreamError} (hroom : ¬ reader.buffer.length ≤ filled)
    (h : reader.source.read (reader.buffer.length - filled) = (.error error, source))
    (hkind : error.kind = .interrupted) :
    reader.fill filled = (reader.received filled (.error error) source).fill filled := by
  rw [fill, if_neg hroom]
  split <;> simp_all

/-- A call that fails is the last. -/
theorem fill_of_failed {error : StreamError} (hroom : ¬ reader.buffer.length ≤ filled)
    (h : reader.source.read (reader.buffer.length - filled) = (.error error, source))
    (hkind : error.kind ≠ .interrupted) :
    reader.fill filled = (.failed error, reader.received filled (.error error) source) := by
  rw [fill, if_neg hroom]
  split <;> simp_all

/-- Some calls fill a part of the buffer from `filled` on. -/
structure Fills (reader : BufferedReader) (filled : Nat) (calls : List SourceCall)
    (after : BufferedReader) : Prop where
  /-- The schema is never changed. -/
  schema_eq : after.schema = reader.schema
  /-- The calls are noted. -/
  calls_eq : after.calls = reader.calls ++ calls
  /-- The buffer stays as long as it is. -/
  length_buffer : after.buffer.length = reader.buffer.length
  /-- The source answers the calls. -/
  plays : reader.source.Plays calls after.source
  /-- They ask for the rest of the buffer. -/
  asks : AskForRest (reader.buffer.length - filled) calls
  /-- What they get fits into it. -/
  fits : filled + (delivered calls).length ≤ reader.buffer.length
  /-- It stands behind the bytes that were there before. -/
  take_buffer : after.buffer.take (filled + (delivered calls).length) =
    reader.buffer.take filled ++ delivered calls

/-- No calls fill nothing. -/
theorem Fills.nil (hfilled : filled ≤ reader.buffer.length) : Fills reader filled [] reader where
  schema_eq := rfl
  calls_eq := (List.append_nil _).symm
  length_buffer := rfl
  plays := .nil _
  asks := .nil _
  fits := hfilled
  take_buffer := (List.append_nil _).symm

/-- A call and the calls after it. -/
theorem Fills.cons {result : Except StreamError (List UInt8)}
    (hfilled : filled ≤ reader.buffer.length)
    (hread : reader.source.read (reader.buffer.length - filled) = (result, source))
    (h : Fills (reader.received filled result source)
      (filled + (reader.callFrom filled result).bytes.length) calls after) :
    Fills reader filled (reader.callFrom filled result :: calls) after := by
  have hbytes := length_bytes_le hread
  have hlength := length_buffer_received hfilled hread
  have hrest := length_received_sub hfilled result source
  have hfits := h.fits
  have htake := h.take_buffer
  have hasks := h.asks
  rw [hlength] at hfits
  rw [take_buffer_received hfilled] at htake
  rw [hrest] at hasks
  constructor
  · exact h.schema_eq
  · rw [h.calls_eq]
    exact List.append_assoc _ _ _
  · rw [h.length_buffer, hlength]
  · exact .cons hread h.plays
  · exact AskForRest.cons hbytes hasks
  · rwa [delivered_cons, List.length_append, ← Nat.add_assoc]
  · rwa [delivered_cons, List.length_append, ← Nat.add_assoc, ← List.append_assoc]

/-- One call alone. -/
theorem Fills.singleton {result : Except StreamError (List UInt8)}
    (hfilled : filled ≤ reader.buffer.length)
    (hread : reader.source.read (reader.buffer.length - filled) = (result, source)) :
    Fills reader filled [reader.callFrom filled result] (reader.received filled result source) :=
  .cons hfilled hread (.nil (add_length_bytes_le hfilled hread))

/-- In a buffer that is full, there are no bytes of earlier records behind those that were delivered
for this one. -/
theorem Fills.buffer_eq (h : Fills reader 0 calls after)
    (hall : 0 + (delivered calls).length = reader.buffer.length) :
    after.buffer = delivered calls := by
  have htake := h.take_buffer
  rwa [hall, ← h.length_buffer, List.take_length] at htake

/-- How filling the buffer comes to an end, and how reading the same number of bytes without a
buffer does. -/
inductive Stopped (reader : BufferedReader) (filled : Nat) (calls : List SourceCall) :
    Stop × BufferedReader → Filling × Source → Prop
  | full {after : BufferedReader} (hfills : Fills reader filled calls after)
      (hall : filled + (delivered calls).length = reader.buffer.length) :
      Stopped reader filled calls (.full, after) (.complete after.buffer, after.source)
  | ended {after : BufferedReader} (hfills : Fills reader filled calls after)
      (hless : filled + (delivered calls).length < reader.buffer.length)
      (hlast : calls.getLast?.map (·.result) = some (.ok [])) :
      Stopped reader filled calls (.ended (filled + (delivered calls).length), after)
        (.ended (after.buffer.take (filled + (delivered calls).length)), after.source)
  | failed {after : BufferedReader} {error : StreamError} (hfills : Fills reader filled calls after)
      (hless : filled + (delivered calls).length < reader.buffer.length)
      (hlast : calls.getLast?.map (·.result) = some (.error error))
      (hkind : error.kind ≠ .interrupted) :
      Stopped reader filled calls (.failed error, after) (.failed error, after.source)

/-- What is the result of the last of some calls is that of the last of more calls before them. -/
theorem map_result_getLast?_cons {result : Except StreamError (List UInt8)}
    (h : calls.getLast?.map (·.result) = some result) (call : SourceCall) :
    (call :: calls).getLast?.map (·.result) = some result := by
  rw [List.getLast?_cons]
  cases hlast : calls.getLast? with
  | none => simp [hlast] at h
  | some last => simpa [hlast] using h

/-- A call before the others makes no difference to how they come to an end. -/
theorem Stopped.cons {result : Except StreamError (List UInt8)} {stopped : Stop × BufferedReader}
    {filling : Filling × Source} (hfilled : filled ≤ reader.buffer.length)
    (hread : reader.source.read (reader.buffer.length - filled) = (result, source))
    (h : Stopped (reader.received filled result source)
      (filled + (reader.callFrom filled result).bytes.length) calls stopped filling) :
    Stopped reader filled (reader.callFrom filled result :: calls) stopped filling := by
  have hlength := length_buffer_received hfilled hread
  have hdelivered : filled + (reader.callFrom filled result).bytes.length +
      (delivered calls).length =
        filled + (delivered (reader.callFrom filled result :: calls)).length := by
    rw [delivered_cons, List.length_append, Nat.add_assoc]
  cases h with
  | full hfills hall =>
    rw [hdelivered, hlength] at hall
    exact .full (.cons hfilled hread hfills) hall
  | ended hfills hless hlast =>
    rw [hdelivered, hlength] at hless
    rw [hdelivered]
    exact .ended (.cons hfilled hread hfills) hless (map_result_getLast?_cons hlast _)
  | failed hfills hless hlast hkind =>
    rw [hdelivered, hlength] at hless
    exact .failed (.cons hfilled hread hfills) hless (map_result_getLast?_cons hlast _) hkind

/-- What a call is followed by, in a buffer and without one, is how the calls come to an end from
the first on. -/
theorem exists_stopped_cons {result : Except StreamError (List UInt8)} {call : SourceCall}
    {next : BufferedReader} {stopped : Stop × BufferedReader}
    (hfilled : filled ≤ reader.buffer.length)
    (hread : reader.source.read (reader.buffer.length - filled) = (result, source))
    (hcall : reader.callFrom filled result = call)
    (hnext : reader.received filled result source = next)
    (h : ∃ calls, Stopped next (filled + call.bytes.length) calls stopped
      (source.fill (next.buffer.length - (filled + call.bytes.length))
        (next.buffer.take (filled + call.bytes.length)))) :
    ∃ calls, Stopped reader filled calls stopped
      (source.fill (reader.buffer.length - filled - call.bytes.length)
        (reader.buffer.take filled ++ call.bytes)) := by
  obtain ⟨calls, hstopped⟩ := h
  subst hcall hnext
  rw [length_received_sub hfilled, take_buffer_received hfilled] at hstopped
  exact ⟨_, hstopped.cons hfilled hread⟩

/-- Filling the buffer comes to one of these ends. -/
theorem fill_stopped (hfilled : filled ≤ reader.buffer.length) : ∃ calls,
    Stopped reader filled calls (reader.fill filled)
      (reader.source.fill (reader.buffer.length - filled) (reader.buffer.take filled)) := by
  -- Every call gets some of the missing bytes or uses up an event of the source.
  induction reader, filled using fill.induct with
  | case1 reader filled hfull =>
    refine ⟨[], ?_⟩
    rw [fill_of_full hfull, Nat.sub_eq_zero_of_le hfull, Source.fill_zero,
      List.take_of_length_le hfull]
    exact .full (.nil hfilled) (Nat.le_antisymm hfilled hfull)
  | case2 reader filled hroom source hread =>
    have hfills := Fills.singleton hfilled hread
    have htake : (reader.received filled (.ok []) source).buffer.take filled =
        reader.buffer.take filled ++ [] := hfills.take_buffer
    rw [List.append_nil] at htake
    rw [fill_of_read_nil hroom hread, Source.fill_of_read_nil (by omega) hread, ← htake]
    exact ⟨_, .ended hfills (Nat.lt_of_not_le hroom) rfl⟩
  | case3 reader filled hroom first rest source hread ih =>
    rw [fill_of_read_piece hroom hread, Source.fill_of_read_piece (by omega) (by simp) hread]
    exact exists_stopped_cons hfilled hread rfl rfl (ih (add_length_bytes_le hfilled hread))
  | case4 reader filled hroom error source hread hkind ih =>
    rw [fill_of_interrupted hroom hread hkind, Source.fill_of_interrupted (by omega) hread hkind]
    have hnext := exists_stopped_cons hfilled hread rfl rfl
      (ih (add_length_bytes_le hfilled hread))
    rwa [show (reader.callFrom filled (.error error)).bytes = [] from rfl, List.append_nil] at hnext
  | case5 reader filled hroom error source hread hkind =>
    rw [fill_of_failed hroom hread hkind, Source.fill_of_failed (by omega) hread hkind]
    exact ⟨_, .failed (.singleton hfilled hread) (Nat.lt_of_not_le hroom) rfl hkind⟩

/-! ## One record -/

/-- What a call to `read` may come to, by the calls that it makes to the source. -/
inductive Framed (schema : Schema) (calls : List SourceCall) :
    Except PackError (Option (List Value)) → Prop
  | record {values : List Value} (hlength : (delivered calls).length = schema.size)
      (hunpack : schema.unpack (delivered calls) = .ok values) :
      Framed schema calls (.ok (some values))
  | truncated (hpos : 0 < (delivered calls).length) (hless : (delivered calls).length < schema.size)
      (hlast : calls.getLast?.map (·.result) = some (.ok [])) :
      Framed schema calls (.error (.stream ⟨.unexpectedEof,
        s!"record truncated after {(delivered calls).length} of {schema.size} bytes"⟩))
  | failed {error : StreamError} (hless : (delivered calls).length < schema.size)
      (hlast : calls.getLast?.map (·.result) = some (.error error))
      (hkind : error.kind ≠ .interrupted) :
      Framed schema calls (.error (.stream error))
  | ended (hnone : delivered calls = []) (hlast : calls.getLast?.map (·.result) = some (.ok [])) :
      Framed schema calls (.ok none)

/-- What one call to `read` does. -/
structure Reads (reader : BufferedReader) (result : Except PackError (Option (List Value)))
    (after : BufferedReader) : Prop where
  /-- The schema is never changed. -/
  schema_eq : after.schema = reader.schema
  /-- The buffer stays as long as it is. -/
  length_buffer : after.buffer.length = reader.buffer.length
  /-- The source answers the calls that are noted. -/
  plays : reader.source.Plays after.calls after.source
  /-- Each of them asks for the rest of the record. -/
  asks : AskForRest reader.schema.size after.calls
  /-- The result is what they say. -/
  framed : Framed reader.schema after.calls result
  /-- It is the result without a buffer, too. -/
  read_eq : (RecordReader.mk reader.schema reader.source).read =
    (result, ⟨reader.schema, after.source⟩)

/-- Calls that fill the buffer from its start on are the calls of one record. -/
theorem Fills.reads {result : Except PackError (Option (List Value))}
    (hbuffer : reader.buffer.length = reader.schema.size)
    (h : Fills { reader with calls := [] } 0 calls after)
    (hframed : Framed reader.schema calls result)
    (hread : (RecordReader.mk reader.schema reader.source).read =
      (result, ⟨reader.schema, after.source⟩)) : Reads reader result after := by
  have hcalls : after.calls = calls := h.calls_eq
  have hasks : AskForRest (reader.buffer.length - 0) calls := h.asks
  rw [Nat.sub_zero, hbuffer] at hasks
  subst hcalls
  exact ⟨h.schema_eq, h.length_buffer, h.plays, hasks, hframed, hread⟩

/-- The buffer takes just one record of a schema that is well formed. -/
structure Sound (reader : BufferedReader) : Prop where
  /-- The schema is well formed. -/
  wellFormed : reader.schema.WellFormed
  /-- A record has at least one byte. -/
  size_pos : 0 < reader.schema.size
  /-- The buffer is as long as a record. -/
  length_buffer : reader.buffer.length = reader.schema.size

/-- Reading a record leaves room for just one record. -/
theorem Sound.of_reads {result : Except PackError (Option (List Value))} (h : reader.Sound)
    (hreads : Reads reader result after) : after.Sound where
  wellFormed := hreads.schema_eq ▸ h.wellFormed
  size_pos := hreads.schema_eq ▸ h.size_pos
  length_buffer := by rw [hreads.length_buffer, hreads.schema_eq, h.length_buffer]

/-- A call to `read` reads one record. -/
theorem Sound.reads (h : reader.Sound) : Reads reader reader.read.1 reader.read.2 := by
  obtain ⟨hschema, hsize, hbuffer⟩ := h
  have hne : reader.buffer ≠ [] := List.ne_nil_of_length_pos (hbuffer ▸ hsize)
  obtain ⟨calls, hstopped⟩ := fill_stopped
    (Nat.zero_le ({ reader with calls := [] } : BufferedReader).buffer.length)
  simp only [Nat.sub_zero, List.take_zero, hbuffer] at hstopped
  simp only [read, hne, if_false]
  generalize hfill : ({ reader with calls := [] } : BufferedReader).fill 0 = stopped at hstopped ⊢
  generalize hplain : reader.source.fill reader.schema.size [] = filling at hstopped
  cases hstopped with
  | @full after hfills hall =>
    have hcontent : after.buffer = delivered calls := hfills.buffer_eq hall
    have hlength : (delivered calls).length = reader.schema.size := by
      rw [← hcontent, hfills.length_buffer, hbuffer]
    have hunpack := hschema.unpack_eq_values hlength
    show Reads reader ((after.schema.unpack after.buffer).map some) after
    rw [hfills.schema_eq, hcontent, hunpack]
    refine hfills.reads hbuffer (.record hlength hunpack) ?_
    simp only [RecordReader.read, hsize.ne', if_false, hplain, hcontent, hunpack]
  | @ended after hfills hless hlast =>
    have hlength : after.buffer.length = reader.schema.size := hfills.length_buffer.trans hbuffer
    have htake : after.buffer.take (0 + (delivered calls).length) = delivered calls :=
      hfills.take_buffer
    rw [htake] at hplain
    rw [Nat.zero_add, hbuffer] at hless
    rw [Nat.zero_add]
    cases hdelivered : delivered calls with
    | nil =>
      show Reads reader (.ok none) after
      refine hfills.reads hbuffer (.ended hdelivered hlast) ?_
      simp only [RecordReader.read, hsize.ne', if_false, hplain, hdelivered]
    | cons first rest =>
      have hpos : 0 < (delivered calls).length := by simp [hdelivered]
      show Reads reader (.error (.stream (.truncated (first :: rest).length after.buffer.length)))
        after
      rw [← hdelivered, hlength]
      refine hfills.reads hbuffer (.truncated hpos hless hlast) ?_
      simp only [RecordReader.read, hsize.ne', if_false, hplain, hdelivered]
  | @failed after error hfills hless hlast hkind =>
    rw [Nat.zero_add, hbuffer] at hless
    refine hfills.reads hbuffer (.failed hless hlast hkind) ?_
    simp only [RecordReader.read, hsize.ne', if_false, hplain]

end BufferedReader

end BinaryRecord
