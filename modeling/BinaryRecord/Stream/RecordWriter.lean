import BinaryRecord.Schema
import BinaryRecord.Stream.Sink

/-!
# Writing records to a sink

A writer packs records of one schema and writes them to a sink. It counts the records that were
written whole, as long as their number is a size. A record that cannot be packed makes no call to
the sink; one that the sink does not take whole may leave some of its first bytes there.
-/

namespace BinaryRecord

/-- A writer of records. -/
structure RecordWriter where
  /-- What the records are of. -/
  schema : Schema
  /-- Where their bytes go. -/
  sink : Sink
  /-- The number of records written whole, or none from the record on with which it is too large. -/
  records : Option Nat

namespace RecordWriter

/-- A writer that has written nothing yet. -/
def start (schema : Schema) (sink : Sink) : RecordWriter :=
  ⟨schema, sink, some 0⟩

/-- The number of records with one more. -/
def count (writer : RecordWriter) : Option Nat :=
  writer.records.bind (Size.checkedAdd · 1)

/-- Writes the record of the arguments. -/
def write (writer : RecordWriter) (arguments : List Value) :
    Except PackError Unit × RecordWriter :=
  match writer.schema.pack arguments with
  | .error e => (.error e, writer)
  | .ok record =>
    match writer.sink.writeAll record with
    | (.ok (), sink) => (.ok (), { writer with sink, records := writer.count })
    | (.error e, sink) => (.error (.stream e), { writer with sink })

/-- Writes a record for each list of arguments, up to the first that fails. -/
def writeBatch (writer : RecordWriter) : List (List Value) → Except PackError Unit × RecordWriter
  | [] => (.ok (), writer)
  | arguments :: batch =>
    match writer.write arguments with
    | (.ok (), writer) => writer.writeBatch batch
    | (.error e, writer) => (.error e, writer)

/-- Flushes the sink. -/
def flush (writer : RecordWriter) : Except PackError Unit :=
  writer.sink.flush.mapError .stream

/-- Flushes the sink and gives it back. -/
def finish (writer : RecordWriter) : Except PackError Sink := do
  writer.flush
  return writer.sink

end RecordWriter

end BinaryRecord
