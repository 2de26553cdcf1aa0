import BinaryRecord.Schema
import BinaryRecord.Stream.Source

/-!
# Reading records from a source

A reader takes records of one schema from a source, each from as many calls as it needs. A source
that ends between two records is at its end; one that ends within a record is an error. Bytes of a
record that is not completed are gone.
-/

namespace BinaryRecord

/-- A reader of records. -/
structure RecordReader where
  /-- What the records are of. -/
  schema : Schema
  /-- Where their bytes come from. -/
  source : Source

namespace RecordReader

/-- The next record, or none where the source has ended. -/
def read (reader : RecordReader) : Except PackError (Option (List Value)) × RecordReader :=
  let size := reader.schema.size
  if size = 0 then (.error .zeroSizedRecord, reader)
  else
    match reader.source.fill size [] with
    | (.complete bytes, source) =>
      ((reader.schema.unpack bytes).map some, { reader with source })
    | (.ended [], source) => (.ok none, { reader with source })
    | (.ended bytes, source) =>
      (.error (.stream (.truncated bytes.length size)), { reader with source })
    | (.failed error, source) => (.error (.stream error), { reader with source })

/-- Up to `count` records, fewer where the source ends before. Records that were read before an
error are not given. -/
def readBatch (reader : RecordReader) :
    (count : Nat) → Except PackError (List (List Value)) × RecordReader
  | 0 => (.ok [], reader)
  | count + 1 =>
    match reader.read with
    | (.error e, reader) => (.error e, reader)
    | (.ok none, reader) => (.ok [], reader)
    | (.ok (some record), reader) =>
      match reader.readBatch count with
      | (.error e, reader) => (.error e, reader)
      | (.ok records, reader) => (.ok (record :: records), reader)

end RecordReader

end BinaryRecord
