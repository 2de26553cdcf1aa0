import BinaryRecord.Schema.RecordCursor

/-!
# Sessions

A session is a schema with a buffer that records are packed into and unpacked from.
`Session.perform` carries out one request; it answers it, or says why it cannot, and gives the
session after it. Only `packInto` changes the buffer, and only when it succeeds.
-/

namespace BinaryRecord

/-- A schema and a buffer. -/
structure Session where
  /-- What the records are of. -/
  schema : Schema
  /-- The buffer. -/
  buffer : List UInt8

namespace Session

/-- What can be asked of a session. -/
inductive Request where
  /-- The record of arguments, apart from the buffer. -/
  | pack (arguments : List Value)
  /-- The record of arguments, written into the buffer at an offset. -/
  | packInto (offset : Nat) (arguments : List Value)
  /-- The values of the buffer as one record. -/
  | unpack
  /-- The values of the record at an offset in the buffer. -/
  | unpackFrom (offset : Nat)
  /-- The values of all records that fill the buffer. -/
  | unpackAll

/-- What a session answers. -/
inductive Reply where
  /-- The request is done. -/
  | done
  /-- The bytes of a record. -/
  | bytes (record : List UInt8)
  /-- The values of a record. -/
  | record (values : List Value)
  /-- The values of several records. -/
  | records (records : List (List Value))

/-- Carries out a request. -/
def perform (session : Session) : Request → Except PackError Reply × Session
  | .pack arguments => ((session.schema.pack arguments).map .bytes, session)
  | .packInto offset arguments =>
    match session.schema.packInto session.buffer offset arguments with
    | .ok buffer => (.ok .done, { session with buffer })
    | .error e => (.error e, session)
  | .unpack => ((session.schema.unpack session.buffer).map .record, session)
  | .unpackFrom offset =>
    ((session.schema.unpackFrom session.buffer offset).map .record, session)
  | .unpackAll => ((session.schema.unpackAll session.buffer).map .records, session)

end Session

end BinaryRecord
