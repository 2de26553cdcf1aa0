import BinaryRecord.Schema

/-!
# Cursors over records

A cursor goes through a buffer that is filled with records of one schema, from the first to the
last. `Schema.cursor` makes one where the buffer is a whole number of records of at least one byte.
`next` gives the record at the cursor and moves past it, and gives none at the end, now and ever
after.
-/

namespace BinaryRecord

/-- A position among the records in a buffer. -/
structure RecordCursor where
  /-- What the records are of. -/
  schema : Schema
  /-- The buffer. -/
  bytes : Array UInt8
  /-- The number of bytes of the records that have been gone past. -/
  position : Nat
  /-- A record has at least one byte. -/
  size_pos : 0 < schema.size

namespace RecordCursor

/-- The number of records still to come. -/
def length (cursor : RecordCursor) : Nat :=
  (cursor.bytes.size - cursor.position) / cursor.schema.size

/-- The bounds on the number of records still to come, both of which are that number. -/
def sizeHint (cursor : RecordCursor) : Nat × Option Nat :=
  (cursor.length, some cursor.length)

/-- The cursor past its record. -/
def advance (cursor : RecordCursor) : RecordCursor :=
  { cursor with position := cursor.position + cursor.schema.size }

/-- Whether a whole record stands at the cursor. -/
def hasNext (cursor : RecordCursor) : Bool :=
  cursor.position + cursor.schema.size ≤ cursor.bytes.size

/-- The values of the record at the cursor. -/
def current (cursor : RecordCursor) : Except PackError (List Value) :=
  cursor.schema.unpack
    (cursor.bytes.extract cursor.position (cursor.position + cursor.schema.size)).toList

/-- The next record, if any, and the cursor past it. -/
def next (cursor : RecordCursor) : Option (Except PackError (List Value)) × RecordCursor :=
  if cursor.hasNext then (some cursor.current, cursor.advance) else (none, cursor)

/-- The record after `n` others, which are gone past as far as there are any. -/
def nth (cursor : RecordCursor) : Nat → Option (Except PackError (List Value)) × RecordCursor
  | 0 => cursor.next
  | n + 1 =>
    match cursor.next with
    | (some _, cursor) => cursor.nth n
    | (none, cursor) => (none, cursor)

/-- A whole record at the cursor is fewer bytes to go. -/
theorem advance_lt {cursor : RecordCursor} (h : cursor.hasNext = true) :
    cursor.advance.bytes.size - cursor.advance.position < cursor.bytes.size - cursor.position := by
  have hpos := cursor.size_pos
  simp only [hasNext, decide_eq_true_eq] at h
  simp only [advance]
  omega

/-- All records still to come. -/
def toList (cursor : RecordCursor) : Except PackError (List (List Value)) :=
  if _h : cursor.hasNext then do
    let record ← cursor.current
    let records ← cursor.advance.toList
    return record :: records
  else .ok []
termination_by cursor.bytes.size - cursor.position
decreasing_by exact advance_lt ‹_›

end RecordCursor

/-- A cursor at the first record of a buffer. -/
def Schema.cursor (schema : Schema) (bytes : List UInt8) : Except PackError RecordCursor :=
  if h : schema.size = 0 then .error .zeroSizedRecord
  else if bytes.length % schema.size = 0 then .ok ⟨schema, bytes.toArray, 0, by omega⟩
  else .error (.raggedBuffer schema.size bytes.length)

/-- The records that fill a buffer. -/
def Schema.unpackAll (schema : Schema) (bytes : List UInt8) :
    Except PackError (List (List Value)) := do
  let cursor ← schema.cursor bytes
  cursor.toList

end BinaryRecord
