import BinaryRecord.Layout
import BinaryRecord.Window.Fields

/-!
# Schemas

A schema is a format that has been compiled: its fields and where they stand. `Schema.pack` makes a
record of arguments. It starts from a window of zero bytes and stores the arguments into it, so that
padding and gaps are zero. `Schema.unpack` reads the fields of a record back. Both have forms that
work at an offset in a larger buffer.
-/

namespace BinaryRecord

/-- A compiled format. -/
structure Schema where
  /-- The text of the format. -/
  text : String
  /-- The mode of the format. -/
  mode : Mode
  /-- The fields, padding included. -/
  fields : List Field
  /-- Where the fields stand. -/
  layout : Layout
  /-- The number of arguments of a record. -/
  argumentCount : Nat
  deriving DecidableEq, Repr

namespace Schema

/-- The schema of a format. -/
def compile (allocator : Allocator) (text : String) : Except FormatError Schema := do
  let format ← Format.parse text
  let fields ← Field.ofRuns allocator format.mode format.runs
  match fields.find? (!·.isStorable) with
  | some field => .error (.unsupportedType field.typeChar)
  | none =>
    let layout ← Layout.compute format.mode fields
    return ⟨text, format.mode, fields, layout, Run.countArguments format.runs⟩

/-- The number of bytes of a record. -/
def size (schema : Schema) : Nat :=
  schema.layout.size

/-- The offset of each field. -/
def offsets (schema : Schema) : List Nat :=
  schema.layout.offsets

/-- The fields with their offsets. -/
def places (schema : Schema) : List (Field × Nat) :=
  schema.fields.zip schema.offsets

/-! ## Packing -/

/-- The record of the arguments. -/
def pack (schema : Schema) (arguments : List Value) : Except PackError (List UInt8) :=
  if arguments.length = schema.argumentCount then do
    let blank := Window.zeroed schema.size schema.mode.byteOrder
    let window ← blank.storeFields 0 schema.places arguments
    return window.toList
  else .error (.itemCountMismatch schema.argumentCount arguments.length)

/-- The end of a record at `offset` in a buffer of `available` bytes. -/
def recordEnd (schema : Schema) (available offset : Nat) : Except PackError Nat :=
  if offset + schema.size ≤ available then .ok (offset + schema.size)
  else .error (.bufferTooSmall (Size.saturatingAdd offset schema.size) available)

/-- The buffer with the record of the arguments at `offset`. -/
def packInto (schema : Schema) (buffer : List UInt8) (offset : Nat) (arguments : List Value) :
    Except PackError (List UInt8) := do
  let stop ← schema.recordEnd buffer.length offset
  let record ← schema.pack arguments
  return buffer.take offset ++ record ++ buffer.drop stop

/-! ## Unpacking -/

/-- The values of a record. -/
def unpack (schema : Schema) (bytes : List UInt8) : Except PackError (List Value) :=
  if bytes.length = schema.size then
    (Window.ofList bytes schema.mode.byteOrder).loadFields schema.places
  else .error (.bufferSizeMismatch schema.size bytes.length)

/-- The values of the record at `offset` in a buffer. -/
def unpackFrom (schema : Schema) (buffer : List UInt8) (offset : Nat) :
    Except PackError (List Value) := do
  let stop ← schema.recordEnd buffer.length offset
  schema.unpack (buffer.extract offset stop)

end Schema

/-! ## Formats used once -/

/-- The schema of a format, with its error as one of packing. -/
def compileToPack (allocator : Allocator) (text : String) : Except PackError Schema :=
  (Schema.compile allocator text).mapError .format

/-- The record of the arguments in a format. -/
def pack (allocator : Allocator) (text : String) (arguments : List Value) :
    Except PackError (List UInt8) := do
  let schema ← compileToPack allocator text
  schema.pack arguments

/-- The values of a record in a format. -/
def unpack (allocator : Allocator) (text : String) (bytes : List UInt8) :
    Except PackError (List Value) := do
  let schema ← compileToPack allocator text
  schema.unpack bytes

/-- The number of bytes of a record in a format. -/
def packedSize (allocator : Allocator) (text : String) : Except PackError Nat :=
  (Layout.sizeOfFormat allocator text).mapError .format

end BinaryRecord
