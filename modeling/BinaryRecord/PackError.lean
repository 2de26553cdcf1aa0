import BinaryRecord.FormatError
import BinaryRecord.Value
import BinaryRecord.Window
import BinaryRecord.Stream.Error

/-!
# Errors in packing and unpacking

What can go wrong between values and bytes: the format, the arguments, the buffers, an access to a
window, or a stream.
-/

namespace BinaryRecord

/-- Why values or bytes cannot be packed or unpacked. -/
inductive PackError where
  /-- The format describes no record. -/
  | format (cause : FormatError)
  /-- The number of arguments is not that of the format. -/
  | itemCountMismatch (expected found : Nat)
  /-- The argument's variant is none that the type takes. -/
  | typeMismatch (index : Nat) (typeChar : Char) (found : Variant)
  /-- The argument does not fit in the type. -/
  | valueOutOfRange (index : Nat) (typeChar : Char)
  /-- The record would end beyond the buffer. -/
  | bufferTooSmall (needed available : Nat)
  /-- The buffer is not of the record's size. -/
  | bufferSizeMismatch (expected found : Nat)
  /-- The buffer is no whole number of records. -/
  | raggedBuffer (recordSize length : Nat)
  /-- Records without bytes cannot be counted off. -/
  | zeroSizedRecord
  /-- A field lies outside the record's bytes. -/
  | access (cause : AccessError)
  /-- The stream failed. -/
  | stream (cause : StreamError)
  deriving DecidableEq, Repr

/-- The text of the error. -/
def PackError.message : PackError → String
  | format cause => s!"format error: {cause.message}"
  | itemCountMismatch expected found => s!"format expects {expected} arguments, got {found}"
  | typeMismatch index typeChar found =>
    s!"argument {index} is {found.name}, which cannot be packed as '{typeChar}'"
  | valueOutOfRange index typeChar => s!"argument {index} is out of range for '{typeChar}'"
  | bufferTooSmall needed available =>
    s!"buffer of {available} bytes cannot hold {needed} bytes"
  | bufferSizeMismatch expected found => s!"unpack expects exactly {expected} bytes, got {found}"
  | raggedBuffer recordSize length =>
    s!"buffer of {length} bytes is not a multiple of the {recordSize}-byte record"
  | zeroSizedRecord => "cannot iterate over records of size 0"
  | access cause => s!"byte view error: {cause.message}"
  | stream cause => s!"IO error: {cause.message}"

end BinaryRecord
