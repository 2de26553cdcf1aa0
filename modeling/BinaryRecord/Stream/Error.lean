/-!
# Errors of streams

A call to a stream may be interrupted, which is no failure and only asks for the call to be made
again, or it may fail. Failures are those of the stream itself, passed on with its own text, and the
two that come of what a stream does: taking nothing, and ending within a record.
-/

namespace BinaryRecord

/-- What happened in a call to a stream. -/
inductive StreamErrorKind where
  /-- The call was interrupted before it did anything, and may be made again. -/
  | interrupted
  /-- The stream takes no more bytes. -/
  | writeZero
  /-- The stream ended within a record. -/
  | unexpectedEof
  /-- A failure of the stream's own. -/
  | other
  deriving DecidableEq, Repr

/-- An error of a stream. -/
structure StreamError where
  /-- What happened. -/
  kind : StreamErrorKind
  /-- The text of the error. -/
  message : String
  deriving DecidableEq, Repr

namespace StreamError

/-- A stream that takes no bytes will not take the rest of them. -/
def writeZero : StreamError :=
  ⟨.writeZero, "failed to write whole buffer"⟩

/-- A stream that ends after `filled` of the `size` bytes of a record. -/
def truncated (filled size : Nat) : StreamError :=
  ⟨.unexpectedEof, s!"record truncated after {filled} of {size} bytes"⟩

end StreamError

end BinaryRecord
