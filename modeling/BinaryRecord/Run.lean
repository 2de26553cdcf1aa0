import BinaryRecord.Size
import BinaryRecord.TypeCode

/-!
# Runs

A run is what one token of a format stands for: a type character and how often its type is repeated.
A run of a string or of padding is a single field, whose width the repeat gives; any other run is as
many fields as it repeats.
-/

namespace BinaryRecord

/-- A type character with its repeat count. -/
structure Run where
  /-- The type character. -/
  typeChar : Char
  /-- The repeat count, 1 where the format gives none. -/
  count : Nat
  deriving DecidableEq, Repr

namespace Run

/-- Whether the run is a string of bytes. -/
def isString (run : Run) : Bool :=
  run.typeChar == 's'

/-- Whether the run is padding. -/
def isPad (run : Run) : Bool :=
  run.typeChar == 'x'

/-- The number of arguments that the run takes: one for a string, none for padding, and otherwise
one for each repetition. -/
def argumentCount (run : Run) : Nat :=
  if run.isString then 1 else if run.isPad then 0 else run.count

/-- The number of arguments that the runs take, or the largest size if there are more. -/
def countArguments (runs : List Run) : Nat :=
  runs.foldl (fun total run => Size.saturatingAdd total run.argumentCount) 0

end Run

end BinaryRecord
