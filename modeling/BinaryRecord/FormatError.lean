import BinaryRecord.Text.Quoted

/-!
# Errors in formats

What can be wrong with a format: three faults of its text, a type character without a type, and a
record that is too large.
-/

namespace BinaryRecord

/-- Why a format describes no record. Positions are offsets in the UTF-8 encoding of the format. -/
inductive FormatError where
  /-- A character stands where only a type character may. -/
  | invalidFormatChar (char : Char) (position : Nat)
  /-- The format ends after the repeat count that starts at the position. -/
  | missingTypeChar (position : Nat)
  /-- The repeat count that starts at the position is too large. -/
  | repeatOverflow (position : Nat)
  /-- The type character belongs to no type. -/
  | unsupportedType (char : Char)
  /-- The record is too large. -/
  | sizeOverflow
  deriving DecidableEq, Repr

/-- The text of the error. -/
def FormatError.message : FormatError → String
  | invalidFormatChar char position =>
    s!"invalid format character {Text.quote char} at position {position}"
  | missingTypeChar position =>
    s!"repeat count at position {position} is not followed by a type character"
  | repeatOverflow position => s!"repeat count at position {position} overflows usize"
  | unsupportedType char => s!"type character {Text.quote char} is not supported"
  | sizeOverflow => "format describes more bytes than fit in usize"

end BinaryRecord
