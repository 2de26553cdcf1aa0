import BinaryRecord.Text.Unprintable
import BinaryRecord.Text.DefaultIgnorable
import BinaryRecord.Text.ExtendingMark

/-!
# Quoted characters

A character in an error message stands in single quotes. Four control characters, the single quote
and the backslash have escapes of their own. Any other character that would not show, or that would
be drawn on the quote before it, is written by its code point in hexadecimal.
-/

namespace BinaryRecord.Text

/-- A code point as `\u{…}`, in lowercase hexadecimal without leading zeros. -/
def unicodeEscape (c : Char) : String :=
  "\\u\x7b" ++ String.ofList (Nat.toDigits 16 c.toNat) ++ "\x7d"

/-- Whether a character does not show as itself between single quotes: it does not print, it is
ignored by default, or it would be drawn on the opening quote. -/
def isHidden (c : Char) : Bool :=
  isUnprintable c || isDefaultIgnorable c || isExtendingMark c

/-- A character as it stands between single quotes. -/
def escape (c : Char) : String :=
  match c with
  | '\x00' => "\\0"
  | '\t' => "\\t"
  | '\r' => "\\r"
  | '\n' => "\\n"
  | '\x27' => "\\'"
  | '\\' => "\\\\"
  | _ => if isHidden c then unicodeEscape c else c.toString

/-- A character in single quotes. -/
def quote (c : Char) : String :=
  "'" ++ escape c ++ "'"

end BinaryRecord.Text
