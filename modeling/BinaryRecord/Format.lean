import BinaryRecord.Run

/-!
# Formats

A format is a text that describes a record: an optional mode marker, then any number of tokens, each
an optional run of decimal digits and a type character. `Format.parse` reads it in one pass from
left to right. The pass carries the position, in bytes, and the repeat count that is being read, if
any; a count that becomes too large is refused at the digit that makes it so.
-/

namespace BinaryRecord

/-- What the text of a format says. -/
structure Format where
  /-- The mode that the marker selects. -/
  mode : Mode
  /-- The tokens, in order. -/
  runs : List Run
  deriving DecidableEq, Repr

/-- A repeat count of which some digits have been read. -/
structure PendingCount where
  /-- The position of its first digit. -/
  start : Nat
  /-- The value of the digits so far. -/
  value : Nat
  deriving DecidableEq, Repr

namespace Format

/-- The characters that may stand as type characters. No type belongs to `n`, `N`, `p` and `P`. -/
def typeChars : List Char :=
  ['x', 'c', 'b', 'B', '?', 'h', 'H', 'i', 'I', 'l', 'L', 'q', 'Q', 'n', 'N', 'e', 'f', 'd', 's',
    'p', 'P']

/-- Whether a character may stand as a type character. -/
def isTypeChar (c : Char) : Bool :=
  typeChars.contains c

/-- The value of a decimal digit. -/
def digitValue (c : Char) : Nat :=
  c.toNat - '0'.toNat

/-- The count with one more digit, which stands at `position`. The first digit always fits. -/
def pushDigit (pending : Option PendingCount) (position digit : Nat) :
    Except FormatError PendingCount :=
  match pending with
  | none => .ok ⟨position, digit⟩
  | some count =>
    if count.value * 10 + digit ≤ Size.maxSize then .ok ⟨count.start, count.value * 10 + digit⟩
    else .error (.repeatOverflow count.start)

/-- The runs in a text without a marker, which starts at `position` and in front of which the digits
of `pending` have been read. -/
def parseRuns (pending : Option PendingCount) (position : Nat) :
    List Char → Except FormatError (List Run)
  | [] =>
    match pending with
    | none => .ok []
    | some count => .error (.missingTypeChar count.start)
  | c :: text =>
    if c.isDigit then do
      let count ← pushDigit pending position (digitValue c)
      parseRuns (some count) (position + c.utf8Size) text
    else if isTypeChar c then do
      let runs ← parseRuns none (position + c.utf8Size) text
      return ⟨c, (pending.map (·.value)).getD 1⟩ :: runs
    else .error (.invalidFormatChar c position)

/-- The mode of a text, and what follows the marker: its position and its characters. -/
def splitMarker : List Char → Mode × Nat × List Char
  | [] => (default, 0, [])
  | c :: text =>
    match Mode.ofMarker? c with
    | some mode => (mode, c.utf8Size, text)
    | none => (default, 0, c :: text)

/-- What a format says, or the first fault in it. -/
def parse (text : String) : Except FormatError Format := do
  let (mode, position, tokens) := splitMarker text.toList
  let runs ← parseRuns none position tokens
  return ⟨mode, runs⟩

end Format

end BinaryRecord
