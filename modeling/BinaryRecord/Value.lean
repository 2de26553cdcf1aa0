import BinaryRecord.FloatFormat

/-!
# Values

A value is what a field holds, or what is given to be put into one. There are six variants. An
argument need not be of the variant in which its field gives it back: `number?`, `truth?`, `byte?`
and `real?` say how a value reads where an integer, a truth value, a byte or a float is wanted, and
which values do not read so at all.
-/

namespace BinaryRecord

/-- What a field holds. -/
inductive Value where
  /-- A truth value. -/
  | bool (truth : Bool)
  /-- A single byte. -/
  | char (byte : UInt8)
  /-- An integer of 64 bits with a sign. -/
  | int (n : Int64)
  /-- An integer of 64 bits without a sign. -/
  | uint (n : UInt64)
  /-- A floating-point number. -/
  | float (x : Binary64)
  /-- A string of bytes. -/
  | bytes (data : List UInt8)
  deriving DecidableEq, Repr

/-- The variants of values. -/
inductive Variant where
  | bool | char | int | uint | float | bytes
  deriving DecidableEq, Repr

/-- The name of a variant. -/
def Variant.name : Variant → String
  | bool => "bool"
  | char => "char"
  | int => "int"
  | uint => "uint"
  | float => "float"
  | bytes => "bytes"

namespace Value

/-- The variant of a value. -/
def variant : Value → Variant
  | bool _ => .bool
  | char _ => .char
  | int _ => .int
  | uint _ => .uint
  | float _ => .float
  | bytes _ => .bytes

/-! ## Values from other data -/

/-- The value of a number of 32 bits, given by its pattern. -/
def ofSingle (bits : UInt32) : Value :=
  float (Binary64.widen .single bits.toNat)

/-- The value of a text, which is its UTF-8 encoding. -/
def ofString (text : String) : Value :=
  bytes text.toUTF8.data.toList

/-- The value of a character: a single byte when its code point fits in one, and its UTF-8 encoding
otherwise. -/
def ofChar (c : Char) : Value :=
  if c.toNat < 256 then char (UInt8.ofNat c.toNat) else ofString c.toString

/-! ## Readings -/

/-- The integer that a value stands for, where an integer is wanted. -/
def number? : Value → Option Int
  | int n => some n.toInt
  | uint n => some n.toNat
  | bool truth => some (if truth then 1 else 0)
  | char byte => some byte.toNat
  | float _ | bytes _ => none

/-- The truth value that a value stands for: integers other than zero are true. -/
def truth? : Value → Option Bool
  | bool truth => some truth
  | int n => some (n != 0)
  | uint n => some (n != 0)
  | char _ | float _ | bytes _ => none

/-- The byte that a value stands for: a string of exactly one byte will do. -/
def byte? : Value → Option UInt8
  | char byte => some byte
  | bytes [byte] => some byte
  | _ => none

/-- The floating-point number that a value stands for: integers are rounded to the nearest. -/
def real? : Value → Option Binary64
  | float x => some x
  | int n => some (.ofInt n.toInt)
  | uint n => some (.ofInt n.toNat)
  | bool _ | char _ | bytes _ => none

/-! ## Access -/

/-- The integer with a sign that a value is, from either variant of integers. -/
def asInt? : Value → Option Int64
  | int n => some n
  | uint n => if n.toNat < 2^(63 : Nat) then some (Int64.ofInt n.toNat) else none
  | _ => none

/-- The integer without a sign that a value is, from either variant of integers. -/
def asUInt? : Value → Option UInt64
  | uint n => some n
  | int n => if 0 ≤ n.toInt then some (UInt64.ofNat n.toInt.toNat) else none
  | _ => none

/-- The floating-point number that a value is. -/
def asFloat? : Value → Option Binary64
  | float x => some x
  | _ => none

/-- The string of bytes that a value is. -/
def asBytes? : Value → Option (List UInt8)
  | bytes data => some data
  | _ => none

/-- Whether two values of one variant compare as equal: floats do as numbers, and the others do when
they are the same. -/
def comparesEqual : Value → Value → Bool
  | float x, float y => x.numericallyEqual y
  | a, b => a == b

end Value

end BinaryRecord
