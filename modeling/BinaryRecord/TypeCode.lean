import BinaryRecord.FormatError
import BinaryRecord.Mode

/-!
# Type codes

The types that a field may have: `TypeCode.all` lists them, each with its character, its two sizes
and the kind of value it holds, and `TypeCode.find` looks one up by its character.
-/

namespace BinaryRecord

/-- What a field of a type holds. -/
inductive Kind where
  /-- Nothing: filler between fields. -/
  | pad
  /-- A truth value. -/
  | bool
  /-- A single byte. -/
  | char
  /-- An integer in two's complement. -/
  | signed
  /-- A natural number. -/
  | unsigned
  /-- A floating-point number. -/
  | float
  /-- A string of bytes. -/
  | bytes
  deriving DecidableEq, Repr

/-- A type of fields. -/
structure TypeCode where
  /-- The character that stands for the type in a format. -/
  char : Char
  /-- The number of bytes of a field where sizes are standard. -/
  standardSize : Nat
  /-- The number of bytes of a field where sizes are the host's. -/
  nativeSize : Nat
  /-- What a field holds. -/
  kind : Kind
  deriving DecidableEq, Repr

namespace TypeCode

/-- The number of bytes of a field in the given mode. -/
def size (code : TypeCode) (mode : Mode) : Nat :=
  if mode.nativeSizes then code.nativeSize else code.standardSize

/-- Every type there is. The host's sizes are the standard ones but for `l` and `L`. -/
def all : List TypeCode :=
  [⟨'x', 1, 1, .pad⟩,
   ⟨'c', 1, 1, .char⟩,
   ⟨'b', 1, 1, .signed⟩,
   ⟨'B', 1, 1, .unsigned⟩,
   ⟨'?', 1, 1, .bool⟩,
   ⟨'h', 2, 2, .signed⟩,
   ⟨'H', 2, 2, .unsigned⟩,
   ⟨'i', 4, 4, .signed⟩,
   ⟨'I', 4, 4, .unsigned⟩,
   ⟨'l', 4, 8, .signed⟩,
   ⟨'L', 4, 8, .unsigned⟩,
   ⟨'q', 8, 8, .signed⟩,
   ⟨'Q', 8, 8, .unsigned⟩,
   ⟨'f', 4, 4, .float⟩,
   ⟨'d', 8, 8, .float⟩,
   ⟨'s', 1, 1, .bytes⟩,
   ⟨'e', 2, 2, .float⟩]

/-- The type that a character stands for. -/
def find (c : Char) : Except FormatError TypeCode :=
  match all.find? (·.char == c) with
  | some code => .ok code
  | none => .error (.unsupportedType c)

/-- The number of bytes of a field whose type the character stands for. -/
def representedSize (c : Char) (mode : Mode) : Except FormatError Nat :=
  (find c).map (·.size mode)

end TypeCode

end BinaryRecord
