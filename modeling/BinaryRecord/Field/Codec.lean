import BinaryRecord.Field
import BinaryRecord.PackError
import BinaryRecord.Value
import BinaryRecord.Word

/-!
# Images of values in fields

The image of a value in a field is the bytes that the field holds for it. `Field.encode` gives the
image, or says why there is none, and `Field.decode` gives the value of an image. Both work on one
field alone: neither knows where the field stands or what the fields around it hold.
-/

namespace BinaryRecord

/-- Why a value has no image in a field. -/
inductive Refusal where
  /-- The field takes no values of the variant, or no string of that length. -/
  | typeMismatch
  /-- The field takes numbers, but not this one. -/
  | outOfRange
  deriving DecidableEq, Repr

/-- The error for an argument that is refused. -/
def Refusal.toError (refusal : Refusal) (index : Nat) (field : Field) (value : Value) : PackError :=
  match refusal with
  | typeMismatch => .typeMismatch index field.typeChar value.variant
  | outOfRange => .valueOutOfRange index field.typeChar

/-- The reading of a value that a field asks for. -/
def Refusal.ofReading {α : Type} (reading : Option α) : Except Refusal α :=
  match reading with
  | some a => .ok a
  | none => .error .typeMismatch

namespace Field

/-! ## Integers -/

/-- The least and the largest number in an integer field of `w` bytes. -/
def integerRange (signed : Bool) (w : Nat) : Int × Int :=
  if signed then (-2^(8 * w - 1), 2^(8 * w - 1) - 1) else (0, 2^(8 * w) - 1)

/-- The word of a number in an integer field of `w` bytes, in two's complement. -/
def encodeInteger (signed : Bool) (w : Nat) (n : Int) : Except Refusal (Word w) :=
  let (least, largest) := integerRange signed w
  if least ≤ n ∧ n ≤ largest then .ok (BitVec.ofInt (8 * w) n) else .error .outOfRange

/-! ## Floats -/

/-- The format of the floats in a field of `w` bytes. -/
def floatFormat (w : Nat) : FloatFormat :=
  match w with
  | 2 => .half
  | 4 => .single
  | _ => .double

/-- The pattern in a field of `w` bytes that a double is rounded to. In eight bytes it stays as it
is, whatever its bits. On the way to a half it is rounded to a single first. That is an assumption:
halves are made by a library of their own, which may also go there in one step, and then gives
another half for some of the doubles that are near the middle of two. -/
def roundFloat (w : Nat) (x : Binary64) : Nat :=
  let bits := x.bits.toNat
  match w with
  | 2 => FloatFormat.single.convert .half (FloatFormat.double.convert .single bits)
  | 4 => FloatFormat.double.convert .single bits
  | _ => bits

/-- The word of a double in a float field of `w` bytes. A number is refused when it would become an
infinity. -/
def encodeFloat (w : Nat) (x : Binary64) : Except Refusal (Word w) :=
  let bits := roundFloat w x
  if (floatFormat w).isInfinite bits && x.isFinite then .error .outOfRange
  else .ok (BitVec.ofNat (8 * w) bits)

/-- The double of a word in a float field of `w` bytes. A half or a single has one double of the
same value. That the library of halves gives this double is assumed, too, but not which way it goes:
whether a half is widened to a single first makes no difference. -/
def decodeFloat {w : Nat} (word : Word w) : Binary64 :=
  match w with
  | 2 => .widen .half word.toNat
  | 4 => .widen .single word.toNat
  | _ => ⟨UInt64.ofNat word.toNat⟩

/-! ## Strings -/

/-- A string of `width` bytes: what does not fit is cut off, and what is missing is zero. -/
def fitBytes (width : Nat) (data : List UInt8) : List UInt8 :=
  data.take width ++ List.replicate (width - data.length) 0

/-- A fitted string is as wide as the field. -/
@[simp] theorem length_fitBytes (width : Nat) (data : List UInt8) :
    (fitBytes width data).length = width := by
  rw [fitBytes, List.length_append, List.length_take, List.length_replicate]
  omega

/-! ## Fields -/

/-- The image of a value in the field, in the given byte order. -/
def encode (field : Field) (order : ByteOrder) (value : Value) : Except Refusal (List UInt8) :=
  match field.kind with
  | .pad => return List.replicate field.totalSize 0
  | .bool => do
    let truth ← Refusal.ofReading value.truth?
    return [if truth then 1 else 0]
  | .char => do
    let byte ← Refusal.ofReading value.byte?
    return [byte]
  | .signed => do
    let n ← Refusal.ofReading value.number?
    let word ← encodeInteger true field.unitSize n
    return word.toBytes order
  | .unsigned => do
    let n ← Refusal.ofReading value.number?
    let word ← encodeInteger false field.unitSize n
    return word.toBytes order
  | .float => do
    let x ← Refusal.ofReading value.real?
    let word ← encodeFloat field.unitSize x
    return word.toBytes order
  | .bytes => do
    let data ← Refusal.ofReading value.asBytes?
    return fitBytes field.totalSize data

/-- The word that an image in the field holds, in the given byte order. -/
def word (field : Field) (order : ByteOrder) (image : List UInt8) : Word field.unitSize :=
  Word.ofBytes order field.unitSize image

/-- The value of an image in the field, in the given byte order. Any byte but zero is true. -/
def decode (field : Field) (order : ByteOrder) (image : List UInt8) : Value :=
  match field.kind with
  | .pad | .bytes => .bytes image
  | .bool => .bool (field.word order image != 0)
  | .char => .char (UInt8.ofNat (field.word order image).toNat)
  | .signed => .int (Int64.ofInt (field.word order image).toInt)
  | .unsigned => .uint (UInt64.ofNat (field.word order image).toNat)
  | .float => .float (decodeFloat (field.word order image))

end Field

end BinaryRecord
