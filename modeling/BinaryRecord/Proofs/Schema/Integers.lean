import BinaryRecord.Proofs.Schema.RecordCursor
import BinaryRecord.Proofs.Word
import Mathlib

/-!
# Integers in records

Four variants of values stand for an integer (`Value.StandsFor`), and an integer field has room for
those in its range (`Field.HasRoomFor`). `IsExactInteger` says what this comes to for a place of a
record, whatever the other arguments are: an argument can be packed there exactly when it stands for
an integer that the field has room for. The bytes that are stored are the two's complement of that
integer in the order of the mode, and unpacking gives the integer back. Nothing but the integer
matters: arguments of different variants that stand for the same one have the same outcome.

`isExactInteger_of_compile` says so of every integer field of a compiled schema.
-/

namespace BinaryRecord

/-- The value is of a variant that stands for an integer, and this is the integer. -/
inductive Value.StandsFor : Value → Int → Prop
  | int (n : Int64) : StandsFor (.int n) n.toInt
  | uint (n : UInt64) : StandsFor (.uint n) n.toNat
  | bool (truth : Bool) : StandsFor (.bool truth) (if truth then 1 else 0)
  | char (byte : UInt8) : StandsFor (.char byte) byte.toNat

/-- Values are read as the integers that they stand for. -/
theorem Value.number?_eq_some_iff {value : Value} {n : Int} :
    value.number? = some n ↔ value.StandsFor n := by
  constructor
  · intro h
    cases value with
    | int m => exact Option.some.inj h ▸ .int m
    | uint m => exact Option.some.inj h ▸ .uint m
    | bool truth => exact Option.some.inj h ▸ .bool truth
    | char byte => exact Option.some.inj h ▸ .char byte
    | float x => contradiction
    | bytes data => contradiction
  · intro h
    cases h <;> rfl

namespace Field

variable {field : Field} {order : ByteOrder} {value other result : Value} {image : List UInt8}
  {n : Int}

/-- The integer is in the range of an integer field: that of the two's complement of its width where
the field is signed, and else that of the natural numbers of its width. -/
def HasRoomFor (field : Field) (n : Int) : Prop :=
  if field.kind = .signed then
    -2^(8 * field.unitSize - 1) ≤ n ∧ n ≤ 2^(8 * field.unitSize - 1) - 1
  else 0 ≤ n ∧ n ≤ 2^(8 * field.unitSize) - 1

/-- The two's complement of an integer, as wide as the field. The byte of significance `i` has the
bits of the integer from bit `8 * i` on. -/
def twosComplement (field : Field) (order : ByteOrder) (n : Int) : List UInt8 :=
  (List.range field.unitSize).map fun i =>
    UInt8.ofInt (n / 256^(order.significance field.unitSize i))

/-- The value is the integer in the form in which the field gives it back. -/
inductive GivesBack (field : Field) (n : Int) : Value → Prop
  | int {m : Int64} (hkind : field.kind = .signed) (hm : m.toInt = n) : GivesBack field n (.int m)
  | uint {m : UInt64} (hkind : field.kind = .unsigned) (hm : (m.toNat : Int) = n) :
      GivesBack field n (.uint m)

/-! ## One field -/

/-- The word of an integer is written as its two's complement. -/
theorem toBytes_ofInt (field : Field) (order : ByteOrder) (n : Int) :
    Word.toBytes order (BitVec.ofInt (8 * field.unitSize) n) = field.twosComplement order n := by
  unfold twosComplement
  rw [Word.toBytes_eq_map]
  apply List.map_congr_left
  intro i hi
  exact Word.byte_ofInt n (order.significance_lt (List.mem_range.mp hi))

/-- The two's complement of a number below zero, the most significant byte first. -/
example : twosComplement ⟨'h', .signed, 2, 2⟩ .big (-2) = [255, 254] := by decide

section Integer

variable (hkind : field.kind = .signed ∨ field.kind = .unsigned)
include hkind

/-- An integer field admits the values that stand for an integer. -/
theorem admits_iff_standsFor : field.Admits value ↔ ∃ n, value.StandsFor n := by
  rw [admits_integer_iff hkind]
  exact exists_congr fun n => Value.number?_eq_some_iff

/-- A value that stands for an integer fits when the field has room for the integer. -/
theorem fits_iff_hasRoomFor (hvalue : value.StandsFor n) :
    field.Fits value ↔ field.HasRoomFor n := by
  have hreads := Value.number?_eq_some_iff.mpr hvalue
  unfold Fits HasRoomFor
  rcases hkind with hkind | hkind
  · simp [hkind, hreads, fitsInteger_signed_iff]
  · simp [hkind, hreads, fitsInteger_unsigned_iff]

/-- An integer field accepts the values that stand for an integer which it has room for. -/
theorem accepts_iff_standsFor :
    field.Accepts value ↔ ∃ n, value.StandsFor n ∧ field.HasRoomFor n := by
  unfold Accepts
  rw [admits_iff_standsFor hkind]
  constructor
  · rintro ⟨⟨n, hvalue⟩, hfits⟩
    exact ⟨n, hvalue, (fits_iff_hasRoomFor hkind hvalue).mp hfits⟩
  · rintro ⟨n, hvalue, hroom⟩
    exact ⟨⟨n, hvalue⟩, (fits_iff_hasRoomFor hkind hvalue).mpr hroom⟩

/-- The image of a value is the two's complement of the integer that it stands for. -/
theorem HasImage.eq_twosComplement (h : field.HasImage order value image)
    (hvalue : value.StandsFor n) : image = field.twosComplement order n := by
  have hreads := Value.number?_eq_some_iff.mpr hvalue
  cases h with
  | signed _ hown =>
    obtain rfl := Option.some.inj (hown.symm.trans hreads)
    exact field.toBytes_ofInt order _
  | unsigned _ hown =>
    obtain rfl := Option.some.inj (hown.symm.trans hreads)
    exact field.toBytes_ofInt order _
  | _ => simp_all

/-- What comes back for a value is the integer that it stands for. -/
theorem CanonicalForm.givesBack (h : field.CanonicalForm value result)
    (hvalue : value.StandsFor n) : field.GivesBack n result := by
  have hreads := Value.number?_eq_some_iff.mpr hvalue
  cases h with
  | signed hkind hown => exact .int hkind (Option.some.inj (hown.symm.trans hreads))
  | unsigned hkind hown => exact .uint hkind (Option.some.inj (hown.symm.trans hreads))
  | _ => simp_all

end Integer

/-- Values that stand for the same integer have the same image, or are refused alike. -/
theorem encode_alike (order : ByteOrder) (hkind : field.kind = .signed ∨ field.kind = .unsigned)
    (hvalue : value.StandsFor n) (hother : other.StandsFor n) :
    (∃ image, field.encode order value = .ok image ∧ field.encode order other = .ok image) ∨
      field.encode order value = .error .outOfRange ∧
        field.encode order other = .error .outOfRange := by
  by_cases hroom : field.HasRoomFor n
  · have haccepts := (accepts_iff_standsFor hkind).mpr ⟨n, hvalue, hroom⟩
    have haccepts' := (accepts_iff_standsFor hkind).mpr ⟨n, hother, hroom⟩
    obtain ⟨image, himage⟩ : ∃ image, field.HasImage order value image := haccepts.exists_hasImage
    obtain ⟨image', himage'⟩ : ∃ image, field.HasImage order other image :=
      haccepts'.exists_hasImage
    -- Both images are the two's complement of the one integer.
    have hsame : image' = image := (himage'.eq_twosComplement hkind hother).trans
      (himage.eq_twosComplement hkind hvalue).symm
    exact .inl ⟨image, himage.encode_eq, hsame ▸ himage'.encode_eq⟩
  · right
    constructor
    · exact encode_of_not_fits ((admits_iff_standsFor hkind).mpr ⟨n, hvalue⟩)
        fun hfits => hroom ((fits_iff_hasRoomFor hkind hvalue).mp hfits)
    · exact encode_of_not_fits ((admits_iff_standsFor hkind).mpr ⟨n, hother⟩)
        fun hfits => hroom ((fits_iff_hasRoomFor hkind hother).mp hfits)

end Field

/-! ## Storing -/

namespace Window

variable {field : Field} {value other : Value} {n : Int}

/-- Values that stand for the same integer are stored alike in an integer field. -/
theorem storeField_congr (hkind : field.kind = .signed ∨ field.kind = .unsigned)
    (hvalue : value.StandsFor n) (hother : other.StandsFor n) (window : Window)
    (offset index : Nat) :
    window.storeField field offset index value = window.storeField field offset index other := by
  unfold storeField
  rcases Field.encode_alike window.order hkind hvalue hother with
    ⟨image, himage, himage'⟩ | ⟨hrefused, hrefused'⟩
  · rw [himage, himage']
    rfl
  · -- The error of a number that is out of range does not tell what the argument was.
    rw [hrefused, hrefused']
    rfl

end Window

/-! ## Records -/

namespace Schema

variable {allocator : Allocator} {text : String} {schema : Schema} {field : Field} {offset k : Nat}

/-- The place of the argument of index `k` holds an integer, exactly. -/
structure IsExactInteger (schema : Schema) (k : Nat) (field : Field) (offset : Nat) : Prop where
  /-- The field is one, two, four or eight bytes wide. -/
  width : field.unitSize ∈ [1, 2, 4, 8] ∧ field.totalSize = field.unitSize
  /-- In the place of an argument of a record, just the values can be packed that stand for an
  integer which the field has room for. -/
  pack_set_iff : ∀ (arguments : List Value) (value : Value), k < arguments.length →
    (∃ bytes, schema.pack arguments = .ok bytes) →
      ((∃ bytes, schema.pack (arguments.set k value) = .ok bytes) ↔
        ∃ n, value.StandsFor n ∧ field.HasRoomFor n)
  /-- What is stored for an argument is the two's complement of its integer in the order of the
  mode. Unpacking gives the integer back, with a sign where the field is signed. -/
  stored : ∀ (arguments : List Value) (bytes : List UInt8) (value : Value),
    schema.pack arguments = .ok bytes → arguments[k]? = some value →
      ∃ n, value.StandsFor n ∧ field.HasRoomFor n ∧
        slice bytes offset field.totalSize = field.twosComplement schema.mode.byteOrder n ∧
        ∃ values result, schema.unpack bytes = .ok values ∧ values[k]? = some result ∧
          field.GivesBack n result
  /-- An integer that the field has no room for is out of range, where nothing before it is
  refused. -/
  outOfRange : ∀ (arguments : List Value) (value : Value) (n : Int),
    arguments.length = schema.argumentCount → schema.AcceptsBefore arguments k →
      arguments[k]? = some value → value.StandsFor n → ¬ field.HasRoomFor n →
        schema.pack arguments = .error (.valueOutOfRange k field.typeChar)
  /-- A float and a string are of a wrong type, where nothing before them is refused. -/
  typeMismatch : ∀ (arguments : List Value) (value : Value),
    arguments.length = schema.argumentCount → schema.AcceptsBefore arguments k →
      arguments[k]? = some value → value.variant = .float ∨ value.variant = .bytes →
        schema.pack arguments = .error (.typeMismatch k field.typeChar value.variant)
  /-- It makes no difference which of the values is packed that stand for one integer. -/
  pack_set_congr : ∀ (arguments : List Value) (value other : Value) (n : Int),
    value.StandsFor n → other.StandsFor n →
      schema.pack (arguments.set k value) = schema.pack (arguments.set k other)

/-- What is stored at a place of an integer is its two's complement, from which unpacking gives it
back. -/
theorem WellFormed.stored_of_pack (hschema : schema.WellFormed)
    (hplaces : schema.argumentCount ≤ schema.argumentPlaces.length)
    (hplace : schema.argumentPlaces[k]? = some (field, offset))
    (hkind : field.kind = .signed ∨ field.kind = .unsigned) (arguments : List Value)
    (bytes : List UInt8) (value : Value) (hpack : schema.pack arguments = .ok bytes)
    (hvalue : arguments[k]? = some value) :
    ∃ n, value.StandsFor n ∧ field.HasRoomFor n ∧
      slice bytes offset field.totalSize = field.twosComplement schema.mode.byteOrder n ∧
      ∃ values result, schema.unpack bytes = .ok values ∧ values[k]? = some result ∧
        field.GivesBack n result := by
  obtain ⟨hproper, -⟩ := hschema.isProper_of_mem_argumentPlaces (List.mem_of_getElem? hplace)
  obtain ⟨himage, values, hunpack, hresult⟩ := hschema.hasImage_of_pack hplaces hplace hpack hvalue
  obtain ⟨n, hn, hroom⟩ := (Field.accepts_iff_standsFor hkind).mp himage.accepts
  exact ⟨n, hn, hroom, himage.eq_twosComplement hkind hn, values, _, hunpack, hresult,
    (himage.canonicalForm hproper).givesBack hkind hn⟩

/-- Every place of an integer in a record of a compiled schema holds it exactly. -/
theorem isExactInteger_of_compile (hcompile : compile allocator text = .ok schema)
    (hplace : schema.argumentPlaces[k]? = some (field, offset))
    (hkind : field.kind = .signed ∨ field.kind = .unsigned) :
    schema.IsExactInteger k field offset := by
  have hschema := wellFormed_of_compile hcompile
  have hcount := argumentCount_eq_min hcompile
  have hplaces : schema.argumentCount ≤ schema.argumentPlaces.length := by omega
  obtain ⟨hproper, hargument⟩ :=
    hschema.isProper_of_mem_argumentPlaces (List.mem_of_getElem? hplace)
  constructor
  case width =>
    refine ⟨hproper.mem_integerWidths hkind, hproper.totalSize_eq ?_ ?_⟩
    · rcases hkind with hkind | hkind <;> simp [hkind]
    · rcases hkind with hkind | hkind <;> simp [hkind]
  case pack_set_iff =>
    intro arguments value hk hpack
    obtain ⟨hlength, haccepts⟩ := (hschema.exists_pack_iff_acceptsBefore hplaces).mp hpack
    rw [hschema.exists_pack_iff_acceptsBefore hplaces, List.length_set, and_iff_right hlength,
      ← Field.accepts_iff_standsFor hkind]
    have hset := acceptsBefore_set_iff value hplace hk haccepts
    rwa [List.length_set] at hset
  case stored => exact hschema.stored_of_pack hplaces hplace hkind
  case outOfRange =>
    intro arguments value n hlength hbefore hvalue hn hroom
    have hadmits := (Field.admits_iff_standsFor hkind).mpr ⟨n, hn⟩
    have hfits : ¬ field.Fits value := fun h => hroom ((Field.fits_iff_hasRoomFor hkind hn).mp h)
    exact pack_of_refused hschema hlength hplace hvalue hbefore
      (Field.encode_of_not_fits hadmits hfits)
  case typeMismatch =>
    intro arguments value hlength hbefore hvalue hvariant
    have hadmits : ¬ field.Admits value := by
      rw [Field.admits_iff_standsFor hkind]
      rintro ⟨n, hn⟩
      cases hn <;> simp [Value.variant] at hvariant
    exact pack_of_refused hschema hlength hplace hvalue hbefore
      (Field.encode_of_not_admits hargument hadmits)
  case pack_set_congr =>
    intro arguments value other n hvalue hother
    apply hschema.pack_set_congr hplace
    intro window index
    exact Window.storeField_congr hkind hvalue hother window offset index

/-- The number without a sign behind a number with one, in the order that is not the host's. -/
theorem isExactInteger_two_bytes : ∃ schema, compile .generous ">bH" = .ok schema ∧
    schema.argumentPlaces[1]? = some (⟨'H', .unsigned, 2, 2⟩, 1) ∧
    schema.IsExactInteger 1 ⟨'H', .unsigned, 2, 2⟩ 1 := by
  have hcompile : compile .generous ">bH" = .ok ⟨">bH", .big,
      [⟨'b', .signed, 1, 1⟩, ⟨'H', .unsigned, 2, 2⟩], ⟨[0, 1], 3⟩, 2⟩ := by
    decide +kernel
  exact ⟨_, hcompile, rfl, isExactInteger_of_compile hcompile rfl (.inr rfl)⟩

end Schema

end BinaryRecord
