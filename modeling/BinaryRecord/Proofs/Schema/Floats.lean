import BinaryRecord.Proofs.Field.FloatLimit
import BinaryRecord.Proofs.Schema.Integers

/-!
# Floats in records

A float or an integer is packed as a double (`Value.ReadsAs`), rounded to the format of its field.
`LimitsFloats` says what this comes to for a place of a record: every double can be packed there but
the numbers from a limit on (`Binary64.IsBeyond`), which are out of range. What can be packed keeps
its class, so that nothing but an infinity is ever stored as one.

`limitsFloats_of_compile` says so of every float field of a compiled schema.
-/

namespace BinaryRecord

/-- The format of the floats whose fields have the character. -/
def FloatFormat.ofChar? : Char → Option FloatFormat
  | 'e' => some half
  | 'f' => some single
  | 'd' => some double
  | _ => none

/-- The value is packed as the double: it is that float, or an integer to which no double is
nearer. -/
inductive Value.ReadsAs : Value → Binary64 → Prop
  | float (x : Binary64) : ReadsAs (.float x) x
  | int {n : Int64} {x : Binary64} (h : x.IsNearestTo n.toInt) : ReadsAs (.int n) x
  | uint {n : UInt64} {x : Binary64} (h : x.IsNearestTo n.toNat) : ReadsAs (.uint n) x

/-- Values are read as the doubles that they are packed as. -/
theorem Value.real?_eq_some_iff {value : Value} {x : Binary64} :
    value.real? = some x ↔ value.ReadsAs x := by
  have hint : ∀ n : Int64, (Binary64.ofInt n.toInt).IsNearestTo n.toInt := by
    intro n
    have hle := n.le_toInt
    have hlt := n.toInt_lt
    exact Binary64.isNearestTo_ofInt (by omega)
  have huint : ∀ n : UInt64, (Binary64.ofInt n.toNat).IsNearestTo n.toNat := by
    intro n
    have hlt := n.toNat_lt
    exact Binary64.isNearestTo_ofInt (by omega)
  constructor
  · intro h
    cases value with
    | float own => exact Option.some.inj h ▸ .float own
    | int n => exact Option.some.inj h ▸ .int (hint n)
    | uint n => exact Option.some.inj h ▸ .uint (huint n)
    | bool truth => contradiction
    | char byte => contradiction
    | bytes data => contradiction
  · intro h
    cases h with
    | float => rfl
    | int h => exact congrArg some ((hint _).unique h)
    | uint h => exact congrArg some ((huint _).unique h)

/-- Floats and integers are packed as doubles. -/
theorem Value.exists_readsAs {value : Value} (h : value.variant ∈ [.float, .int, .uint]) :
    ∃ x, value.ReadsAs x := by
  have hreads : ∃ x, value.real? = some x := by
    cases value <;> simp [Value.variant] at h <;> exact ⟨_, rfl⟩
  obtain ⟨x, hx⟩ := hreads
  exact ⟨x, Value.real?_eq_some_iff.mp hx⟩

/-- An integer is packed as the double nearest to it. -/
theorem Value.ReadsAs.isNearestTo {value : Value} {x : Binary64} {n : Int} (h : value.ReadsAs x)
    (hvariant : value.variant = .int ∨ value.variant = .uint) (hvalue : value.StandsFor n) :
    x.IsNearestTo n := by
  cases h with
  | float => simp [Value.variant] at hvariant
  | int h => cases hvalue; exact h
  | uint h => cases hvalue; exact h

namespace Binary64

variable {format : FloatFormat} {x : Binary64} {c : Char}

/-- The least number that is too large for a field with the character: the one from which on numbers
are rounded to infinity. A field of eight bytes has room for all. -/
def limit? : Char → Option ℚ
  | 'f' => some (2^128 - 2^103)
  | 'e' => some (65520 - 1 / 2^9)
  | _ => none

/-- The double is a number, and too large for a field with the character. -/
def IsBeyond (c : Char) (x : Binary64) : Prop :=
  x.isFinite = true ∧ ∃ limit ∈ limit? c, limit ≤ |x.number|

/-- A double is not beyond the limit when it is below, provided that it is a number. -/
theorem not_isBeyond_iff :
    ¬ x.IsBeyond c ↔ (x.isFinite = true → ∀ limit ∈ limit? c, |x.number| < limit) := by
  simp only [IsBeyond, not_and, not_exists, not_le]

/-- The pattern is of the class of the double: a number, an infinity, or no number and quiet. The
sign is the same. -/
structure IsStoredAs (format : FloatFormat) (x : Binary64) (bits : Nat) : Prop where
  /-- A number is stored as a number, never as an infinity. -/
  finite : x.isFinite = true → format.isFinite bits = true
  /-- An infinity is stored as one. -/
  infinite : x.isInfinite = true → format.isInfinite bits = true
  /-- What is no number and quiet is stored as such. -/
  quiet : FloatFormat.double.IsQuiet x.bits.toNat → format.IsQuiet bits
  /-- The sign is kept. -/
  sign_eq : format.sign bits = x.sign

end Binary64

namespace Field

open FloatFormat

variable {field : Field} {format : FloatFormat} {order : ByteOrder} {value : Value} {x : Binary64}
  {image : List UInt8}

/-! ## Fields of floats -/

/-- The field is one of floats of the format. -/
inductive IsFloat (field : Field) : FloatFormat → Prop
  | half (h : field = ⟨'e', .float, 2, 2⟩) : IsFloat field half
  | single (h : field = ⟨'f', .float, 4, 4⟩) : IsFloat field single
  | double (h : field = ⟨'d', .float, 8, 8⟩) : IsFloat field double

namespace IsFloat

/-- A field of floats holds floats. -/
theorem kind_eq (h : field.IsFloat format) : field.kind = .float := by
  cases h with
  | half h => rw [h]
  | single h => rw [h]
  | double h => rw [h]

/-- The width of a field of floats is one of three, and its format is that of the width. -/
theorem floatFormat_eq (h : field.IsFloat format) :
    field.unitSize ∈ floatWidths ∧ floatFormat field.unitSize = format := by
  cases h with
  | half h => subst h; exact ⟨by decide, rfl⟩
  | single h => subst h; exact ⟨by decide, rfl⟩
  | double h => subst h; exact ⟨by decide, rfl⟩

/-- A double fits in a field of floats unless it is beyond the limit. -/
theorem fitsFloat_iff (h : field.IsFloat format) :
    FitsFloat field.unitSize x ↔ ¬ x.IsBeyond field.typeChar := by
  rw [Binary64.not_isBeyond_iff]
  cases h with
  | half h =>
    subst h
    rw [fitsFloat_two_iff]
    simp only [Binary64.limit?, Option.mem_some_iff, forall_eq']
  | single h =>
    subst h
    rw [fitsFloat_four_iff]
    simp only [Binary64.limit?, Option.mem_some_iff, forall_eq']
  | double h =>
    subst h
    exact iff_of_true (fitsFloat_eight x) fun _ _ hnone => nomatch hnone

/-- A field of floats accepts what is packed as a double that is not beyond the limit. -/
theorem accepts_iff (h : field.IsFloat format) (hvalue : value.ReadsAs x) :
    field.Accepts value ↔ ¬ x.IsBeyond field.typeChar := by
  have hreads := Value.real?_eq_some_iff.mpr hvalue
  rw [← h.fitsFloat_iff, Accepts, and_iff_right ((admits_float_iff h.kind_eq).mpr ⟨x, hreads⟩),
    Fits, h.kind_eq]
  simp [hreads]

/-- Of the integers, a field of two bytes accepts those below the middle. -/
theorem accepts_iff_of_standsFor (h : field.IsFloat format) (hchar : field.typeChar = 'e') {n : Int}
    (hvariant : value.variant = .int ∨ value.variant = .uint) (hvalue : value.StandsFor n) :
    field.Accepts value ↔ |n| ≤ 65519 := by
  have hmem : value.variant ∈ [.float, .int, .uint] := by
    rcases hvariant with hvariant | hvariant <;> simp [hvariant]
  obtain ⟨x, hx⟩ := Value.exists_readsAs hmem
  have hnearest := hx.isNearestTo hvariant hvalue
  rw [h.accepts_iff hx, ← h.fitsFloat_iff]
  cases h with
  | half h =>
    subst h
    exact fitsFloat_two_iff_of_isNearestTo hnearest
  | single h => simp [h] at hchar
  | double h => simp [h] at hchar

/-- The image of what is packed as a double holds a pattern of its class. -/
theorem isStoredAs_of_hasImage (h : field.IsFloat format)
    (himage : field.HasImage order value image) (hvalue : value.ReadsAs x) :
    x.IsStoredAs format (field.word order image).toNat := by
  obtain ⟨hwidth, hformat⟩ := h.floatFormat_eq
  have hreads := Value.real?_eq_some_iff.mpr hvalue
  have hkind := h.kind_eq
  cases himage with
  | float _ hown hfits =>
    obtain rfl := Option.some.inj (hreads.symm.trans hown)
    -- The word holds the rounded pattern, of which sign and magnitude are known.
    rw [word, Word.ofBytes_toBytes, BitVec.toNat_ofNat,
      Nat.mod_eq_of_lt (roundFloat_lt hwidth _), ← hformat]
    have hmagnitude := magnitude_roundFloat hwidth x
    constructor
    case finite =>
      intro hx
      rw [isFinite, hmagnitude, decide_eq_true_eq]
      exact (Field.fitsFloat_iff hwidth).mp hfits hx
    case infinite =>
      intro hx
      rw [isInfinite, hmagnitude, Binary64.isInfinite_iff.mp hx, roundMagnitude_infinity hwidth,
        beq_self_eq_true]
    case quiet =>
      intro hx
      rw [IsQuiet, hmagnitude]
      exact quietNaN_le_roundMagnitude hwidth hx
    case sign_eq => exact sign_roundFloat hwidth x
  | _ => simp_all

end IsFloat

/-- A field whose type has the character of a format is one of floats of the format, in every
mode. -/
theorem IsOfType.isFloat {mode : Mode} {code : TypeCode} {run : Run}
    (h : field.IsOfType mode code run) (hfind : TypeCode.find run.typeChar = .ok code)
    (hformat : FloatFormat.ofChar? field.typeChar = some format) : field.IsFloat format := by
  have htable : ∀ code ∈ TypeCode.all, (FloatFormat.ofChar? code.char).isSome →
      code ∈ [⟨'e', 2, 2, .float⟩, ⟨'f', 4, 4, .float⟩, ⟨'d', 8, 8, .float⟩] := by
    decide
  obtain ⟨hcode, hchar⟩ := TypeCode.find_eq_ok_iff.mp hfind
  have hown : field.typeChar = code.char := h.typeChar_eq.trans hchar.symm
  rw [hown] at hformat
  have hfloat := htable code hcode (Option.isSome_of_eq_some hformat)
  have hfield : field = ⟨code.char, code.kind, code.size mode,
      code.size mode * if code.kind = .bytes ∨ code.kind = .pad then run.count else 1⟩ := by
    rw [← h.totalSize_eq, ← h.kind_eq, ← h.unitSize_eq, ← hown]
  simp only [List.mem_cons, List.not_mem_nil, or_false] at hfloat
  rcases hfloat with rfl | rfl | rfl
  · obtain rfl := Option.some.inj hformat
    exact .half (by simpa [TypeCode.size] using hfield)
  · obtain rfl := Option.some.inj hformat
    exact .single (by simpa [TypeCode.size] using hfield)
  · obtain rfl := Option.some.inj hformat
    exact .double (by simpa [TypeCode.size] using hfield)

end Field

/-! ## Records -/

namespace Schema

variable {allocator : Allocator} {text : String} {schema : Schema} {field : Field} {offset k : Nat}
  {format : FloatFormat}

/-- A place of a compiled schema whose type has the character of a format is one of floats of the
format. -/
theorem isFloat_of_compile (hcompile : compile allocator text = .ok schema)
    (hplace : schema.argumentPlaces[k]? = some (field, offset))
    (hformat : FloatFormat.ofChar? field.typeChar = some format) : field.IsFloat format := by
  have hmem : field ∈ schema.fields := by
    rw [← (wellFormed_of_compile hcompile).map_fst_places]
    exact List.mem_map_of_mem (List.mem_filter.mp (List.mem_of_getElem? hplace)).1
  obtain ⟨format, fields, layout, -, hfields, -, rfl⟩ := compile_eq_ok_iff.mp hcompile
  obtain ⟨run, -, code, hfind, htype⟩ := Field.exists_isOfType_of_mem_ofRuns hfields hmem
  exact htype.isFloat hfind hformat

/-- The place of the argument of index `k` holds floats of the format, up to the limit. -/
structure LimitsFloats (schema : Schema) (k : Nat) (field : Field) (offset : Nat)
    (format : FloatFormat) : Prop where
  /-- In the place of an argument of a record, just the floats and integers can be packed whose
  double is not beyond the limit. -/
  pack_set_iff : ∀ (arguments : List Value) (value : Value), k < arguments.length →
    value.variant ∈ [.float, .int, .uint] → (∃ bytes, schema.pack arguments = .ok bytes) →
      ∃ x, value.ReadsAs x ∧
        ((∃ bytes, schema.pack (arguments.set k value) = .ok bytes) ↔ ¬ x.IsBeyond field.typeChar)
  /-- A float or an integer is out of range exactly when its double is beyond the limit, where
  nothing before it is refused. -/
  outOfRange_iff : ∀ (arguments : List Value) (value : Value),
    arguments.length = schema.argumentCount → schema.AcceptsBefore arguments k →
      arguments[k]? = some value → value.variant ∈ [.float, .int, .uint] →
        ∃ x, value.ReadsAs x ∧
          (schema.pack arguments = .error (.valueOutOfRange k field.typeChar) ↔
            x.IsBeyond field.typeChar)
  /-- What is stored for an argument is a pattern of the class of its double. -/
  stored : ∀ (arguments : List Value) (bytes : List UInt8) (value : Value),
    schema.pack arguments = .ok bytes → arguments[k]? = some value →
      ∃ x, value.ReadsAs x ∧ x.IsStoredAs format
        (field.word schema.mode.byteOrder (slice bytes offset field.totalSize)).toNat
  /-- Of the integers, just those up to 65519 on either side of zero can be packed in two bytes. -/
  pack_integer_iff : field.typeChar = 'e' → ∀ (arguments : List Value) (value : Value) (n : Int),
    k < arguments.length → value.variant = .int ∨ value.variant = .uint → value.StandsFor n →
      (∃ bytes, schema.pack arguments = .ok bytes) →
        ((∃ bytes, schema.pack (arguments.set k value) = .ok bytes) ↔ |n| ≤ 65519)

/-- Every place of a float in a record of a compiled schema holds floats up to the limit. -/
theorem limitsFloats_of_compile (hcompile : compile allocator text = .ok schema)
    (hplace : schema.argumentPlaces[k]? = some (field, offset))
    (hformat : FloatFormat.ofChar? field.typeChar = some format) :
    schema.LimitsFloats k field offset format := by
  have hschema := wellFormed_of_compile hcompile
  have hcount := argumentCount_eq_min hcompile
  have hplaces : schema.argumentCount ≤ schema.argumentPlaces.length := by omega
  have hfloat := isFloat_of_compile hcompile hplace hformat
  constructor
  case pack_set_iff =>
    intro arguments value hk hvariant hpack
    obtain ⟨x, hx⟩ := Value.exists_readsAs hvariant
    exact ⟨x, hx, (hschema.exists_pack_set_iff hplaces hplace hk hpack value).trans
      (hfloat.accepts_iff hx)⟩
  case outOfRange_iff =>
    intro arguments value hlength hbefore hvalue hvariant
    obtain ⟨x, hx⟩ := Value.exists_readsAs hvariant
    have hadmits := (Field.admits_float_iff hfloat.kind_eq).mpr
      ⟨x, Value.real?_eq_some_iff.mpr hx⟩
    have hbeyond := not_congr (hfloat.accepts_iff hx)
    rw [Field.Accepts, and_iff_right hadmits, not_not] at hbeyond
    refine ⟨x, hx, ?_⟩
    rw [hschema.pack_eq_outOfRange_iff hplaces hplace hlength hbefore hvalue,
      and_iff_right hadmits, hbeyond]
  case stored =>
    intro arguments bytes value hpack hvalue
    obtain ⟨himage, -⟩ := hschema.hasImage_of_pack hplaces hplace hpack hvalue
    obtain ⟨x, hreads⟩ := (Field.admits_float_iff hfloat.kind_eq).mp himage.accepts.1
    have hx := Value.real?_eq_some_iff.mp hreads
    exact ⟨x, hx, hfloat.isStoredAs_of_hasImage himage hx⟩
  case pack_integer_iff =>
    intro hchar arguments value n hk hvariant hvalue hpack
    exact (hschema.exists_pack_set_iff hplaces hplace hk hpack value).trans
      (hfloat.accepts_iff_of_standsFor hchar hvariant hvalue)

/-- A float of two bytes behind a byte. -/
theorem limitsFloats_two_bytes : ∃ schema, compile .generous "<be" = .ok schema ∧
    schema.argumentPlaces[1]? = some (⟨'e', .float, 2, 2⟩, 1) ∧
    FloatFormat.ofChar? 'e' = some .half ∧
    schema.LimitsFloats 1 ⟨'e', .float, 2, 2⟩ 1 .half := by
  have hcompile : compile .generous "<be" = .ok ⟨"<be", .little,
      [⟨'b', .signed, 1, 1⟩, ⟨'e', .float, 2, 2⟩], ⟨[0, 1], 3⟩, 2⟩ := by
    decide +kernel
  exact ⟨_, hcompile, rfl, rfl, limitsFloats_of_compile hcompile rfl rfl⟩

end Schema

end BinaryRecord
