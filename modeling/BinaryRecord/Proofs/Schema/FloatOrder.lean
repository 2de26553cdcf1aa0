import BinaryRecord.Proofs.Field.StoredFloat
import BinaryRecord.Proofs.Schema.Floats

/-!
# Order of stored floats

A narrow float field may give back another double than the one that was packed (`Schema.Stores`).
`KeepsFloatOrder` says what can be relied on: the order is kept, and the sign, and what the format
of the field has is stored as it is, so that storing again changes nothing and no double that the
format has is passed over.

`keepsFloatOrder_of_compile` says so of every narrow float field of a compiled schema. There are
records for this to be about, since every field accepts some value (`Field.accepts_sample`).
-/

namespace BinaryRecord

/-! ## Values that are accepted -/

/-- A value that fields of the kind accept. -/
def Kind.sample : Kind → Value
  | .pad | .bytes => .bytes []
  | .bool => .bool false
  | .char => .char 0
  | .signed => .int 0
  | .unsigned => .uint 0
  | .float => .float ⟨0⟩

namespace Field

variable {field : Field} {format : FloatFormat} {x : Binary64} {result : Value}

/-- Zero fits in every float field. -/
theorem fitsFloat_zero {w : Nat} (hw : w ∈ floatWidths) : FitsFloat w ⟨0⟩ := by
  rw [fitsFloat_iff hw]
  intro _
  rcases mem_floatWidths_iff.mp hw with rfl | rfl | rfl <;> decide +kernel

/-- A field that takes an argument accepts the sample of its kind. -/
theorem accepts_sample (hproper : field.IsProper) (hargument : field.takesArgument = true) :
    field.Accepts field.kind.sample := by
  unfold Accepts Admits Fits
  cases hkind : field.kind with
  | pad => exact absurd hkind (takesArgument_iff.mp hargument)
  | bool => simp [Kind.sample, Kind.variants, Value.variant]
  | char => simp [Kind.sample, Kind.variants, Value.variant, Value.asBytes?]
  | signed =>
    simp [Kind.sample, Kind.variants, Value.variant, Value.number?, fitsInteger_signed_iff]
  | unsigned =>
    simp [Kind.sample, Kind.variants, Value.variant, Value.number?, fitsInteger_unsigned_iff]
  | float =>
    have hfits := fitsFloat_zero (hproper.mem_floatWidths hkind)
    simp [Kind.sample, Kind.variants, Value.variant, Value.real?, hfits]
  | bytes => simp [Kind.sample, Kind.variants, Value.variant]

/-- A field of floats that is not of eight bytes is narrow. -/
theorem IsFloat.mem_narrowWidths (h : field.IsFloat format) (hchar : field.typeChar ∈ ['e', 'f']) :
    field.unitSize ∈ narrowWidths := by
  cases h with
  | half h => subst h; decide
  | single h => subst h; decide
  | double h => subst h; simp at hchar

/-- Units are small enough for every format of fields. -/
theorem IsFloat.bias_le (h : field.IsFloat format) :
    format.bias + format.fractionBits ≤ FloatFormat.unitExponent + 1 := by
  cases h <;> decide

/-- The canonical form of a float is the stored one. -/
theorem CanonicalForm.eq_storedFloat (h : field.CanonicalForm (.float x) result)
    (hkind : field.kind = .float) : result = .float (storedFloat field.unitSize x) := by
  cases h with
  | float => rfl
  | nearest _ hvariant => simp [Value.variant] at hvariant
  | _ => simp_all

end Field

namespace Schema

variable {allocator : Allocator} {text : String} {schema : Schema} {field : Field} {offset k : Nat}
  {format : FloatFormat}
  {value : Value} {x y : Binary64}

/-- There is a record with the value as one of its arguments, if the field there accepts it. -/
theorem WellFormed.exists_pack_of_accepts (hschema : schema.WellFormed)
    (hplaces : schema.argumentCount ≤ schema.argumentPlaces.length)
    (hk : k < schema.argumentCount) (hplace : schema.argumentPlaces[k]? = some (field, offset))
    (hvalue : field.Accepts value) : ∃ arguments bytes, arguments[k]? = some value ∧
      schema.pack arguments = .ok bytes := by
  let samples := (schema.argumentPlaces.take schema.argumentCount).map (·.1.kind.sample)
  have hlength : samples.length = schema.argumentCount := by
    rw [List.length_map, List.length_take, Nat.min_eq_left hplaces]
  have haccepts : schema.AcceptsBefore samples samples.length := by
    intro j hj own start argument hown hargument
    rw [List.getElem?_map, List.getElem?_take, if_pos (hlength ▸ hj), hown] at hargument
    obtain ⟨hproper, htakes⟩ :=
      hschema.isProper_of_mem_argumentPlaces (List.mem_of_getElem? hown)
    exact Option.some.inj hargument ▸ Field.accepts_sample hproper htakes
  have hpack := (hschema.exists_pack_iff_acceptsBefore hplaces).mpr ⟨hlength, haccepts⟩
  obtain ⟨bytes, hbytes⟩ :=
    (hschema.exists_pack_set_iff hplaces hplace (hlength ▸ hk) hpack value).mpr hvalue
  exact ⟨samples.set k value, bytes, List.getElem?_set_self (hlength ▸ hk), hbytes⟩

/-- Unpacking a record gives the second double at the place where the first was packed. -/
def Stores (schema : Schema) (k : Nat) (x y : Binary64) : Prop :=
  ∃ arguments bytes values, arguments[k]? = some (.float x) ∧
    schema.pack arguments = .ok bytes ∧ schema.unpack bytes = .ok values ∧
    values[k]? = some (.float y)

/-- Doubles that fit are given back as they are stored. -/
theorem WellFormed.stores_iff (hschema : schema.WellFormed)
    (hplaces : schema.argumentCount ≤ schema.argumentPlaces.length)
    (hk : k < schema.argumentCount) (hplace : schema.argumentPlaces[k]? = some (field, offset))
    (hfloat : field.IsFloat format) : schema.Stores k x y ↔
      ¬ x.IsBeyond field.typeChar ∧ Field.storedFloat field.unitSize x = y := by
  obtain ⟨hproper, -⟩ := hschema.isProper_of_mem_argumentPlaces (List.mem_of_getElem? hplace)
  have haccepts := hfloat.accepts_iff (.float x)
  constructor
  · rintro ⟨arguments, bytes, values, hx, hpack, hunpack, hy⟩
    obtain ⟨himage, own, hown, hresult⟩ := hschema.hasImage_of_pack hplaces hplace hpack hx
    obtain rfl := Except.ok.inj (hunpack.symm.trans hown)
    have hstored := (himage.canonicalForm hproper).eq_storedFloat hfloat.kind_eq
    rw [hresult, hstored] at hy
    exact ⟨haccepts.mp himage.accepts, Value.float.inj (Option.some.inj hy)⟩
  · rintro ⟨hbeyond, rfl⟩
    obtain ⟨arguments, bytes, hx, hpack⟩ :=
      hschema.exists_pack_of_accepts hplaces hk hplace (haccepts.mpr hbeyond)
    obtain ⟨himage, values, hunpack, hresult⟩ := hschema.hasImage_of_pack hplaces hplace hpack hx
    have hstored := (himage.canonicalForm hproper).eq_storedFloat hfloat.kind_eq
    exact ⟨arguments, bytes, values, hx, hpack, hunpack, hstored ▸ hresult⟩

/-- The place of the argument of index `k` keeps the order of doubles, in a field of the given
character and format. -/
structure KeepsFloatOrder (schema : Schema) (k : Nat) (typeChar : Char) (format : FloatFormat) :
    Prop where
  /-- Of the doubles that are not beyond the limit, some double is given back. -/
  exists_stores_iff : ∀ x, (∃ y, schema.Stores k x y) ↔ ¬ x.IsBeyond typeChar
  /-- Whatever the record, it is the same one. -/
  unique : ∀ x y other, schema.Stores k x y → schema.Stores k x other → y = other
  /-- A double that is not larger is not given back as a larger one. -/
  le : ∀ x y lesser larger, x.Le y → schema.Stores k x lesser → schema.Stores k y larger →
    lesser.Le larger
  /-- The opposite of a double is given back as the opposite, that of zero included. -/
  neg : ∀ x y, schema.Stores k x y → schema.Stores k x.neg y.neg
  /-- What the format has is given back as it is. -/
  representable : ∀ x, x.IsRepresentable format → schema.Stores k x x
  /-- What is given back is given back again, bit for bit. -/
  idempotent : ∀ x y, x.isNaN = false → schema.Stores k x y → schema.Stores k y y
  /-- No double that the format has stands between what was packed and what is given back. -/
  not_passed : ∀ x y bound, bound.IsRepresentable format → schema.Stores k x y →
    (x.Le bound → y.Le bound) ∧ (bound.Le x → bound.Le y)

/-- Every place of a narrow float in a record of a compiled schema keeps the order of doubles. -/
theorem keepsFloatOrder_of_compile (hcompile : compile allocator text = .ok schema)
    (hk : k < schema.argumentCount) (hplace : schema.argumentPlaces[k]? = some (field, offset))
    (hchar : field.typeChar ∈ ['e', 'f'])
    (hformat : FloatFormat.ofChar? field.typeChar = some format) :
    schema.KeepsFloatOrder k field.typeChar format := by
  have hcount := argumentCount_eq_min hcompile
  have hfloat := isFloat_of_compile hcompile hplace hformat
  have hnarrow := hfloat.mem_narrowWidths hchar
  have hwidth := Field.mem_floatWidths_of_narrow hnarrow
  have hstores : ∀ x y, schema.Stores k x y ↔ Field.FitsFloat field.unitSize x ∧
      Field.storedFloat field.unitSize x = y := by
    intro x y
    rw [hfloat.fitsFloat_iff]
    exact (wellFormed_of_compile hcompile).stores_iff (by omega) hk hplace hfloat
  -- What the format has is stored as it is.
  have hexact : ∀ x, x.IsExact format → schema.Stores k x x := by
    intro x hx
    rw [← hfloat.floatFormat_eq.2] at hx
    exact (hstores x x).mpr
      ⟨Field.fitsFloat_of_isExact hnarrow hx, Field.storedFloat_of_isExact hwidth fun _ => hx⟩
  have hkept : ∀ x, x.IsRepresentable format → schema.Stores k x x :=
    fun x hx => hexact x (hx.isExact hfloat.bias_le)
  have hle : ∀ x y lesser larger, x.Le y → schema.Stores k x lesser → schema.Stores k y larger →
      lesser.Le larger := by
    intro x y lesser larger hxy hx hy
    obtain ⟨-, rfl⟩ := (hstores x lesser).mp hx
    obtain ⟨-, rfl⟩ := (hstores y larger).mp hy
    exact Field.le_storedFloat hnarrow hxy
  constructor
  case exists_stores_iff =>
    intro x
    rw [← hfloat.fitsFloat_iff]
    simp only [hstores, exists_and_left, exists_eq', and_true]
  case unique =>
    intro x y other hy hother
    exact ((hstores x y).mp hy).2.symm.trans ((hstores x other).mp hother).2
  case le => exact hle
  case neg =>
    intro x y h
    obtain ⟨hfits, rfl⟩ := (hstores x y).mp h
    exact (hstores _ _).mpr
      ⟨(Field.fitsFloat_neg_iff hnarrow).mpr hfits, Field.storedFloat_neg hnarrow x⟩
  case representable => exact hkept
  case idempotent =>
    intro x y hx h
    obtain ⟨-, rfl⟩ := (hstores x y).mp h
    apply hexact
    rw [← hfloat.floatFormat_eq.2]
    exact Field.isExact_storedFloat hnarrow hx
  case not_passed =>
    intro x y bound hbound h
    exact ⟨fun hxy => hle x bound y bound hxy h (hkept bound hbound),
      fun hxy => hle bound x bound y hxy (hkept bound hbound) h⟩

/-- A float of two bytes behind a byte. -/
theorem keepsFloatOrder_two_bytes : ∃ schema, compile .generous "<be" = .ok schema ∧
    1 < schema.argumentCount ∧ schema.argumentPlaces[1]? = some (⟨'e', .float, 2, 2⟩, 1) ∧
    FloatFormat.ofChar? 'e' = some .half ∧ schema.KeepsFloatOrder 1 'e' .half := by
  have hcompile : compile .generous "<be" = .ok ⟨"<be", .little,
      [⟨'b', .signed, 1, 1⟩, ⟨'e', .float, 2, 2⟩], ⟨[0, 1], 3⟩, 2⟩ := by
    decide +kernel
  have hplace : (⟨"<be", .little, [⟨'b', .signed, 1, 1⟩, ⟨'e', .float, 2, 2⟩], ⟨[0, 1], 3⟩, 2⟩ :
      Schema).argumentPlaces[1]? = some (⟨'e', .float, 2, 2⟩, 1) := rfl
  exact ⟨_, hcompile, by decide, hplace, rfl,
    keepsFloatOrder_of_compile hcompile (by decide) hplace (by decide) rfl⟩

end Schema

end BinaryRecord
