import BinaryRecord.Proofs.Field.Float
import BinaryRecord.Proofs.Field.Integer
import BinaryRecord.Proofs.Outcome

/-!
# Which values have an image in a field

A field that holds values admits some of the variants, and of the numbers that it admits it takes
those that fit. `HasImage` says what the image of a value is, one case for each kind of field, and
`encode_eq_ok_iff` that `Field.encode` gives just these images. There is one exactly for the values
that the field accepts (`exists_hasImage_iff`); any other value is refused for its variant if it is
not admitted, and else for its number (`encode_of_not_admits` and `encode_of_not_fits`). An image is
as wide as its field (`HasImage.length_eq`), provided that the field is proper: of a width for which
its kind has a form. The fields of a schema are.
-/

namespace BinaryRecord

/-- A reading that is asked for is got when there is one. -/
theorem Refusal.ofReading_eq_ok_iff {α : Type} {reading : Option α} {a : α} :
    Refusal.ofReading reading = .ok a ↔ reading = some a := by
  cases reading <;> simp [Refusal.ofReading]

/-- The variants of values that a field of the kind takes. -/
def Kind.variants : Kind → List Variant
  | .pad => []
  | .bool => [.bool, .int, .uint]
  | .char => [.char, .bytes]
  | .signed | .unsigned => [.int, .uint, .bool, .char]
  | .float => [.float, .int, .uint]
  | .bytes => [.bytes]

namespace Field

/-! ## Proper fields -/

/-- A field is proper when its kind has a form in units of its size, and when it is one unit wide
unless it is padding or a string. -/
structure IsProper (field : Field) : Prop where
  /-- There is a form for the values of the field. -/
  isStorable : field.isStorable = true
  /-- Only padding and strings are of a width of their own. -/
  totalSize_eq : field.kind ≠ .pad → field.kind ≠ .bytes → field.totalSize = field.unitSize

namespace IsProper

variable {field : Field}

/-- The width of an integer field. -/
theorem mem_integerWidths (h : field.IsProper)
    (hkind : field.kind = .signed ∨ field.kind = .unsigned) : field.unitSize ∈ integerWidths := by
  have hstorable := h.isStorable
  rcases hkind with hkind | hkind
  · simpa [Field.isStorable, hkind, integerWidths] using hstorable
  · simpa [Field.isStorable, hkind, integerWidths] using hstorable

/-- The width of a float field. -/
theorem mem_floatWidths (h : field.IsProper) (hkind : field.kind = .float) :
    field.unitSize ∈ floatWidths := by
  have hstorable := h.isStorable
  simpa [Field.isStorable, hkind, floatWidths] using hstorable

/-- The width of a field for truth values or for characters. -/
theorem unitSize_eq_one (h : field.IsProper) (hkind : field.kind = .bool ∨ field.kind = .char) :
    field.unitSize = 1 := by
  have hstorable := h.isStorable
  rcases hkind with hkind | hkind
  · simpa [Field.isStorable, hkind] using hstorable
  · simpa [Field.isStorable, hkind] using hstorable

end IsProper

/-! ## Accepted values -/

/-- The field takes values of the variant. For a character, a string counts only when it is of one
byte. -/
def Admits (field : Field) (value : Value) : Prop :=
  value.variant ∈ field.kind.variants ∧
    (field.kind = .char → ∀ data ∈ value.asBytes?, data.length = 1)

/-- The number that the value stands for is one that the field has room for. -/
def Fits (field : Field) (value : Value) : Prop :=
  match field.kind with
  | .signed => ∀ n ∈ value.number?, FitsInteger true field.unitSize n
  | .unsigned => ∀ n ∈ value.number?, FitsInteger false field.unitSize n
  | .float => ∀ x ∈ value.real?, FitsFloat field.unitSize x
  | .pad | .bool | .char | .bytes => True

/-- The field takes the value. -/
def Accepts (field : Field) (value : Value) : Prop :=
  field.Admits value ∧ field.Fits value

instance (field : Field) (value : Value) : Decidable (field.Admits value) :=
  inferInstanceAs (Decidable (_ ∧ _))

instance (w : Nat) (x : Binary64) : Decidable (FitsFloat w x) :=
  inferInstanceAs (Decidable (_ → _))

instance (field : Field) (value : Value) : Decidable (field.Fits value) :=
  match hkind : field.kind with
  | .signed => decidable_of_iff (∀ n ∈ value.number?, FitsInteger true field.unitSize n)
      (by rw [Fits, hkind])
  | .unsigned => decidable_of_iff (∀ n ∈ value.number?, FitsInteger false field.unitSize n)
      (by rw [Fits, hkind])
  | .float => decidable_of_iff (∀ x ∈ value.real?, FitsFloat field.unitSize x)
      (by rw [Fits, hkind])
  | .pad | .bool | .char | .bytes => isTrue (by rw [Fits, hkind]; trivial)

instance (field : Field) (value : Value) : Decidable (field.Accepts value) :=
  inferInstanceAs (Decidable (_ ∧ _))

/-! ## Images -/

/-- The bytes that are the image of a value in a field, in the given byte order. -/
inductive HasImage (field : Field) (order : ByteOrder) : Value → List UInt8 → Prop
  | bool {value : Value} {truth : Bool} (hkind : field.kind = .bool)
      (hreads : value.truth? = some truth) : HasImage field order value [if truth then 1 else 0]
  | char {value : Value} {byte : UInt8} (hkind : field.kind = .char)
      (hreads : value.byte? = some byte) : HasImage field order value [byte]
  | signed {value : Value} {n : Int} (hkind : field.kind = .signed)
      (hreads : value.number? = some n) (hfits : FitsInteger true field.unitSize n) :
      HasImage field order value (Word.toBytes order (BitVec.ofInt (8 * field.unitSize) n))
  | unsigned {value : Value} {n : Int} (hkind : field.kind = .unsigned)
      (hreads : value.number? = some n) (hfits : FitsInteger false field.unitSize n) :
      HasImage field order value (Word.toBytes order (BitVec.ofInt (8 * field.unitSize) n))
  | float {value : Value} {x : Binary64} (hkind : field.kind = .float)
      (hreads : value.real? = some x) (hfits : FitsFloat field.unitSize x) :
      HasImage field order value
        (Word.toBytes order (BitVec.ofNat (8 * field.unitSize) (roundFloat field.unitSize x)))
  | bytes {value : Value} {data : List UInt8} (hkind : field.kind = .bytes)
      (hreads : value.asBytes? = some data) :
      HasImage field order value (fitBytes field.totalSize data)

variable {field : Field} {order : ByteOrder} {value : Value} {image : List UInt8}

/-- A field with images takes an argument. -/
theorem takesArgument_iff : field.takesArgument = true ↔ field.kind ≠ .pad := by
  simp [takesArgument, isPad]

/-- What `encode` gives is the image. -/
theorem hasImage_of_encode (hargument : field.takesArgument = true)
    (h : field.encode order value = .ok image) : field.HasImage order value image := by
  -- One case for each kind, in the order in which `encode` has them.
  unfold encode at h
  split at h
  case h_1 hkind => exact absurd hkind (takesArgument_iff.mp hargument)
  case h_2 hkind =>
    obtain ⟨truth, hreads, h⟩ := bind_eq_ok_iff.mp h
    obtain rfl := Except.ok.inj h
    exact .bool hkind (Refusal.ofReading_eq_ok_iff.mp hreads)
  case h_3 hkind =>
    obtain ⟨byte, hreads, h⟩ := bind_eq_ok_iff.mp h
    obtain rfl := Except.ok.inj h
    exact .char hkind (Refusal.ofReading_eq_ok_iff.mp hreads)
  case h_4 hkind =>
    obtain ⟨n, hreads, h⟩ := bind_eq_ok_iff.mp h
    obtain ⟨word, hword, h⟩ := bind_eq_ok_iff.mp h
    obtain ⟨hfits, rfl⟩ := encodeInteger_eq_ok_iff.mp hword
    obtain rfl := Except.ok.inj h
    exact .signed hkind (Refusal.ofReading_eq_ok_iff.mp hreads) hfits
  case h_5 hkind =>
    obtain ⟨n, hreads, h⟩ := bind_eq_ok_iff.mp h
    obtain ⟨word, hword, h⟩ := bind_eq_ok_iff.mp h
    obtain ⟨hfits, rfl⟩ := encodeInteger_eq_ok_iff.mp hword
    obtain rfl := Except.ok.inj h
    exact .unsigned hkind (Refusal.ofReading_eq_ok_iff.mp hreads) hfits
  case h_6 hkind =>
    obtain ⟨x, hreads, h⟩ := bind_eq_ok_iff.mp h
    obtain ⟨word, hword, h⟩ := bind_eq_ok_iff.mp h
    obtain ⟨hfits, rfl⟩ := encodeFloat_eq_ok_iff.mp hword
    obtain rfl := Except.ok.inj h
    exact .float hkind (Refusal.ofReading_eq_ok_iff.mp hreads) hfits
  case h_7 hkind =>
    obtain ⟨data, hreads, h⟩ := bind_eq_ok_iff.mp h
    obtain rfl := Except.ok.inj h
    exact .bytes hkind (Refusal.ofReading_eq_ok_iff.mp hreads)

/-- The image is what `encode` gives. -/
theorem HasImage.encode_eq (h : field.HasImage order value image) :
    field.encode order value = .ok image := by
  cases h with
  | bool hkind hreads =>
    simp only [encode, hkind]
    exact bind_eq_ok_iff.mpr ⟨_, Refusal.ofReading_eq_ok_iff.mpr hreads, rfl⟩
  | char hkind hreads =>
    simp only [encode, hkind]
    exact bind_eq_ok_iff.mpr ⟨_, Refusal.ofReading_eq_ok_iff.mpr hreads, rfl⟩
  | signed hkind hreads hfits =>
    have hword := encodeInteger_eq_ok_iff.mpr ⟨hfits, rfl⟩
    simp only [encode, hkind]
    exact bind_eq_ok_iff.mpr
      ⟨_, Refusal.ofReading_eq_ok_iff.mpr hreads, bind_eq_ok_iff.mpr ⟨_, hword, rfl⟩⟩
  | unsigned hkind hreads hfits =>
    have hword := encodeInteger_eq_ok_iff.mpr ⟨hfits, rfl⟩
    simp only [encode, hkind]
    exact bind_eq_ok_iff.mpr
      ⟨_, Refusal.ofReading_eq_ok_iff.mpr hreads, bind_eq_ok_iff.mpr ⟨_, hword, rfl⟩⟩
  | float hkind hreads hfits =>
    have hword := encodeFloat_eq_ok_iff.mpr ⟨hfits, rfl⟩
    simp only [encode, hkind]
    exact bind_eq_ok_iff.mpr
      ⟨_, Refusal.ofReading_eq_ok_iff.mpr hreads, bind_eq_ok_iff.mpr ⟨_, hword, rfl⟩⟩
  | bytes hkind hreads =>
    simp only [encode, hkind]
    exact bind_eq_ok_iff.mpr ⟨_, Refusal.ofReading_eq_ok_iff.mpr hreads, rfl⟩

/-- A field gives a value the image that it has. -/
theorem encode_eq_ok_iff (hargument : field.takesArgument = true) :
    field.encode order value = .ok image ↔ field.HasImage order value image :=
  ⟨hasImage_of_encode hargument, HasImage.encode_eq⟩

/-- An image is as wide as its field. -/
theorem HasImage.length_eq (h : field.HasImage order value image) (hproper : field.IsProper) :
    image.length = field.totalSize := by
  have hsize := hproper.totalSize_eq
  cases h with
  | bool hkind => simp [hsize, hkind, hproper.unitSize_eq_one (.inl hkind)]
  | char hkind => simp [hsize, hkind, hproper.unitSize_eq_one (.inr hkind)]
  | signed hkind => simp [hsize, hkind]
  | unsigned hkind => simp [hsize, hkind]
  | float hkind => simp [hsize, hkind]
  | bytes => exact length_fitBytes _ _

/-! ## Refused values -/

/-- A field for truth values admits what reads as one. -/
theorem admits_bool_iff (hkind : field.kind = .bool) :
    field.Admits value ↔ ∃ truth, value.truth? = some truth := by
  cases value <;> simp [Admits, hkind, Kind.variants, Value.variant, Value.truth?]

/-- A field for characters admits what reads as a byte. -/
theorem admits_char_iff (hkind : field.kind = .char) :
    field.Admits value ↔ ∃ byte, value.byte? = some byte := by
  cases value with
  | bytes data =>
    -- A string reads as a byte when it has just one.
    rcases data with _ | ⟨byte, _ | ⟨next, data⟩⟩ <;>
      simp [Admits, hkind, Kind.variants, Value.variant, Value.byte?, Value.asBytes?]
  | _ => simp [Admits, hkind, Kind.variants, Value.variant, Value.byte?, Value.asBytes?]

/-- An integer field admits what reads as an integer. -/
theorem admits_integer_iff (hkind : field.kind = .signed ∨ field.kind = .unsigned) :
    field.Admits value ↔ ∃ n, value.number? = some n := by
  rcases hkind with hkind | hkind <;> cases value <;>
    simp [Admits, hkind, Kind.variants, Value.variant, Value.number?]

/-- A float field admits what reads as a float. -/
theorem admits_float_iff (hkind : field.kind = .float) :
    field.Admits value ↔ ∃ x, value.real? = some x := by
  cases value <;> simp [Admits, hkind, Kind.variants, Value.variant, Value.real?]

/-- A field for strings admits strings. -/
theorem admits_bytes_iff (hkind : field.kind = .bytes) :
    field.Admits value ↔ ∃ data, value.asBytes? = some data := by
  cases value <;> simp [Admits, hkind, Kind.variants, Value.variant, Value.asBytes?]

/-- Padding admits nothing. -/
theorem not_admits_of_pad (hkind : field.kind = .pad) : ¬ field.Admits value := by
  simp [Admits, hkind, Kind.variants]

/-- A value that has an image is accepted. -/
theorem HasImage.accepts (h : field.HasImage order value image) : field.Accepts value := by
  cases h with
  | bool hkind hreads => exact ⟨(admits_bool_iff hkind).mpr ⟨_, hreads⟩, by simp [Fits, hkind]⟩
  | char hkind hreads => exact ⟨(admits_char_iff hkind).mpr ⟨_, hreads⟩, by simp [Fits, hkind]⟩
  | signed hkind hreads hfits =>
    refine ⟨(admits_integer_iff (.inl hkind)).mpr ⟨_, hreads⟩, ?_⟩
    simpa [Fits, hkind, hreads] using hfits
  | unsigned hkind hreads hfits =>
    refine ⟨(admits_integer_iff (.inr hkind)).mpr ⟨_, hreads⟩, ?_⟩
    simpa [Fits, hkind, hreads] using hfits
  | float hkind hreads hfits =>
    refine ⟨(admits_float_iff hkind).mpr ⟨_, hreads⟩, ?_⟩
    simpa [Fits, hkind, hreads] using hfits
  | bytes hkind hreads => exact ⟨(admits_bytes_iff hkind).mpr ⟨_, hreads⟩, by simp [Fits, hkind]⟩

/-- A value that is accepted has an image. -/
theorem Accepts.exists_hasImage (h : field.Accepts value) :
    ∃ image, field.HasImage order value image := by
  obtain ⟨hadmits, hfits⟩ := h
  -- Being admitted gives the reading, and fitting gives the word of a number.
  rw [Fits] at hfits
  split at hfits
  case h_1 hkind =>
    obtain ⟨n, hreads⟩ := (admits_integer_iff (.inl hkind)).mp hadmits
    exact ⟨_, .signed hkind hreads (hfits n hreads)⟩
  case h_2 hkind =>
    obtain ⟨n, hreads⟩ := (admits_integer_iff (.inr hkind)).mp hadmits
    exact ⟨_, .unsigned hkind hreads (hfits n hreads)⟩
  case h_3 hkind =>
    obtain ⟨x, hreads⟩ := (admits_float_iff hkind).mp hadmits
    exact ⟨_, .float hkind hreads (hfits x hreads)⟩
  case h_4 hkind => exact absurd hadmits (not_admits_of_pad hkind)
  case h_5 hkind =>
    obtain ⟨truth, hreads⟩ := (admits_bool_iff hkind).mp hadmits
    exact ⟨_, .bool hkind hreads⟩
  case h_6 hkind =>
    obtain ⟨byte, hreads⟩ := (admits_char_iff hkind).mp hadmits
    exact ⟨_, .char hkind hreads⟩
  case h_7 hkind =>
    obtain ⟨data, hreads⟩ := (admits_bytes_iff hkind).mp hadmits
    exact ⟨_, .bytes hkind hreads⟩

/-- The values that have an image are those that are accepted. -/
theorem exists_hasImage_iff : (∃ image, field.HasImage order value image) ↔ field.Accepts value :=
  ⟨fun ⟨_, h⟩ => h.accepts, Accepts.exists_hasImage⟩

/-- A value that is not admitted is refused for its variant, whatever number it stands for. -/
theorem encode_of_not_admits (hargument : field.takesArgument = true)
    (h : ¬ field.Admits value) : field.encode order value = .error .typeMismatch := by
  -- Where the value is not admitted, the reading that the kind asks for is not there.
  have hnone : ∀ {α : Type} {reading : Option α},
      (field.Admits value ↔ ∃ a, reading = some a) → reading = none := by
    intro α reading hadmits
    exact Option.eq_none_iff_forall_ne_some.mpr fun a hreads => h (hadmits.mpr ⟨a, hreads⟩)
  unfold encode
  split
  case h_1 hkind => exact absurd hkind (takesArgument_iff.mp hargument)
  case h_2 hkind => rw [hnone (admits_bool_iff hkind)]; rfl
  case h_3 hkind => rw [hnone (admits_char_iff hkind)]; rfl
  case h_4 hkind => rw [hnone (admits_integer_iff (.inl hkind))]; rfl
  case h_5 hkind => rw [hnone (admits_integer_iff (.inr hkind))]; rfl
  case h_6 hkind => rw [hnone (admits_float_iff hkind)]; rfl
  case h_7 hkind => rw [hnone (admits_bytes_iff hkind)]; rfl

/-- A value that is admitted and does not fit is refused for its number. -/
theorem encode_of_not_fits (hadmits : field.Admits value) (h : ¬ field.Fits value) :
    field.encode order value = .error .outOfRange := by
  rw [Fits] at h
  split at h
  case h_1 hkind =>
    obtain ⟨n, hreads⟩ := (admits_integer_iff (.inl hkind)).mp hadmits
    have hnot : ¬ FitsInteger true field.unitSize n := by simpa [hreads] using h
    have hword := encodeInteger_of_not_fitsInteger hnot
    simp only [encode, hkind]
    exact bind_eq_error_iff.mpr (.inr
      ⟨_, Refusal.ofReading_eq_ok_iff.mpr hreads, bind_eq_error_iff.mpr (.inl hword)⟩)
  case h_2 hkind =>
    obtain ⟨n, hreads⟩ := (admits_integer_iff (.inr hkind)).mp hadmits
    have hnot : ¬ FitsInteger false field.unitSize n := by simpa [hreads] using h
    have hword := encodeInteger_of_not_fitsInteger hnot
    simp only [encode, hkind]
    exact bind_eq_error_iff.mpr (.inr
      ⟨_, Refusal.ofReading_eq_ok_iff.mpr hreads, bind_eq_error_iff.mpr (.inl hword)⟩)
  case h_3 hkind =>
    obtain ⟨x, hreads⟩ := (admits_float_iff hkind).mp hadmits
    have hnot : ¬ FitsFloat field.unitSize x := by simpa [hreads] using h
    have hword := encodeFloat_of_not_fitsFloat hnot
    simp only [encode, hkind]
    exact bind_eq_error_iff.mpr (.inr
      ⟨_, Refusal.ofReading_eq_ok_iff.mpr hreads, bind_eq_error_iff.mpr (.inl hword)⟩)
  -- The other kinds have room for every value that they admit.
  all_goals exact absurd trivial h

/-! ## Many fields -/

/-- The images of values in fields, each in its own field and whatever the others are. -/
inductive HaveImages (order : ByteOrder) : List Field → List Value → List (List UInt8) → Prop
  | nil : HaveImages order [] [] []
  | cons {field : Field} {fields : List Field} {value : Value} {values : List Value}
      {image : List UInt8} {images : List (List UInt8)}
      (himage : field.HasImage order value image) (hrest : HaveImages order fields values images) :
      HaveImages order (field :: fields) (value :: values) (image :: images)

variable {fields : List Field} {values : List Value} {images : List (List UInt8)}

/-- Values that are accepted, each by its own field, have images. -/
theorem exists_haveImages (hlength : fields.length = values.length)
    (h : ∀ (k : Nat) (field : Field) (value : Value), fields[k]? = some field →
      values[k]? = some value → field.Accepts value) :
    ∃ images, HaveImages order fields values images := by
  induction fields generalizing values with
  | nil =>
    obtain rfl := List.eq_nil_of_length_eq_zero hlength.symm
    exact ⟨[], .nil⟩
  | cons field fields ih =>
    cases values with
    | nil => simp at hlength
    | cons value values =>
      obtain ⟨image, himage⟩ := (h 0 field value rfl rfl).exists_hasImage
      obtain ⟨images, himages⟩ := ih (Nat.succ.inj hlength) fun k => h (k + 1)
      exact ⟨image :: images, .cons himage himages⟩

namespace HaveImages

/-- There are as many values as fields. -/
theorem length_values (h : HaveImages order fields values images) :
    values.length = fields.length := by
  induction h with
  | nil => rfl
  | cons _ _ ih => exact congrArg (· + 1) ih

/-- The image of one of the values. -/
theorem hasImage_of_getElem? (h : HaveImages order fields values images) {k : Nat}
    (hfield : fields[k]? = some field) (hvalue : values[k]? = some value)
    (himage : images[k]? = some image) : field.HasImage order value image := by
  induction h generalizing k with
  | nil => simp at hfield
  | cons hfirst _ ih =>
    cases k with
    | zero =>
      obtain rfl := Option.some.inj hfield
      obtain rfl := Option.some.inj hvalue
      obtain rfl := Option.some.inj himage
      exact hfirst
    | succ k => exact ih hfield hvalue himage

end HaveImages

end Field

end BinaryRecord
