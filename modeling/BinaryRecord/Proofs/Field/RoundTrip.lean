import BinaryRecord.Proofs.Field.Image

/-!
# Round trips through fields

What comes back from a field is the canonical form of what went in (`HasImage.canonicalForm`). A
value that has the field's own variant and nothing that the field does not keep is its own canonical
form (`IsCanonical.canonicalForm`), and there is no other (`CanonicalForm.unique`). In the other
direction, the value of an image has that image again (`hasImage_decode`), but for a truth value, of
which any byte other than zero becomes a one, and for what is no number in a narrow float, of which
conversions may keep less.
-/

namespace BinaryRecord.Field

variable {field : Field} {order : ByteOrder} {value result : Value} {image : List UInt8}

/-! ## Canonical forms -/

/-- The second value is the canonical form of the first in the field: what a field that is given the
first gives back. An integer in a float field is taken as the double nearest to it. -/
inductive CanonicalForm (field : Field) : Value → Value → Prop
  | bool {value : Value} {truth : Bool} (hkind : field.kind = .bool)
      (hreads : value.truth? = some truth) : CanonicalForm field value (.bool truth)
  | char {value : Value} {byte : UInt8} (hkind : field.kind = .char)
      (hreads : value.byte? = some byte) : CanonicalForm field value (.char byte)
  | signed {value : Value} {n : Int64} (hkind : field.kind = .signed)
      (hreads : value.number? = some n.toInt) : CanonicalForm field value (.int n)
  | unsigned {value : Value} {n : UInt64} (hkind : field.kind = .unsigned)
      (hreads : value.number? = some (n.toNat : Int)) : CanonicalForm field value (.uint n)
  | float {x : Binary64} (hkind : field.kind = .float) :
      CanonicalForm field (.float x) (.float (storedFloat field.unitSize x))
  | nearest {value : Value} {n : Int} {x : Binary64} (hkind : field.kind = .float)
      (hvariant : value.variant = .int ∨ value.variant = .uint) (hreads : value.number? = some n)
      (hnearest : x.IsNearestTo n) :
      CanonicalForm field value (.float (storedFloat field.unitSize x))
  | bytes {data : List UInt8} (hkind : field.kind = .bytes) :
      CanonicalForm field (.bytes data) (.bytes (fitBytes field.totalSize data))

/-- A value is canonical in the field: of the variant that the field gives back, a string of the
field's width, and a float that the field's format has. Eight bytes have every float. -/
inductive IsCanonical (field : Field) : Value → Prop
  | bool (hkind : field.kind = .bool) (truth : Bool) : IsCanonical field (.bool truth)
  | char (hkind : field.kind = .char) (byte : UInt8) : IsCanonical field (.char byte)
  | signed (hkind : field.kind = .signed) (n : Int64) : IsCanonical field (.int n)
  | unsigned (hkind : field.kind = .unsigned) (n : UInt64) : IsCanonical field (.uint n)
  | float {x : Binary64} (hkind : field.kind = .float)
      (hexact : field.unitSize ≠ 8 → x.IsExact (floatFormat field.unitSize)) :
      IsCanonical field (.float x)
  | bytes {data : List UInt8} (hkind : field.kind = .bytes)
      (hwidth : data.length = field.totalSize) : IsCanonical field (.bytes data)

/-- A string of the field's width is kept as it is. -/
theorem fitBytes_of_length_eq {width : Nat} {data : List UInt8} (h : data.length = width) :
    fitBytes width data = data := by
  rw [fitBytes, h, Nat.sub_self, List.replicate_zero, List.append_nil, ← h, List.take_length]

/-- A canonical value is its own canonical form. -/
theorem IsCanonical.canonicalForm (h : field.IsCanonical value) (hproper : field.IsProper) :
    field.CanonicalForm value value := by
  cases h with
  | bool hkind => exact .bool hkind rfl
  | char hkind => exact .char hkind rfl
  | signed hkind => exact .signed hkind rfl
  | unsigned hkind => exact .unsigned hkind rfl
  | @float x hkind hexact =>
    -- What the format has is stored as it is, so that the form is the double itself.
    have hform : field.CanonicalForm (.float x) (.float (storedFloat field.unitSize x)) :=
      .float hkind
    rwa [storedFloat_of_isExact (hproper.mem_floatWidths hkind) hexact] at hform
  | @bytes data hkind hwidth =>
    have hform : field.CanonicalForm (.bytes data) (.bytes (fitBytes field.totalSize data)) :=
      .bytes hkind
    rwa [fitBytes_of_length_eq hwidth] at hform

/-- A value has one canonical form in a field. -/
theorem CanonicalForm.unique {other : Value} (h : field.CanonicalForm value result)
    (hother : field.CanonicalForm value other) : result = other := by
  -- The kind of the field and the variant of the value leave one case for the other form, too.
  cases h with
  | bool hkind hreads =>
    cases hother with
    | bool _ hother => exact congrArg Value.bool (Option.some.inj (hreads.symm.trans hother))
    | _ => simp_all
  | char hkind hreads =>
    cases hother with
    | char _ hother => exact congrArg Value.char (Option.some.inj (hreads.symm.trans hother))
    | _ => simp_all
  | signed hkind hreads =>
    cases hother with
    | signed _ hother =>
      have hsame := Option.some.inj (hreads.symm.trans hother)
      exact congrArg Value.int (Int64.toInt_inj.mp hsame)
    | _ => simp_all
  | unsigned hkind hreads =>
    cases hother with
    | unsigned _ hother =>
      have hsame := Int.ofNat_inj.mp (Option.some.inj (hreads.symm.trans hother))
      exact congrArg Value.uint (UInt64.toNat_inj.mp hsame)
    | _ => simp_all
  | float hkind =>
    cases hother with
    | float => rfl
    | nearest _ hvariant => simp [Value.variant] at hvariant
    | _ => simp_all
  | nearest hkind hvariant hreads hnearest =>
    cases hother with
    | float => simp [Value.variant] at hvariant
    | nearest _ _ hother hothernearest =>
      obtain rfl := Option.some.inj (hreads.symm.trans hother)
      rw [hnearest.unique hothernearest]
    | _ => simp_all
  | bytes hkind =>
    cases hother with
    | bytes => rfl
    | _ => simp_all

/-! ## From values to images and back -/

/-- The word that a field of one byte holds. -/
theorem toNat_word_singleton (hsize : field.unitSize = 1) (byte : UInt8) :
    (field.word order [byte]).toNat = byte.toNat := by
  have harrange : order.arrange [byte] = [byte] := by
    unfold ByteOrder.arrange
    split <;> rfl
  have hlt : byte.toNat < 2^(8 * field.unitSize) := by
    rw [hsize]
    exact byte.toNat_lt
  rw [word, Word.ofBytes, harrange, BitVec.toNat_ofNat]
  exact Nat.mod_eq_of_lt hlt

/-- Any byte but zero is true. -/
theorem decode_bool (hkind : field.kind = .bool) (hsize : field.unitSize = 1) (byte : UInt8) :
    field.decode order [byte] = .bool (byte != 0) := by
  have hword : (field.word order [byte]).toNat = byte.toNat := toNat_word_singleton hsize byte
  have hzero : field.word order [byte] = 0 ↔ byte = 0 := by
    rw [← BitVec.toNat_inj, hword, ← UInt8.toNat_inj]
    rfl
  simp only [decode, hkind, bne, Value.bool.injEq]
  rw [beq_eq_decide, beq_eq_decide, decide_eq_decide.mpr hzero]

/-- A character is its byte. -/
theorem decode_char (hkind : field.kind = .char) (hsize : field.unitSize = 1) (byte : UInt8) :
    field.decode order [byte] = .char byte := by
  simp only [decode, hkind]
  rw [toNat_word_singleton hsize, UInt8.ofNat_toNat]

/-- The double that a value is read as comes back in canonical form. -/
theorem canonicalForm_of_real? {x : Binary64} (hkind : field.kind = .float)
    (hreads : value.real? = some x) :
    field.CanonicalForm value (.float (storedFloat field.unitSize x)) := by
  cases value with
  | float y =>
    obtain rfl := Option.some.inj hreads
    exact .float hkind
  | int n =>
    -- A number of 64 bits is far below infinity, where the nearest double is one.
    obtain rfl := Option.some.inj hreads
    have hle := n.le_toInt
    have hlt := n.toInt_lt
    exact .nearest hkind (.inl rfl) rfl (Binary64.isNearestTo_ofInt (by omega))
  | uint n =>
    obtain rfl := Option.some.inj hreads
    have hlt := n.toNat_lt
    exact .nearest hkind (.inr rfl) rfl (Binary64.isNearestTo_ofInt (by omega))
  | _ => simp [Value.real?] at hreads

/-- What comes back from a field is the canonical form of what went in. -/
theorem HasImage.canonicalForm (h : field.HasImage order value image) (hproper : field.IsProper) :
    field.CanonicalForm value (field.decode order image) := by
  cases h with
  | @bool truth hkind hreads =>
    -- A stored truth value is zero or one, which is read as it was.
    have htruth : ((if truth then 1 else 0 : UInt8) != 0) = truth := by cases truth <;> rfl
    rw [decode_bool hkind (hproper.unitSize_eq_one (.inl hkind)), htruth]
    exact .bool hkind hreads
  | char hkind hreads =>
    rw [decode_char hkind (hproper.unitSize_eq_one (.inr hkind))]
    exact .char hkind hreads
  | @signed n hkind hreads hfits =>
    -- The number is that of its word, and no word is too wide for a value.
    obtain ⟨hpos, hle⟩ := bounds_of_mem_integerWidths (hproper.mem_integerWidths (.inl hkind))
    simp only [decode, hkind, word]
    rw [Word.ofBytes_toBytes, toInt_ofInt hpos hfits]
    exact .signed hkind (by rw [toInt_int64OfInt hle hfits, hreads])
  | @unsigned n hkind hreads hfits =>
    obtain ⟨-, hle⟩ := bounds_of_mem_integerWidths (hproper.mem_integerWidths (.inr hkind))
    simp only [decode, hkind, word]
    rw [Word.ofBytes_toBytes]
    exact .unsigned hkind (by rw [toNat_uint64OfNat hle, toNat_ofInt hfits, hreads])
  | float hkind hreads hfits =>
    simp only [decode, hkind, word]
    rw [Word.ofBytes_toBytes, decodeFloat_roundFloat (hproper.mem_floatWidths hkind)]
    exact canonicalForm_of_real? hkind hreads
  | bytes hkind hreads =>
    simp only [decode, hkind]
    cases value with
    | bytes data =>
      obtain rfl := Option.some.inj hreads
      exact .bytes hkind
    | _ => simp [Value.asBytes?] at hreads

/-! ## From images to values and back -/

/-- The byte as the field stores it: any byte of a truth value that is not zero becomes a one. -/
def cleanByte (field : Field) (byte : UInt8) : UInt8 :=
  if field.kind = .bool ∧ byte ≠ 0 then 1 else byte

/-- The image as the field stores it. -/
def cleanImage (field : Field) (image : List UInt8) : List UInt8 :=
  image.map field.cleanByte

/-- The image holds nothing that a conversion to a double and back may change: the field is no
narrow float, or its magnitude there is plain. -/
def HoldsPlain (field : Field) (order : ByteOrder) (image : List UInt8) : Prop :=
  field.kind = .float → field.unitSize ≠ 8 →
    (floatFormat field.unitSize).IsPlain
      ((floatFormat field.unitSize).magnitude (field.word order image).toNat)

instance (field : Field) (order : ByteOrder) (image : List UInt8) :
    Decidable (field.HoldsPlain order image) :=
  inferInstanceAs (Decidable (_ → _ → _))

/-- Only truth values are cleaned. -/
theorem cleanImage_of_ne_bool (hkind : field.kind ≠ .bool) : field.cleanImage image = image := by
  have hbyte : field.cleanByte = id := by
    funext byte
    exact if_neg fun h => hkind h.1
  rw [cleanImage, hbyte, List.map_id]

/-- A truth value is cleaned to a zero or a one. -/
theorem cleanImage_singleton (hkind : field.kind = .bool) (byte : UInt8) :
    field.cleanImage [byte] = [if byte != 0 then 1 else 0] := by
  by_cases hzero : byte = 0 <;> simp [cleanImage, cleanByte, hkind, hzero]

/-- The bytes of an image are those of its word, where the field is one unit wide. -/
theorem toBytes_word (hproper : field.IsProper) (hpad : field.kind ≠ .pad)
    (hbytes : field.kind ≠ .bytes) (hwidth : image.length = field.totalSize) :
    (field.word order image).toBytes order = image := by
  have hunit : image.length = field.unitSize := hwidth.trans (hproper.totalSize_eq hpad hbytes)
  rw [word, ← hunit]
  exact Word.toBytes_ofBytes order image

/-- The image of a truth value or of a character is one byte. -/
theorem exists_eq_singleton (hproper : field.IsProper)
    (hkind : field.kind = .bool ∨ field.kind = .char) (hwidth : image.length = field.totalSize) :
    ∃ byte, image = [byte] := by
  have hsize : field.totalSize = field.unitSize :=
    hproper.totalSize_eq (by rcases hkind with h | h <;> simp [h])
      (by rcases hkind with h | h <;> simp [h])
  rw [hsize, hproper.unitSize_eq_one hkind] at hwidth
  exact List.length_eq_one_iff.mp hwidth

/-- The value of an image has that image, once it is clean. -/
theorem hasImage_decode (hproper : field.IsProper) (hargument : field.takesArgument = true)
    (hwidth : image.length = field.totalSize) (hplain : field.HoldsPlain order image) :
    field.HasImage order (field.decode order image) (field.cleanImage image) := by
  cases hkind : field.kind with
  | pad => exact absurd hkind (takesArgument_iff.mp hargument)
  | bool =>
    -- The only kind whose image is cleaned: a byte other than zero comes back as a one.
    have hone := hproper.unitSize_eq_one (.inl hkind)
    obtain ⟨byte, rfl⟩ := exists_eq_singleton hproper (.inl hkind) hwidth
    rw [decode_bool hkind hone, cleanImage_singleton hkind]
    exact .bool hkind rfl
  | char =>
    have hone := hproper.unitSize_eq_one (.inr hkind)
    obtain ⟨byte, rfl⟩ := exists_eq_singleton hproper (.inr hkind) hwidth
    rw [decode_char hkind hone, cleanImage_of_ne_bool (by simp [hkind])]
    exact .char hkind rfl
  | signed =>
    obtain ⟨-, hle⟩ := bounds_of_mem_integerWidths (hproper.mem_integerWidths (.inl hkind))
    have hfits := fitsInteger_toInt (field.word order image)
    have hword : (field.word order image).toBytes order = image :=
      toBytes_word hproper (by simp [hkind]) (by simp [hkind]) hwidth
    have hreads : (Value.int (Int64.ofInt (field.word order image).toInt)).number? =
        some (field.word order image).toInt := by
      rw [Value.number?, toInt_int64OfInt hle hfits]
    have himage : field.HasImage order _ _ := .signed hkind hreads hfits
    rw [BitVec.ofInt_toInt, hword] at himage
    rw [cleanImage_of_ne_bool (by simp [hkind])]
    simpa only [decode, hkind] using himage
  | unsigned =>
    obtain ⟨-, hle⟩ := bounds_of_mem_integerWidths (hproper.mem_integerWidths (.inr hkind))
    have hfits := fitsInteger_toNat (field.word order image)
    have hword : (field.word order image).toBytes order = image :=
      toBytes_word hproper (by simp [hkind]) (by simp [hkind]) hwidth
    have hreads : (Value.uint (UInt64.ofNat (field.word order image).toNat)).number? =
        some ((field.word order image).toNat : Int) := by
      rw [Value.number?, toNat_uint64OfNat hle]
    have himage : field.HasImage order _ _ := .unsigned hkind hreads hfits
    rw [BitVec.ofInt_natCast, BitVec.ofNat_toNat, BitVec.setWidth_eq, hword] at himage
    rw [cleanImage_of_ne_bool (by simp [hkind])]
    simpa only [decode, hkind] using himage
  | float =>
    have hword : (field.word order image).toBytes order = image :=
      toBytes_word hproper (by simp [hkind]) (by simp [hkind]) hwidth
    have hstored := encodeFloat_decodeFloat (hproper.mem_floatWidths hkind)
      (field.word order image) (hplain hkind)
    rw [cleanImage_of_ne_bool (by simp [hkind])]
    apply (encode_eq_ok_iff hargument).mp
    simp only [decode, encode, hkind]
    exact bind_eq_ok_iff.mpr
      ⟨_, rfl, bind_eq_ok_iff.mpr ⟨_, hstored, congrArg Except.ok hword⟩⟩
  | bytes =>
    -- The image is as wide as the field, so that nothing of it is cut off or filled up.
    rw [cleanImage_of_ne_bool (by simp [hkind])]
    have himage : field.HasImage order (.bytes image) (fitBytes field.totalSize image) :=
      .bytes hkind rfl
    rw [fitBytes_of_length_eq hwidth] at himage
    simpa only [decode, hkind] using himage

/-- A clean image has the value of the image. -/
theorem decode_cleanImage (hproper : field.IsProper) (hwidth : image.length = field.totalSize) :
    field.decode order (field.cleanImage image) = field.decode order image := by
  by_cases hkind : field.kind = .bool
  · -- One and any other byte that is not zero are both true.
    have hone := hproper.unitSize_eq_one (.inl hkind)
    obtain ⟨byte, rfl⟩ := exists_eq_singleton hproper (.inl hkind) hwidth
    rw [cleanImage_singleton hkind, decode_bool hkind hone, decode_bool hkind hone]
    by_cases hzero : byte = 0 <;> simp [hzero]
  · rw [cleanImage_of_ne_bool hkind]

/-! ## Many fields -/

/-- The canonical forms of values, each in its own field. -/
inductive CanonicalForms : List Field → List Value → List Value → Prop
  | nil : CanonicalForms [] [] []
  | cons {field : Field} {fields : List Field} {value result : Value} {values results : List Value}
      (hform : field.CanonicalForm value result) (hrest : CanonicalForms fields values results) :
      CanonicalForms (field :: fields) (value :: values) (result :: results)

variable {fields : List Field} {values results : List Value} {images : List (List UInt8)}

/-- There is one canonical form for each value. -/
theorem CanonicalForms.length_eq (h : CanonicalForms fields values results) :
    results.length = values.length := by
  induction h with
  | nil => rfl
  | cons _ _ ih => exact congrArg (· + 1) ih

/-- What comes back from the fields is the canonical forms of what went in. -/
theorem HaveImages.canonicalForms (h : HaveImages order fields values images)
    (hproper : ∀ field ∈ fields, field.IsProper) :
    CanonicalForms fields values
      (List.zipWith (fun field => field.decode order) fields images) := by
  induction h with
  | nil => exact .nil
  | cons himage _ ih =>
    exact .cons (himage.canonicalForm (hproper _ List.mem_cons_self))
      (ih fun field hfield => hproper field (List.mem_cons_of_mem _ hfield))

/-- The image is one that the field may hold, and holds no float that a conversion may change. -/
structure IsPlainImage (order : ByteOrder) (field : Field) (image : List UInt8) : Prop where
  /-- There is a form for the values of the field. -/
  isProper : field.IsProper
  /-- The field holds a value. -/
  takesArgument : field.takesArgument = true
  /-- The image is as wide as the field. -/
  length_eq : image.length = field.totalSize
  /-- The image holds no float that a conversion may change. -/
  holdsPlain : field.HoldsPlain order image

/-- The values of images have these images again, once they are clean. -/
theorem haveImages_decode (h : List.Forall₂ (IsPlainImage order) fields images) :
    HaveImages order fields (List.zipWith (fun field => field.decode order) fields images)
      (List.zipWith cleanImage fields images) := by
  induction h with
  | nil => exact .nil
  | cons hfirst _ ih =>
    exact .cons
      (hasImage_decode hfirst.isProper hfirst.takesArgument hfirst.length_eq hfirst.holdsPlain) ih

/-- The clean images have the values of the images. -/
theorem zipWith_decode_cleanImage (h : List.Forall₂ (IsPlainImage order) fields images) :
    List.zipWith (fun field => field.decode order) fields (List.zipWith cleanImage fields images) =
      List.zipWith (fun field => field.decode order) fields images := by
  induction h with
  | nil => rfl
  | cons hfirst _ ih =>
    rw [List.zipWith_cons_cons, List.zipWith_cons_cons, List.zipWith_cons_cons, ih,
      decode_cleanImage hfirst.isProper hfirst.length_eq]

end BinaryRecord.Field
