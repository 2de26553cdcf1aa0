import BinaryRecord.Proofs.Field.ImagesOf
import BinaryRecord.Proofs.Word

/-!
# Fields in the opposite byte order

In the opposite byte order the image of a value has its bytes the other way round where the field
holds a word, and is the same where it holds a string (`encode_of_opposite`). An image that is
mirrored in this way has the same value (`decode_of_opposite`). Which values are refused does not
depend on the order.
-/

namespace BinaryRecord

namespace Field

variable {field : Field} {fields : List Field} {order other : ByteOrder} {value : Value}
  {values : List Value} {image : List UInt8}

/-- Whether the field holds a word, and neither padding nor a string. -/
def isWord (field : Field) : Bool :=
  field.kind != .pad && field.kind != .bytes

/-- The image with its bytes the other way round, if the field holds a word. -/
def mirror (field : Field) (image : List UInt8) : List UInt8 :=
  if field.isWord then image.reverse else image

/-- The bytes are as many as before. -/
@[simp] theorem length_mirror (field : Field) (image : List UInt8) :
    (field.mirror image).length = image.length := by
  unfold mirror
  split <;> simp

/-- Zeros are the same either way round. -/
@[simp] theorem mirror_blank (field : Field) : field.mirror field.blank = field.blank := by
  unfold mirror blank
  split <;> simp

/-- A single byte is the same either way round. -/
@[simp] theorem mirror_singleton (field : Field) (byte : UInt8) : field.mirror [byte] = [byte] := by
  unfold mirror
  split <;> rfl

/-- A word is mirrored in the opposite order. -/
theorem mirror_toBytes {w : Nat} (hword : field.isWord = true)
    (h : other.needsSwap = !order.needsSwap) (word : Word w) :
    field.mirror (word.toBytes order) = word.toBytes other := by
  rw [mirror, if_pos hword, Word.toBytes, Word.toBytes, ByteOrder.arrange_of_opposite h]

/-- In the opposite order the image of a value is mirrored. -/
theorem HasImage.mirror (h : other.needsSwap = !order.needsSwap)
    (himage : field.HasImage order value image) :
    field.HasImage other value (field.mirror image) := by
  cases himage with
  | bool hkind hreads =>
    rw [mirror_singleton]
    exact .bool hkind hreads
  | char hkind hreads =>
    rw [mirror_singleton]
    exact .char hkind hreads
  | signed hkind hreads hfits =>
    rw [mirror_toBytes (by simp [isWord, hkind]) h]
    exact .signed hkind hreads hfits
  | unsigned hkind hreads hfits =>
    rw [mirror_toBytes (by simp [isWord, hkind]) h]
    exact .unsigned hkind hreads hfits
  | float hkind hreads hfits =>
    rw [mirror_toBytes (by simp [isWord, hkind]) h]
    exact .float hkind hreads hfits
  | bytes hkind hreads =>
    rw [Field.mirror, if_neg (by simp [isWord, hkind])]
    exact .bytes hkind hreads

/-- In the opposite order a value is mirrored, or refused as it is in this one. -/
theorem encode_of_opposite (hargument : field.takesArgument = true)
    (h : other.needsSwap = !order.needsSwap) :
    field.encode other value = (field.encode order value).map field.mirror := by
  by_cases hadmits : field.Admits value
  · by_cases hfits : field.Fits value
    · obtain ⟨image, himage⟩ : ∃ image, field.HasImage order value image :=
        Accepts.exists_hasImage ⟨hadmits, hfits⟩
      rw [himage.encode_eq, (himage.mirror h).encode_eq]
      rfl
    · rw [encode_of_not_fits hadmits hfits, encode_of_not_fits hadmits hfits]
      rfl
  · rw [encode_of_not_admits hargument hadmits, encode_of_not_admits hargument hadmits]
    rfl

/-- In the opposite order the mirrored image has the same value. -/
theorem decode_of_opposite (h : other.needsSwap = !order.needsSwap) (image : List UInt8) :
    field.decode other (field.mirror image) = field.decode order image := by
  by_cases hword : field.isWord = true
  · have hsame : field.word other image.reverse = field.word order image := by
      rw [word, word, Word.ofBytes, Word.ofBytes, ByteOrder.arrange_reverse_of_opposite h]
    rw [mirror, if_pos hword]
    have hkind : field.kind ≠ .pad ∧ field.kind ≠ .bytes := by simpa [isWord] using hword
    unfold decode
    split
    case h_1 hpad => exact absurd hpad hkind.1
    case h_2 hbytes => exact absurd hbytes hkind.2
    all_goals rw [hsame]
  · rw [mirror, if_neg hword]
    have hkind : field.kind = .pad ∨ field.kind = .bytes := by
      by_contra hneither
      rw [not_or] at hneither
      exact hword (by simpa [isWord] using hneither)
    unfold decode
    rcases hkind with hkind | hkind <;> simp only [hkind]

/-- In the opposite order the images of arguments are mirrored, and the first that is refused is the
same. -/
theorem imagesOf_of_opposite (h : other.needsSwap = !order.needsSwap) (index : Nat)
    (fields : List Field) (values : List Value) :
    imagesOf other index fields values =
      (imagesOf order index fields values).map (List.zipWith mirror fields) := by
  induction fields generalizing index values with
  | nil =>
    rw [imagesOf, imagesOf]
    rfl
  | cons field fields ih =>
    by_cases hargument : field.takesArgument = true
    · cases values with
      | nil =>
        rw [imagesOf_nil, imagesOf_nil, Except.map, List.zipWith_map_right, List.zipWith_self]
        simp
      | cons value values =>
        rw [imagesOf_cons_of_takesArgument hargument, imagesOf_cons_of_takesArgument hargument,
          encode_of_opposite hargument h, ih]
        cases field.encode order value with
        | error refusal => rfl
        | ok image => cases imagesOf order (index + 1) fields values <;> rfl
    · rw [imagesOf_cons_of_pad hargument, imagesOf_cons_of_pad hargument, ih]
      cases imagesOf order index fields values with
      | error e => rfl
      | ok images => simp [Except.map]

/-- Orders that reverse the same words give the same images. -/
theorem encode_congr (h : other.needsSwap = order.needsSwap) (field : Field) (value : Value) :
    field.encode other value = field.encode order value := by
  have hword : ∀ (w : Nat) (word : Word w), word.toBytes other = word.toBytes order :=
    fun _ _ => ByteOrder.arrange_congr h
  simp only [encode, hword]

/-- Orders that reverse the same words give the same values. -/
theorem decode_congr (h : other.needsSwap = order.needsSwap) (field : Field)
    (image : List UInt8) : field.decode other image = field.decode order image := by
  have hword : field.word other image = field.word order image := by
    rw [word, word, Word.ofBytes, Word.ofBytes, ByteOrder.arrange_congr h]
  simp only [decode, hword]

/-- Orders that reverse the same words give the same images of arguments. -/
theorem imagesOf_congr (h : other.needsSwap = order.needsSwap) (index : Nat)
    (fields : List Field) (values : List Value) :
    imagesOf other index fields values = imagesOf order index fields values := by
  induction fields generalizing index values with
  | nil => rw [imagesOf, imagesOf]
  | cons field fields ih =>
    cases values with
    | nil => rw [imagesOf_nil, imagesOf_nil]
    | cons value values => simp only [imagesOf, encode_congr h, ih]

end Field

end BinaryRecord
