import BinaryRecord.Proofs.Field.RoundTrip
import BinaryRecord.Proofs.Schema.Pack

/-!
# Round trips through records

Arguments that are packed are got back in canonical form, each from its own field (`unpack_pack`),
and arguments that are canonical are got back as they are. In the other direction a record that is
unpacked is packed to the same bytes, but for padding and gaps, which become zero, and for truth
values, which become zero or one (`pack_unpack`). What is no number in a narrow float is left out
there, unless it is one that conversions keep.

Both follow from the round trips through single fields, since the places of a record hold the images
of its arguments and nothing but the places is read.
-/

namespace BinaryRecord.Schema

open Layout (Covers)

variable {allocator : Allocator} {text : String} {schema : Schema} {arguments : List Value}
  {bytes : List UInt8}
  {images : List (List UInt8)}

/-- What the bytes hold at the places of the arguments. -/
def slices (schema : Schema) (bytes : List UInt8) : List (List UInt8) :=
  schema.argumentPlaces.map fun place => slice bytes place.2 place.1.totalSize

/-- Unpacking gives the value of each field that holds one. -/
theorem WellFormed.unpack_eq (hschema : schema.WellFormed) (hlength : bytes.length = schema.size) :
    schema.unpack bytes =
      .ok (List.zipWith (fun field => field.decode schema.mode.byteOrder) schema.argumentFields
        (schema.slices bytes)) := by
  have horder := hschema.inOrder
  have hwindow : (Window.ofList bytes schema.mode.byteOrder).length = schema.size := by
    rw [← Window.length_toList, Window.toList_ofList, hlength]
  rw [← hwindow] at horder
  rw [unpack, if_pos hlength, Window.loadFields_of_inOrder horder, argumentFields, slices,
    List.zipWith_map, List.zipWith_self, Window.toList_ofList]
  rfl

/-- The fields that take an argument are proper. -/
theorem WellFormed.isProper_of_mem_argumentFields (hschema : schema.WellFormed) {field : Field}
    (hfield : field ∈ schema.argumentFields) : field.IsProper := by
  obtain ⟨place, hplace, rfl⟩ := List.mem_map.mp hfield
  exact (hschema.isProper_of_mem_argumentPlaces hplace).1

/-- The second bytes are the first as packing leaves them: the same where a field holds a value,
but for truth values, which are zero or one, and zero everywhere else. -/
structure IsCleaned (schema : Schema) (bytes cleaned : List UInt8) : Prop where
  /-- There are as many bytes. -/
  length_eq : cleaned.length = bytes.length
  /-- A byte of a field that holds a value is kept, unless it is one of a truth value. -/
  getElem?_eq : ∀ place ∈ schema.argumentPlaces, ∀ i, place.2 ≤ i →
    i < place.2 + place.1.totalSize → cleaned[i]? = bytes[i]?.map place.1.cleanByte
  /-- All bytes of padding and of gaps are zero. -/
  zero : ∀ i < schema.size, ¬ Covers schema.argumentPlaces i → cleaned[i]? = some 0

/-- What holds the clean images of the bytes is the bytes, cleaned. -/
theorem Filled.isCleaned {cleaned : List UInt8} (hlength : bytes.length = schema.size)
    (h : Filled schema.size schema.argumentPlaces
      (List.zipWith Field.cleanImage schema.argumentFields (schema.slices bytes)) cleaned) :
    schema.IsCleaned bytes cleaned := by
  refine ⟨h.length_eq.trans hlength.symm, fun place hplace i hfirst hlast => ?_, h.zero⟩
  have hslices := h.slices_eq
  rw [argumentFields, slices, List.zipWith_map, List.zipWith_self, List.map_inj_left] at hslices
  have hinside : i - place.2 < place.1.totalSize := by omega
  have hbyte := congrArg (·[i - place.2]?) (hslices place hplace)
  simp only [Field.cleanImage, List.getElem?_map, getElem?_slice, hinside, if_true,
    Nat.add_sub_cancel' hfirst] at hbyte
  exact hbyte

/-- The slices of a record are plain images of its fields, where no narrow float holds what
conversions do not keep. -/
theorem WellFormed.forall₂_isPlainImage (hschema : schema.WellFormed)
    (hlength : bytes.length = schema.size)
    (hplain : ∀ place ∈ schema.argumentPlaces,
      place.1.HoldsPlain schema.mode.byteOrder (slice bytes place.2 place.1.totalSize)) :
    List.Forall₂ (Field.IsPlainImage schema.mode.byteOrder) schema.argumentFields
      (schema.slices bytes) := by
  rw [argumentFields, slices, List.forall₂_map_left_iff, List.forall₂_map_right_iff,
    List.forall₂_same]
  intro place hplace
  obtain ⟨hproper, hargument⟩ := hschema.isProper_of_mem_argumentPlaces hplace
  have hbounds := hschema.inOrder_argumentPlaces.bounds_of_mem hplace
  exact ⟨hproper, hargument, length_slice (by omega), hplain place hplace⟩

/-- Bytes of a record that are unpacked are packed again to the same bytes, cleaned. These have the
same values, so that unpacking and packing them once more changes nothing. The fields, which are a
list in memory, are no more than a size can say. -/
theorem pack_unpack (hcompile : compile allocator text = .ok schema)
    (hfields : schema.fields.length ≤ Size.maxSize) (hlength : bytes.length = schema.size)
    (hplain : ∀ place ∈ schema.argumentPlaces,
      place.1.HoldsPlain schema.mode.byteOrder (slice bytes place.2 place.1.totalSize)) :
    ∃ values repacked, schema.unpack bytes = .ok values ∧ schema.pack values = .ok repacked ∧
      schema.IsCleaned bytes repacked ∧ schema.unpack repacked = .ok values := by
  have hschema := wellFormed_of_compile hcompile
  have hplaces := argumentCount_eq hcompile hfields
  -- The values have the images that they were read from, so that they are accepted.
  have himages := hschema.forall₂_isPlainImage hlength hplain
  have hdecoded := Field.haveImages_decode himages
  have hcount := hdecoded.length_values
  rw [argumentFields, List.length_map] at hcount
  obtain ⟨repacked, hpack, hfilled⟩ := pack_of_haveImages hschema (hcount.trans hplaces.symm)
    (by rwa [List.take_of_length_le (Nat.le_of_eq hcount.symm)])
  rw [List.take_of_length_le (Nat.le_of_eq hcount.symm)] at hfilled
  refine ⟨_, repacked, hschema.unpack_eq hlength, hpack, hfilled.isCleaned hlength, ?_⟩
  -- Cleaning has changed no value.
  rw [hschema.unpack_eq hfilled.length_eq, ← Field.zipWith_decode_cleanImage himages]
  exact congrArg (fun images => Except.ok (List.zipWith _ _ images)) hfilled.slices_eq

/-- A truth value that is not one, padding and gaps that are not zero, and what is no number. -/
theorem pack_unpack_mixed_fields : ∃ schema, compile .generous "@?hxf" = .ok schema ∧
    schema.fields.length ≤ Size.maxSize ∧ schema.size = 12 ∧
    (∀ place ∈ schema.argumentPlaces, place.1.HoldsPlain schema.mode.byteOrder
      (slice [7, 9, 1, 2, 8, 8, 8, 8, 0, 0, 192, 255] place.2 place.1.totalSize)) ∧
    ∃ values repacked, schema.unpack [7, 9, 1, 2, 8, 8, 8, 8, 0, 0, 192, 255] = .ok values ∧
      schema.pack values = .ok repacked ∧
      schema.IsCleaned [7, 9, 1, 2, 8, 8, 8, 8, 0, 0, 192, 255] repacked ∧
      schema.unpack repacked = .ok values := by
  have hcompile : compile .generous "@?hxf" = .ok ⟨"@?hxf", .nativeAligned,
      [⟨'?', .bool, 1, 1⟩, ⟨'h', .signed, 2, 2⟩, ⟨'x', .pad, 1, 1⟩, ⟨'f', .float, 4, 4⟩],
      ⟨[0, 2, 4, 8], 12⟩, 3⟩ := by
    decide +kernel
  have hfields : 4 ≤ Size.maxSize := by decide
  have hplain : ∀ place ∈ argumentPlaces ⟨"@?hxf", .nativeAligned,
      [⟨'?', .bool, 1, 1⟩, ⟨'h', .signed, 2, 2⟩, ⟨'x', .pad, 1, 1⟩, ⟨'f', .float, 4, 4⟩],
      ⟨[0, 2, 4, 8], 12⟩, 3⟩, place.1.HoldsPlain .native
        (slice [7, 9, 1, 2, 8, 8, 8, 8, 0, 0, 192, 255] place.2 place.1.totalSize) := by
    decide +kernel
  exact ⟨_, hcompile, hfields, rfl, hplain, pack_unpack hcompile hfields rfl hplain⟩

end BinaryRecord.Schema
