import BinaryRecord.Proofs.Field.Mirror
import BinaryRecord.Proofs.Schema.Images
import BinaryRecord.Proofs.Schema.Marker
import BinaryRecord.Proofs.Schema.PackInto

/-!
# The byte order is a mirror

A format that puts the most significant byte first describes the same records as the format that
puts it last, but for the words, whose bytes stand the other way round: `reverseWords` takes the
records of either to those of the other, and reading is not affected (`compile_mirrors`). Strings
and padding are the same in both. The host's order is that of `<`, and the order of network
protocols that of `>`.

All of it comes from single fields (`Field.encode_of_opposite`, `Field.decode_of_opposite`), since
mirroring a place changes no byte of another (`mirrored_reverseWords`).
-/

namespace BinaryRecord

open Layout (InOrder Covers covers_cons_iff)

/-! ## Records -/

namespace Schema

variable {schema other : Schema} {places : List (Field × Nat)} {field : Field}
  {bytes mirrored : List UInt8} {cursor size offset : Nat} {images : List (List UInt8)}

/-- The bytes with those of the field at the offset mirrored. -/
def mirrorAt (field : Field) (offset : Nat) (bytes : List UInt8) : List UInt8 :=
  bytes.take offset ++ field.mirror (slice bytes offset field.totalSize) ++
    bytes.drop (offset + field.totalSize)

/-- The bytes with those of each place that holds a word the other way round. -/
def reverseWords (places : List (Field × Nat)) (bytes : List UInt8) : List UInt8 :=
  places.foldl (fun bytes place => mirrorAt place.1 place.2 bytes) bytes

/-- Mirroring a field keeps the number of bytes. -/
@[simp] theorem length_mirrorAt (field : Field) (offset : Nat) (bytes : List UInt8) :
    (mirrorAt field offset bytes).length = bytes.length := by
  simp only [mirrorAt, List.length_append, Field.length_mirror, slice, List.length_take,
    List.length_drop]
  omega

/-- Mirroring the words keeps the number of bytes. -/
@[simp] theorem length_reverseWords (places : List (Field × Nat)) (bytes : List UInt8) :
    (reverseWords places bytes).length = bytes.length := by
  induction places generalizing bytes with
  | nil => rfl
  | cons place places ih => exact (ih _).trans (length_mirrorAt _ _ _)

/-- Mirroring a field writes over its bytes. -/
theorem written_mirrorAt (hroom : offset + field.totalSize ≤ bytes.length) :
    Written (field.mirror (slice bytes offset field.totalSize)) offset bytes
      (mirrorAt field offset bytes) := by
  have hlength : (field.mirror (slice bytes offset field.totalSize)).length = field.totalSize := by
    rw [Field.length_mirror, length_slice hroom]
  refine ⟨by rwa [hlength], ?_⟩
  rw [hlength]
  rfl

/-- The bytes after mirroring: each place is mirrored, and no other byte has changed. -/
structure Mirrored (places : List (Field × Nat)) (bytes mirrored : List UInt8) : Prop where
  /-- Each place is mirrored. -/
  slice_eq : ∀ place ∈ places, slice mirrored place.2 place.1.totalSize =
    place.1.mirror (slice bytes place.2 place.1.totalSize)
  /-- The bytes of no place are the same. -/
  getElem?_eq : ∀ i, ¬ Covers places i → mirrored[i]? = bytes[i]?

/-- Places that are in order are mirrored, each on its own. -/
theorem mirrored_reverseWords (horder : InOrder bytes.length cursor places) :
    Mirrored places bytes (reverseWords places bytes) := by
  induction places generalizing bytes cursor with
  | nil => exact ⟨fun _ hplace => absurd hplace List.not_mem_nil, fun _ _ => rfl⟩
  | cons place places ih =>
    obtain ⟨field, offset⟩ := place
    cases horder with
    | cons _ hrest =>
      have hroom := hrest.cursor_le
      have hfirst := written_mirrorAt hroom
      have hwidth : (field.mirror (slice bytes offset field.totalSize)).length =
          field.totalSize := by
        rw [Field.length_mirror, length_slice hroom]
      have hothers := ih (hfirst.length_eq.symm ▸ hrest)
      refine ⟨fun place hplace => ?_, fun i hi => ?_⟩
      · rcases List.mem_cons.mp hplace with rfl | hplace
        · -- The places to come start behind this one.
          have hkept : slice (reverseWords places (mirrorAt field offset bytes)) offset
              field.totalSize = slice (mirrorAt field offset bytes) offset field.totalSize :=
            slice_congr fun i _ hi => hothers.getElem?_eq i (hrest.not_covers_of_lt hi)
          have hown := hfirst.slice_eq
          rw [hwidth] at hown
          exact hkept.trans hown
        · -- Mirroring the first place has left the bytes of the others as they were.
          have hstart := (hrest.bounds_of_mem hplace).1
          have hkept : slice (mirrorAt field offset bytes) place.2 place.1.totalSize =
              slice bytes place.2 place.1.totalSize :=
            slice_congr fun i hi _ => hfirst.getElem?_of_outside (.inr (by omega))
          exact (hothers.slice_eq place hplace).trans (congrArg _ hkept)
      · rw [covers_cons_iff, not_or] at hi
        exact (hothers.getElem?_eq i hi.2).trans (hfirst.getElem?_of_outside (by omega))

/-- Mirroring what holds images gives what holds the mirrored images. -/
theorem Filled.reverseWords (horder : InOrder size 0 places)
    (h : Filled size places images bytes) :
    Filled size places (List.zipWith Field.mirror (places.map (·.1)) images)
      (reverseWords places bytes) := by
  have hmirrored := mirrored_reverseWords (h.length_eq.symm ▸ horder)
  refine ⟨?_, ?_, fun i hi hcovers => ?_⟩
  · rw [length_reverseWords, h.length_eq]
  · rw [← h.slices_eq, List.zipWith_map, List.zipWith_self]
    exact List.map_congr_left hmirrored.slice_eq
  · rw [hmirrored.getElem?_eq i hcovers, h.zero i hi hcovers]

/-! ## Schemas -/

/-- The other schema is the same but that its words stand the other way round. -/
structure Mirrors (schema other : Schema) : Prop where
  /-- The fields are the same. -/
  fields_eq : other.fields = schema.fields
  /-- The offsets and the size are the same. -/
  layout_eq : other.layout = schema.layout
  /-- The number of arguments is the same. -/
  argumentCount_eq : other.argumentCount = schema.argumentCount
  /-- To reverse the words of a record is to mirror each place and to change no other byte. -/
  mirrored : ∀ bytes, bytes.length = schema.size →
    Mirrored schema.places bytes (reverseWords schema.places bytes)
  /-- The records of arguments have their words reversed, and the same arguments are refused. -/
  pack_eq : ∀ arguments,
    other.pack arguments = (schema.pack arguments).map (reverseWords schema.places)
  /-- Bytes with their words reversed have the same values, or are refused alike. -/
  unpack_eq : ∀ bytes, other.unpack (reverseWords schema.places bytes) = schema.unpack bytes

/-- The other schema does the same. -/
structure Matches (schema other : Schema) : Prop where
  /-- The fields are the same. -/
  fields_eq : other.fields = schema.fields
  /-- The offsets and the size are the same. -/
  layout_eq : other.layout = schema.layout
  /-- The number of arguments is the same. -/
  argumentCount_eq : other.argumentCount = schema.argumentCount
  /-- The records of arguments are the same, and the same arguments are refused. -/
  pack_eq : ∀ arguments, other.pack arguments = schema.pack arguments
  /-- Bytes have the same values, or are refused alike. -/
  unpack_eq : ∀ bytes, other.unpack bytes = schema.unpack bytes

/-- In another mode a schema is as well formed as before. -/
theorem WellFormed.withMode (h : schema.WellFormed) (text : String) (mode : Mode) :
    (schema.withMode text mode).WellFormed :=
  ⟨h.isProper, h.length_offsets, h.inOrder⟩

variable {allocator : Allocator} {text : String} {mode : Mode}

/-- In a mode of the opposite byte order the words are reversed. -/
theorem WellFormed.mirrors_withMode (hschema : schema.WellFormed)
    (h : mode.byteOrder.needsSwap = !schema.mode.byteOrder.needsSwap) :
    Mirrors schema (schema.withMode text mode) := by
  have hmirrored : ∀ bytes, bytes.length = schema.size →
      Mirrored schema.places bytes (Schema.reverseWords schema.places bytes) :=
    fun bytes hlength => mirrored_reverseWords (hlength.symm ▸ hschema.inOrder)
  refine ⟨rfl, rfl, rfl, hmirrored, ?_, fun bytes => ?_⟩
  · refine hschema.pack_eq_map (hschema.withMode text mode) rfl
      (Field.imagesOf_of_opposite h 0 schema.fields) fun images bytes other hfilled hother => ?_
    have hreversed := hfilled.reverseWords hschema.inOrder
    rw [hschema.map_fst_places] at hreversed
    exact hother.unique hreversed
  · by_cases hlength : bytes.length = schema.size
    · have hreversed : (Schema.reverseWords schema.places bytes).length = schema.size := by
        rw [length_reverseWords, hlength]
      rw [hschema.unpack_eq_values hlength,
        (hschema.withMode text mode).unpack_eq_values hreversed, values_eq_map, values_eq_map]
      refine congrArg Except.ok (List.map_congr_left fun place hplace => ?_)
      have hslice := (hmirrored bytes hlength).slice_eq place (List.mem_of_mem_filter hplace)
      rw [hslice]
      exact Field.decode_of_opposite h _
    · rw [unpack, unpack, if_neg hlength, length_reverseWords]
      exact if_neg hlength

/-- In a mode whose byte order reverses the same words nothing is changed. -/
theorem WellFormed.matches_withMode (hschema : schema.WellFormed)
    (h : mode.byteOrder.needsSwap = schema.mode.byteOrder.needsSwap) :
    Matches schema (schema.withMode text mode) := by
  refine ⟨rfl, rfl, rfl, fun arguments => ?_, fun bytes => ?_⟩
  · have hpack : (schema.withMode text mode).pack arguments = (schema.pack arguments).map id :=
      hschema.pack_eq_map_of_imagesOf_eq (hschema.withMode text mode) rfl
        (Field.imagesOf_congr h 0 schema.fields)
        (fun _ _ _ hfilled hother => hother.unique hfilled) arguments
    rwa [Except.map_id] at hpack
  · by_cases hlength : bytes.length = schema.size
    · rw [hschema.unpack_eq_values hlength, (hschema.withMode text mode).unpack_eq_values hlength,
        values_eq_map, values_eq_map]
      exact congrArg Except.ok (List.map_congr_left fun place _ => Field.decode_congr h _ _)
    · rw [unpack, unpack, if_neg hlength]
      exact if_neg hlength

/-- Two formats both compile, to schemas that are related, or fail with the same error. -/
inductive Alike (related : Schema → Schema → Prop) :
    Except FormatError Schema → Except FormatError Schema → Prop
  | compiled {schema other : Schema} (h : related schema other) :
      Alike related (.ok schema) (.ok other)
  | failed (e : FormatError) : Alike related (.error e) (.error e)

/-- Formats that differ in their marker compile alike where exchanging the mode relates well formed
schemas. -/
theorem alike_of_markers {related : Schema → Schema → Prop} {text text' : String} {c d : Char}
    {tokens : List Char} {mode other : Mode}
    (htext : text.toList = c :: tokens) (htext' : text'.toList = d :: tokens)
    (hmarker : Mode.ofMarker? c = some mode) (hmarker' : Mode.ofMarker? d = some other)
    (hsizes : other.nativeSizes = mode.nativeSizes) (haligned : other.aligned = mode.aligned)
    (hrelated : ∀ schema : Schema, schema.WellFormed → schema.mode = mode →
      related schema (schema.withMode text' other)) :
    Alike related (compile allocator text) (compile allocator text') := by
  rw [compile_of_markers htext htext' hmarker hmarker' hsizes haligned]
  cases hcompile : compile allocator text with
  | error e => exact .failed e
  | ok schema =>
    have hmode : schema.mode = mode := by
      obtain ⟨_, _, _, -, -, -, rfl⟩ := (compile_of_marker_eq_ok_iff htext hmarker).mp hcompile
      rfl
    exact .compiled (hrelated schema (wellFormed_of_compile hcompile) hmode)

/-- Of the same tokens, `<` and `>` make schemas that mirror each other, `=` makes that of `<`, and
`!` that of `>`. -/
theorem compile_mirrors (allocator : Allocator) (tokens : String) :
    Alike Mirrors (compile allocator ("<" ++ tokens)) (compile allocator (">" ++ tokens)) ∧
      Alike Mirrors (compile allocator (">" ++ tokens)) (compile allocator ("<" ++ tokens)) ∧
      Alike Matches (compile allocator ("<" ++ tokens)) (compile allocator ("=" ++ tokens)) ∧
      Alike Matches (compile allocator (">" ++ tokens)) (compile allocator ("!" ++ tokens)) := by
  have hlittle : ("<" ++ tokens).toList = '<' :: tokens.toList := String.toList_append ..
  have hbig : (">" ++ tokens).toList = '>' :: tokens.toList := String.toList_append ..
  have hnative : ("=" ++ tokens).toList = '=' :: tokens.toList := String.toList_append ..
  have hnetwork : ("!" ++ tokens).toList = '!' :: tokens.toList := String.toList_append ..
  refine ⟨?_, ?_, ?_, ?_⟩
  · refine alike_of_markers hlittle hbig rfl rfl rfl rfl fun schema hschema hmode => ?_
    exact hschema.mirrors_withMode (by rw [hmode]; rfl)
  · refine alike_of_markers hbig hlittle rfl rfl rfl rfl fun schema hschema hmode => ?_
    exact hschema.mirrors_withMode (by rw [hmode]; rfl)
  · refine alike_of_markers hlittle hnative rfl rfl rfl rfl fun schema hschema hmode => ?_
    exact hschema.matches_withMode (by rw [hmode]; rfl)
  · refine alike_of_markers hbig hnetwork rfl rfl rfl rfl fun schema hschema hmode => ?_
    exact hschema.matches_withMode (by rw [hmode]; rfl)

example : BinaryRecord.pack .generous "<H2s" [.uint 258, .bytes [3, 4]] = .ok [2, 1, 3, 4] ∧
    BinaryRecord.pack .generous ">H2s" [.uint 258, .bytes [3, 4]] = .ok [1, 2, 3, 4] := by
  decide +kernel

end Schema

end BinaryRecord
