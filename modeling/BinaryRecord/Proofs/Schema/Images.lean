import BinaryRecord.Proofs.Field.ImagesOf
import BinaryRecord.Proofs.Schema.RecordCursor

/-!
# Records as the images of their fields

Packing does two things at once: it makes the images of the arguments, for which it does not matter
where the fields stand, and it puts them where they stand. It fails as `Field.imagesOf` does, which
is the first alone, and else gives the bytes that hold these images and are zero everywhere else
(`WellFormed.fillOutcome`). There is only one such list of bytes (`Filled.unique`), so that two
records can be compared by their images and places.
-/

namespace BinaryRecord

open Layout (InOrder Covers covers_cons_iff)

/-! ## Storing -/

namespace Window

variable {window after : Window} {cursor offset : Nat} {field : Field}
  {places : List (Field × Nat)} {image : List UInt8} {images : List (List UInt8)}

/-- All bytes from the cursor on are zero. -/
def ZeroFrom (window : Window) (cursor : Nat) : Prop :=
  ∀ i, cursor ≤ i → i < window.length → window.toList[i]? = some 0

/-- A place behind the cursor is blank. -/
theorem ZeroFrom.slice_eq (hzero : window.ZeroFrom cursor) (hstart : cursor ≤ offset)
    (hroom : offset + field.totalSize ≤ window.length) :
    slice window.toList offset field.totalSize = field.blank := by
  apply List.ext_getElem?
  intro i
  rw [getElem?_slice, Field.blank, List.getElem?_replicate]
  split
  case isTrue hi => rw [hzero (offset + i) (by omega) (by omega)]
  case isFalse => rfl

/-- What is stored in front of a cursor leaves the bytes behind it zero. -/
theorem StoredAt.zeroFrom (hstored : window.StoredAt offset image after)
    (hzero : window.ZeroFrom cursor) (hstart : cursor ≤ offset)
    (hroom : offset + image.length ≤ window.length) : after.ZeroFrom (offset + image.length) := by
  intro i hfirst hlast
  rw [hstored.length_eq] at hlast
  rw [toList, hstored.bytes_eq, getElem?_overwrite_of_outside hroom (.inr hfirst)]
  exact hzero i (by omega) hlast

/-- A window of zeros holds the blank images. -/
theorem Stored.blank (horder : InOrder window.length cursor places)
    (hzero : window.ZeroFrom cursor) :
    Stored window window places ((places.map (·.1)).map Field.blank) := by
  refine ⟨rfl, rfl, ?_, fun _ _ => rfl⟩
  rw [List.map_map]
  refine List.map_congr_left fun place hplace => ?_
  obtain ⟨hfirst, hlast⟩ := horder.bounds_of_mem hplace
  exact hzero.slice_eq hfirst hlast

/-- A blank place in front of others, for which nothing is stored. -/
theorem Stored.cons_blank (hzero : window.ZeroFrom cursor) (hstart : cursor ≤ offset)
    (hrest : InOrder window.length (offset + field.totalSize) places)
    (h : Stored window after places images) :
    Stored window after ((field, offset) :: places) (field.blank :: images) := by
  refine ⟨h.order_eq, h.length_eq, ?_, fun i hi => ?_⟩
  · -- The places to come start behind this one, so that its bytes stay as they are now.
    have hkept : slice after.toList offset field.totalSize =
        slice window.toList offset field.totalSize :=
      slice_congr fun i _ hi => h.getElem?_eq i (hrest.not_covers_of_lt hi)
    rw [List.map_cons, h.slices_eq, hkept, hzero.slice_eq hstart hrest.cursor_le]
  · rw [covers_cons_iff, not_or] at hi
    exact h.getElem?_eq i hi.2

/-- Without arguments nothing is stored. -/
theorem storeFields_nil (window : Window) (index : Nat) (places : List (Field × Nat)) :
    window.storeFields index places [] = .ok window := by
  induction places with
  | nil => rfl
  | cons place places ih =>
    obtain ⟨field, offset⟩ := place
    rw [storeFields]
    split
    · rfl
    · exact ih

/-- What storing comes to where making the images comes to this: it puts them at their places, or
fails as making them does. -/
inductive StoreOutcome (window : Window) (places : List (Field × Nat)) :
    Except PackError (List (List UInt8)) → Except PackError Window → Prop
  | stored {images : List (List UInt8)} {after : Window} (h : Stored window after places images) :
      StoreOutcome window places (.ok images) (.ok after)
  | refused (e : PackError) : StoreOutcome window places (.error e) (.error e)

/-- What storing at a place in front of others comes to, where it comes to this for the others. -/
theorem StoreOutcome.cons {stored : Window} {made : Except PackError (List (List UInt8))}
    {result : Except PackError Window} (h : StoreOutcome stored places made result)
    (hfirst : ∀ images after, Stored stored after places images →
      Stored window after ((field, offset) :: places) (image :: images)) :
    StoreOutcome window ((field, offset) :: places) (made.map (image :: ·)) result := by
  cases h with
  | stored h => exact .stored (hfirst _ _ h)
  | refused e => exact .refused e

/-- Storing arguments into zeros makes the images of the fields and puts them at their places. -/
theorem storeFields_outcome (index : Nat) (values : List Value)
    (horder : InOrder window.length cursor places)
    (hproper : ∀ place ∈ places, place.1.IsProper) (hzero : window.ZeroFrom cursor) :
    StoreOutcome window places (Field.imagesOf window.order index (places.map (·.1)) values)
      (window.storeFields index places values) := by
  -- The bytes from the cursor on have not been written yet.
  induction places generalizing window cursor index values with
  | nil => exact .stored (.blank horder hzero)
  | cons place places ih =>
    obtain ⟨field, offset⟩ := place
    obtain ⟨hfield, hproper⟩ := List.forall_mem_cons.mp hproper
    cases values with
    | nil =>
      rw [storeFields_nil, Field.imagesOf_nil]
      exact .stored (.blank horder hzero)
    | cons value values =>
      cases horder with
      | cons hstart hrest =>
        rw [List.map_cons]
        by_cases hargument : field.takesArgument = true
        · simp only [storeFields, hargument, if_true]
          rw [Field.imagesOf_cons_of_takesArgument hargument]
          cases hencode : field.encode window.order value with
          | error refusal =>
            rw [storeField_of_refused hencode]
            exact .refused _
          | ok image =>
            have himage := Field.hasImage_of_encode hargument hencode
            have hwidth := himage.length_eq hfield
            obtain ⟨stored, hstore, hfirst⟩ :=
              storeField_of_hasImage index hfield hrest.cursor_le himage
            have hbehind := hfirst.zeroFrom hzero hstart (hwidth ▸ hrest.cursor_le)
            have houtcome := ih (index + 1) values (hfirst.length_eq ▸ hrest) hproper
              (hwidth ▸ hbehind)
            rw [hfirst.order_eq] at houtcome
            rw [hstore]
            exact houtcome.cons fun _ _ h => h.cons hwidth hrest hfirst
        · have hbehind : window.ZeroFrom (offset + field.totalSize) :=
            fun i hfirst => hzero i (by omega)
          have houtcome := ih index (value :: values) hrest hproper hbehind
          simp only [storeFields, hargument, if_false, Bool.false_eq_true]
          rw [Field.imagesOf_cons_of_pad hargument]
          exact houtcome.cons fun _ _ h => h.cons_blank hzero hstart hrest

end Window

/-! ## Records -/

namespace Schema

variable {schema : Schema} {arguments : List Value} {bytes other : List UInt8}
  {images : List (List UInt8)} {places : List (Field × Nat)} {size cursor : Nat}

/-- What packing comes to where making the images comes to this: the bytes that hold them and are
zero everywhere else, or the same error. -/
inductive FillOutcome (schema : Schema) :
    Except PackError (List (List UInt8)) → Except PackError (List UInt8) → Prop
  | packed {images : List (List UInt8)} {bytes : List UInt8}
      (h : Filled schema.size schema.places images bytes) :
      FillOutcome schema (.ok images) (.ok bytes)
  | refused (e : PackError) : FillOutcome schema (.error e) (.error e)

/-- Packing as many arguments as are expected makes the images of the fields and fills a record
with them. -/
theorem WellFormed.fillOutcome (hschema : schema.WellFormed)
    (hcount : arguments.length = schema.argumentCount) :
    FillOutcome schema (Field.imagesOf schema.mode.byteOrder 0 schema.fields arguments)
      (schema.pack arguments) := by
  have hlength := length_zeroed schema.size schema.mode.byteOrder
  have hzero : (Window.zeroed schema.size schema.mode.byteOrder).ZeroFrom 0 := by
    intro i _ hi
    rw [hlength] at hi
    simp [Window.zeroed, Window.toList, hi]
  have hproper : ∀ place ∈ schema.places, place.1.IsProper := by
    intro place hplace
    exact hschema.isProper _ (hschema.map_fst_places ▸ List.mem_map_of_mem hplace)
  have houtcome := Window.storeFields_outcome 0 arguments (hlength.symm ▸ hschema.inOrder) hproper
    hzero
  rw [hschema.map_fst_places] at houtcome
  rw [pack, if_pos hcount]
  show FillOutcome schema (Field.imagesOf (Window.zeroed schema.size _).order 0 _ _)
    (((Window.zeroed schema.size _).storeFields 0 schema.places arguments).map (·.toList))
  generalize Field.imagesOf _ _ _ arguments = made at houtcome
  generalize Window.storeFields _ _ _ arguments = result at houtcome
  cases houtcome with
  | stored h =>
    refine .packed ⟨?_, h.slices_eq, fun i hi hcovers => ?_⟩
    · rw [Window.length_toList, h.length_eq, hlength]
    · rw [h.getElem?_eq i hcovers]
      exact hzero i (Nat.zero_le i) (hlength.symm ▸ hi)
  | refused e => exact .refused e

/-- Bytes that hold the same images at the same places, and are zero everywhere else, are the same.
-/
theorem Filled.unique (h : Filled size places images bytes)
    (hother : Filled size places images other) : bytes = other := by
  apply List.ext_getElem?
  intro i
  by_cases hi : i < size
  · by_cases hcovers : Covers places i
    · -- The byte is one of the image of its place.
      obtain ⟨place, hplace, hfirst, hlast⟩ := hcovers
      have hslices := h.slices_eq.trans hother.slices_eq.symm
      have hslice := List.map_inj_left.mp hslices place hplace
      have hbyte := congrArg (·[i - place.2]?) hslice
      simp only [getElem?_slice, if_pos (show i - place.2 < place.1.totalSize by omega),
        Nat.add_sub_cancel' hfirst] at hbyte
      exact hbyte
    · rw [h.zero i hi hcovers, hother.zero i hi hcovers]
  · rw [List.getElem?_eq_none (by rw [h.length_eq]; omega),
      List.getElem?_eq_none (by rw [hother.length_eq]; omega)]

/-- The record of arguments holds the images that they have, of which there are as many as are
expected. -/
theorem WellFormed.pack_eq_ok_iff (hschema : schema.WellFormed) :
    schema.pack arguments = .ok bytes ↔ arguments.length = schema.argumentCount ∧
      ∃ images, Field.imagesOf schema.mode.byteOrder 0 schema.fields arguments = .ok images ∧
        Filled schema.size schema.places images bytes := by
  by_cases hcount : arguments.length = schema.argumentCount
  · have houtcome := hschema.fillOutcome hcount
    generalize Field.imagesOf _ _ _ arguments = made at houtcome
    generalize schema.pack arguments = result at houtcome
    constructor
    · rintro rfl
      cases houtcome with
      | packed h => exact ⟨hcount, _, rfl, h⟩
    · rintro ⟨-, images, rfl, hother⟩
      cases houtcome with
      | packed h => rw [h.unique hother]
  · rw [pack_of_length_ne hcount]
    constructor
    · intro h
      contradiction
    · exact fun h => absurd h.1 hcount

/-- Arguments can be packed when there are as many as are expected and all of them have images. -/
theorem WellFormed.exists_pack_eq_ok_iff (hschema : schema.WellFormed) :
    (∃ bytes, schema.pack arguments = .ok bytes) ↔ arguments.length = schema.argumentCount ∧
      ∃ images, Field.imagesOf schema.mode.byteOrder 0 schema.fields arguments = .ok images := by
  constructor
  · rintro ⟨bytes, hpack⟩
    obtain ⟨hcount, images, himages, -⟩ := hschema.pack_eq_ok_iff.mp hpack
    exact ⟨hcount, images, himages⟩
  · rintro ⟨hcount, images, himages⟩
    have houtcome := hschema.fillOutcome hcount
    rw [himages] at houtcome
    generalize schema.pack arguments = result at houtcome
    cases houtcome with
    | packed _ => exact ⟨_, rfl⟩

/-- Two schemas pack alike where they make the images alike and, of records that hold them, the one
of the second schema is determined by that of the first. -/
theorem WellFormed.pack_eq_map {target : Schema} {f : List (List UInt8) → List (List UInt8)}
    {g : List UInt8 → List UInt8} (hschema : schema.WellFormed) (htarget : target.WellFormed)
    (hcount : target.argumentCount = schema.argumentCount)
    (himages : ∀ arguments, Field.imagesOf target.mode.byteOrder 0 target.fields arguments =
      (Field.imagesOf schema.mode.byteOrder 0 schema.fields arguments).map f)
    (hbytes : ∀ images bytes other, Filled schema.size schema.places images bytes →
      Filled target.size target.places (f images) other → other = g bytes)
    (arguments : List Value) : target.pack arguments = (schema.pack arguments).map g := by
  by_cases hlength : arguments.length = schema.argumentCount
  · have hfirst := hschema.fillOutcome hlength
    have hsecond := htarget.fillOutcome (hlength.trans hcount.symm)
    rw [himages] at hsecond
    generalize Field.imagesOf _ _ _ arguments = made at hfirst hsecond
    generalize schema.pack arguments = packed at hfirst
    generalize target.pack arguments = result at hsecond
    cases hfirst with
    | refused e =>
      cases hsecond
      rfl
    | packed hfilled =>
      cases hsecond with
      | packed hother => exact congrArg Except.ok (hbytes _ _ _ hfilled hother)
  · rw [pack_of_length_ne hlength, pack_of_length_ne (hcount.symm ▸ hlength), hcount]
    rfl

/-- Two schemas that make the same images pack alike where the record of the second is determined by
that of the first. -/
theorem WellFormed.pack_eq_map_of_imagesOf_eq {target : Schema} {g : List UInt8 → List UInt8}
    (hschema : schema.WellFormed) (htarget : target.WellFormed)
    (hcount : target.argumentCount = schema.argumentCount)
    (himages : ∀ arguments, Field.imagesOf target.mode.byteOrder 0 target.fields arguments =
      Field.imagesOf schema.mode.byteOrder 0 schema.fields arguments)
    (hbytes : ∀ images bytes other, Filled schema.size schema.places images bytes →
      Filled target.size target.places images other → other = g bytes)
    (arguments : List Value) : target.pack arguments = (schema.pack arguments).map g := by
  refine hschema.pack_eq_map htarget hcount (fun arguments => ?_) hbytes arguments
  rw [himages]
  exact (congrFun Except.map_id _).symm

/-! ## Values -/

/-- What stands at the places. -/
def heldAt (places : List (Field × Nat)) (bytes : List UInt8) : List (List UInt8) :=
  places.map fun place => slice bytes place.2 place.1.totalSize

/-- The values of a record are those of what stands at the places of its fields. -/
theorem WellFormed.values_eq_heldAt (hschema : schema.WellFormed) (bytes : List UInt8) :
    schema.values bytes =
      ((schema.fields.zip (heldAt schema.places bytes)).filter (·.1.takesArgument)).map
        fun entry => entry.1.decode schema.mode.byteOrder entry.2 := by
  rw [values_eq_map, ← hschema.map_fst_places, heldAt, List.zip_map', List.filter_map, List.map_map]
  rfl

end Schema

end BinaryRecord
