import BinaryRecord.Proofs.Field.Image
import BinaryRecord.Proofs.Layout.Order
import BinaryRecord.Proofs.Window.Slice
import BinaryRecord.Window.Fields

/-!
# Fields in windows

Where the places of a record stand in order, storing its arguments does to the window what storing
each of them alone would: `storeFields_of_haveImages` says that every place then holds the image of
its own argument, and that no byte outside the places is changed. The first argument that has no
image decides the error, whatever comes after it (`storeFields_of_refused`). Loading gives the value
of the bytes at each place (`loadFields_of_inOrder`).

All of it goes by induction on the places. The invariant is that those still to come follow a cursor
before which nothing will be written any more.
-/

namespace BinaryRecord

open Layout (InOrder Covers covers_cons_iff)

namespace Window

variable {window after : Window} {order : ByteOrder} {index cursor offset : Nat} {field : Field}
  {places : List (Field × Nat)} {value : Value} {values : List Value} {image : List UInt8}
  {images : List (List UInt8)}

/-! ## One place -/

/-- The window after an image has been stored at an offset. -/
structure StoredAt (before : Window) (offset : Nat) (image : List UInt8) (after : Window) :
    Prop where
  /-- The order of words is the same. -/
  order_eq : after.order = before.order
  /-- The bytes are written over. -/
  bytes_eq : after.bytes = overwrite before.bytes offset image

/-- Storing keeps the number of bytes. -/
theorem StoredAt.length_eq (h : window.StoredAt offset image after) :
    after.length = window.length := by
  rw [length, h.bytes_eq, size_overwrite]
  rfl

/-- An image is stored where there is room for it. -/
theorem storeField_of_hasImage (index : Nat) (hproper : field.IsProper)
    (hroom : offset + field.totalSize ≤ window.length)
    (himage : field.HasImage window.order value image) :
    ∃ after, window.storeField field offset index value = .ok after ∧
      window.StoredAt offset image after := by
  have hstored : window.storeBytes offset image =
      .ok { window with bytes := overwrite window.bytes offset image } :=
    storeBytes_eq_ok_iff.mpr ⟨by rw [himage.length_eq hproper]; exact hroom, rfl⟩
  refine ⟨_, bind_eq_ok_iff.mpr ⟨image, ?_, mapError_eq_ok_iff.mpr hstored⟩, rfl, rfl⟩
  exact mapError_eq_ok_iff.mpr himage.encode_eq

/-- Storing an argument keeps the number of bytes, wherever the field stands. -/
theorem length_storeField (h : window.storeField field offset index value = .ok after) :
    after.length = window.length := by
  obtain ⟨image, -, h⟩ := bind_eq_ok_iff.mp h
  obtain ⟨-, rfl⟩ := storeBytes_eq_ok_iff.mp (mapError_eq_ok_iff.mp h)
  exact size_overwrite _ _ _

/-- A refusal is the error of the argument. -/
theorem storeField_of_refused {refusal : Refusal}
    (h : field.encode window.order value = .error refusal) :
    window.storeField field offset index value = .error (refusal.toError index field value) := by
  rw [storeField, h]
  rfl

/-! ## Storing -/

/-- Storing arguments keeps the number of bytes, whatever the places are. -/
theorem length_storeFields (h : window.storeFields index places values = .ok after) :
    after.length = window.length := by
  induction places generalizing window index values with
  | nil => rw [← Except.ok.inj h]
  | cons place places ih =>
    obtain ⟨field, offset⟩ := place
    by_cases hargument : field.takesArgument = true
    · cases values with
      | nil =>
        simp only [storeFields, hargument, if_true] at h
        rw [← Except.ok.inj h]
      | cons value values =>
        simp only [storeFields, hargument, if_true] at h
        obtain ⟨stored, hstored, hrest⟩ := bind_eq_ok_iff.mp h
        exact (ih hrest).trans (length_storeField hstored)
    · simp only [storeFields, hargument, if_false, Bool.false_eq_true] at h
      exact ih h

/-- Padding takes no part in storing. -/
theorem storeFields_filter (window : Window) (index : Nat) (places : List (Field × Nat))
    (values : List Value) :
    window.storeFields index places values =
      window.storeFields index (places.filter (·.1.takesArgument)) values := by
  induction places generalizing window index values with
  | nil => rfl
  | cons place places ih =>
    obtain ⟨field, offset⟩ := place
    by_cases hargument : field.takesArgument = true
    · rw [List.filter_cons, if_pos hargument]
      cases values with
      | nil => simp only [storeFields, hargument, if_true]
      | cons value values =>
        simp only [storeFields, hargument, if_true]
        -- Both sides store the same argument first, whatever window that gives.
        exact bind_congr fun window => ih window (index + 1) values
    · rw [List.filter_cons, if_neg hargument, ← ih]
      simp only [storeFields, hargument, if_false, Bool.false_eq_true]

/-- Places for which there is no argument take no part in storing. -/
theorem storeFields_take (window : Window) (index : Nat) (values : List Value)
    (harguments : ∀ place ∈ places, place.1.takesArgument = true) :
    window.storeFields index places values =
      window.storeFields index (places.take values.length) values := by
  induction places generalizing window index values with
  | nil => simp
  | cons place places ih =>
    obtain ⟨field, offset⟩ := place
    have hargument := harguments (field, offset) List.mem_cons_self
    cases values with
    | nil => simp only [storeFields, hargument, if_true, List.length_nil, List.take_zero]
    | cons value values =>
      simp only [List.length_cons, List.take_succ_cons, storeFields, hargument, if_true]
      exact bind_congr fun window => ih window (index + 1) values
        fun place hplace => harguments place (List.mem_cons_of_mem _ hplace)

/-- Arguments are stored alike when one of them is replaced by another that is. -/
theorem storeFields_set_congr (window : Window) (index : Nat) (values : List Value) {other : Value}
    {k : Nat} (harguments : ∀ place ∈ places, place.1.takesArgument = true)
    (hplace : places[k]? = some (field, offset))
    (h : ∀ (window : Window) (index : Nat), window.storeField field offset index value =
      window.storeField field offset index other) :
    window.storeFields index places (values.set k value) =
      window.storeFields index places (values.set k other) := by
  induction places generalizing window index values k with
  | nil => simp at hplace
  | cons place places ih =>
    obtain ⟨first, start⟩ := place
    obtain ⟨hargument, harguments⟩ := List.forall_mem_cons.mp harguments
    cases values with
    | nil => rfl
    | cons argument values =>
      cases k with
      | zero =>
        obtain ⟨rfl, rfl⟩ := Prod.mk.inj (Option.some.inj hplace)
        simp only [List.set_cons_zero, storeFields, show first.takesArgument = true from hargument,
          if_true, h]
      | succ k =>
        -- The argument that is replaced is among those behind the first.
        simp only [List.set_cons_succ, storeFields, show first.takesArgument = true from hargument,
          if_true]
        exact bind_congr fun window => ih window (index + 1) values harguments hplace

/-- The window after images have been stored at places: each place holds its image, and no other
byte has changed. -/
structure Stored (before after : Window) (places : List (Field × Nat))
    (images : List (List UInt8)) : Prop where
  /-- The order of words is the same. -/
  order_eq : after.order = before.order
  /-- The number of bytes is the same. -/
  length_eq : after.length = before.length
  /-- Each place holds its image. -/
  slices_eq : places.map (fun place => slice after.toList place.2 place.1.totalSize) = images
  /-- The bytes of no place are the same. -/
  getElem?_eq : ∀ i, ¬ Covers places i → after.toList[i]? = before.toList[i]?

/-- One more image, stored before the others and in front of them. -/
theorem Stored.cons {stored : Window} (hwidth : image.length = field.totalSize)
    (hrest : InOrder window.length (offset + field.totalSize) places)
    (hfirst : window.StoredAt offset image stored) (h : Stored stored after places images) :
    Stored window after ((field, offset) :: places) (image :: images) := by
  have hroom : offset + image.length ≤ window.bytes.size := by
    rw [hwidth]
    exact hrest.cursor_le
  refine ⟨h.order_eq.trans hfirst.order_eq, h.length_eq.trans hfirst.length_eq, ?_, ?_⟩
  · -- The places to come start behind this one, so that its bytes stay as they are now.
    have hkept : slice after.toList offset field.totalSize =
        slice stored.toList offset field.totalSize :=
      slice_congr fun i _ hi => h.getElem?_eq i (hrest.not_covers_of_lt hi)
    have hslice : slice after.toList offset field.totalSize = image := by
      rw [hkept, toList, hfirst.bytes_eq, ← hwidth]
      exact slice_overwrite hroom
    rw [List.map_cons, h.slices_eq, hslice]
  · -- A byte of no place is changed neither by the others nor by this one.
    intro i hi
    rw [covers_cons_iff, not_or] at hi
    rw [h.getElem?_eq i hi.2, toList, hfirst.bytes_eq]
    exact getElem?_overwrite_of_outside hroom (by omega)

/-- Arguments that have images are stored, each at its own place. -/
theorem storeFields_of_haveImages (index : Nat) (horder : InOrder window.length cursor places)
    (hproper : ∀ place ∈ places, place.1.IsProper)
    (harguments : ∀ place ∈ places, place.1.takesArgument = true)
    (himages : Field.HaveImages window.order (places.map (·.1)) values images) :
    ∃ after, window.storeFields index places values = .ok after ∧
      Stored window after places images := by
  induction places generalizing window index cursor values images with
  | nil =>
    cases himages
    exact ⟨window, rfl, ⟨rfl, rfl, rfl, fun _ _ => rfl⟩⟩
  | cons place places ih =>
    obtain ⟨field, offset⟩ := place
    obtain ⟨hfield, hproper⟩ := List.forall_mem_cons.mp hproper
    obtain ⟨hargument, harguments⟩ := List.forall_mem_cons.mp harguments
    cases horder with
    | cons _ hrest =>
      cases himages with
      | cons himage himages =>
        -- The first image is stored, and the others go into the window that this gives.
        obtain ⟨stored, hstore, hfirst⟩ :=
          storeField_of_hasImage index hfield hrest.cursor_le himage
        obtain ⟨after, hafter, h⟩ := ih (index + 1) (hfirst.length_eq ▸ hrest) hproper harguments
          (hfirst.order_eq ▸ himages)
        refine ⟨after, ?_, h.cons (himage.length_eq hfield) hrest hfirst⟩
        simp only [storeFields, show field.takesArgument = true from hargument, if_true]
        exact bind_eq_ok_iff.mpr ⟨stored, hstore, hafter⟩

/-- The first argument that is refused decides the error. -/
theorem storeFields_of_refused (index : Nat) {k : Nat} {refusal : Refusal}
    (horder : InOrder window.length cursor places)
    (hproper : ∀ place ∈ places, place.1.IsProper)
    (harguments : ∀ place ∈ places, place.1.takesArgument = true)
    (hbefore : ∀ j < k, ∀ field offset value, places[j]? = some (field, offset) →
      values[j]? = some value → field.Accepts value)
    (hplace : places[k]? = some (field, offset)) (hvalue : values[k]? = some value)
    (hrefused : field.encode window.order value = .error refusal) :
    window.storeFields index places values =
      .error (refusal.toError (index + k) field value) := by
  induction places generalizing window index cursor values k with
  | nil => simp at hplace
  | cons place places ih =>
    obtain ⟨first, start⟩ := place
    obtain ⟨hfirst, hproper⟩ := List.forall_mem_cons.mp hproper
    obtain ⟨hargument, harguments⟩ := List.forall_mem_cons.mp harguments
    cases values with
    | nil => simp at hvalue
    | cons argument values =>
      simp only [storeFields, show first.takesArgument = true from hargument, if_true]
      cases k with
      | zero =>
        -- The refused argument is the first one: nothing has been stored.
        obtain ⟨rfl, rfl⟩ := Prod.mk.inj (Option.some.inj hplace)
        obtain rfl := Option.some.inj hvalue
        exact bind_eq_error_iff.mpr (.inl (storeField_of_refused hrefused))
      | succ k =>
        -- The first argument is accepted, and the refused one is among the others.
        cases horder with
        | cons _ hrest =>
          have haccepts := hbefore 0 (Nat.zero_lt_succ k) first start argument rfl rfl
          obtain ⟨image, himage⟩ := Field.exists_hasImage_iff.mpr haccepts
          obtain ⟨stored, hstore, hstored⟩ :=
            storeField_of_hasImage index hfirst hrest.cursor_le himage
          have herror := ih (index + 1) (hstored.length_eq ▸ hrest) hproper harguments
            (fun j hj => hbefore (j + 1) (Nat.succ_lt_succ hj)) hplace hvalue
            (hstored.order_eq ▸ hrefused)
          rw [Nat.add_assoc, Nat.add_comm 1] at herror
          exact bind_eq_error_iff.mpr (.inr ⟨stored, hstore, herror⟩)

/-! ## Loading -/

/-- The values at the places are those of the bytes that stand there. -/
theorem loadFields_of_inOrder (horder : InOrder window.length cursor places) :
    window.loadFields places =
      .ok ((places.filter (·.1.takesArgument)).map fun place =>
        place.1.decode window.order (slice window.toList place.2 place.1.totalSize)) := by
  induction horder with
  | nil => rfl
  | @cons cursor offset field places _ hrest ih =>
    by_cases hargument : field.takesArgument = true
    · -- Loading changes nothing, so that the window is the same for the places to come.
      have hloaded : window.loadField field offset =
          .ok (field.decode window.order (slice window.toList offset field.totalSize)) := by
        have hbytes := loadBytes_eq_ok_iff.mpr ⟨hrest.cursor_le, rfl⟩
        exact bind_eq_ok_iff.mpr ⟨_, mapError_eq_ok_iff.mpr hbytes, rfl⟩
      rw [List.filter_cons, if_pos hargument, List.map_cons]
      simp only [loadFields, hargument, if_true]
      exact bind_eq_ok_iff.mpr ⟨_, hloaded, bind_eq_ok_iff.mpr ⟨_, ih, rfl⟩⟩
    · rw [List.filter_cons, if_neg hargument, ← ih]
      simp only [loadFields, hargument, if_false, Bool.false_eq_true]

end Window

end BinaryRecord
