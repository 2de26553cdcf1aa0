import BinaryRecord.Proofs.Field.Image
import BinaryRecord.Proofs.Outcome

/-!
# The images of arguments

`imagesOf` makes the images that the fields of a record hold for its arguments, wherever the fields
stand: one for every field, padding included. The first argument that is refused decides the error,
and its index is all that depends on what comes before (`imagesOf_of_index`).
-/

namespace BinaryRecord.Field

/-- The image of a field for which there is no argument. -/
def blank (field : Field) : List UInt8 :=
  List.replicate field.totalSize 0

/-- The images that the fields hold for the arguments, the first of which has the given index in an
error. A field that takes no argument, or for which there is none, is blank. -/
def imagesOf (order : ByteOrder) (index : Nat) :
    List Field → List Value → Except PackError (List (List UInt8))
  | [], _ => .ok []
  | field :: fields, [] => .ok ((field :: fields).map blank)
  | field :: fields, value :: values =>
    if field.takesArgument then do
      let image ← (field.encode order value).mapError (·.toError index field value)
      let images ← imagesOf order (index + 1) fields values
      return image :: images
    else do
      let images ← imagesOf order index fields (value :: values)
      return field.blank :: images

variable {order : ByteOrder} {index : Nat} {field : Field} {fields : List Field} {value : Value}
  {values : List Value}

/-- Without arguments all fields are blank. -/
theorem imagesOf_nil (order : ByteOrder) (index : Nat) (fields : List Field) :
    imagesOf order index fields [] = .ok (fields.map blank) := by
  cases fields <;> rfl

/-- The first of the fields holds the first of the arguments. -/
theorem imagesOf_cons_of_takesArgument (hargument : field.takesArgument = true) :
    imagesOf order index (field :: fields) (value :: values) =
      (field.encode order value).mapError (·.toError index field value) >>= fun image =>
        (imagesOf order (index + 1) fields values).map (image :: ·) := by
  rw [imagesOf, if_pos hargument]
  rfl

/-- Padding is blank, and the arguments are those of the other fields. -/
theorem imagesOf_cons_of_pad (hargument : ¬ field.takesArgument = true) :
    imagesOf order index (field :: fields) values =
      (imagesOf order index fields values).map (field.blank :: ·) := by
  cases values with
  | nil =>
    rw [imagesOf_nil, imagesOf_nil]
    rfl
  | cons value values =>
    rw [imagesOf, if_neg hargument]
    rfl

/-- The images are the same whatever index the first argument would have in an error. -/
theorem imagesOf_of_index {images : List (List UInt8)}
    (h : imagesOf order index fields values = .ok images) (other : Nat) :
    imagesOf order other fields values = .ok images := by
  induction fields generalizing index other values images with
  | nil => exact h
  | cons field fields ih =>
    by_cases hargument : field.takesArgument = true
    · cases values with
      | nil =>
        rw [imagesOf_nil] at h ⊢
        exact h
      | cons value values =>
        rw [imagesOf_cons_of_takesArgument hargument] at h ⊢
        obtain ⟨image, himage, hrest⟩ := bind_eq_ok_iff.mp h
        obtain ⟨rest, hrest, himages⟩ := map_eq_ok_iff.mp hrest
        refine bind_eq_ok_iff.mpr ⟨image, ?_, map_eq_ok_iff.mpr ⟨rest, ih hrest _, himages⟩⟩
        exact mapError_eq_ok_iff.mpr (mapError_eq_ok_iff.mp himage)
    · rw [imagesOf_cons_of_pad hargument] at h ⊢
      obtain ⟨rest, hrest, himages⟩ := map_eq_ok_iff.mp h
      exact map_eq_ok_iff.mpr ⟨rest, ih hrest _, himages⟩

/-- The images of two lists of fields are those of the one and then those of the other, where the
first arguments are as many as the first fields take. -/
theorem imagesOf_append_eq_ok_iff {others : List Field} {more : List Value}
    {images : List (List UInt8)} (hcount : values.length = fields.countP (·.takesArgument)) :
    imagesOf order index (fields ++ others) (values ++ more) = .ok images ↔
      ∃ first second, imagesOf order index fields values = .ok first ∧
        imagesOf order index others more = .ok second ∧ first ++ second = images := by
  induction fields generalizing index values images with
  | nil =>
    obtain rfl := List.length_eq_zero_iff.mp hcount
    constructor
    · exact fun h => ⟨[], images, rfl, h, rfl⟩
    · rintro ⟨first, second, hfirst, hsecond, rfl⟩
      obtain rfl := Except.ok.inj hfirst
      exact hsecond
  | cons field fields ih =>
    by_cases hargument : field.takesArgument = true
    · rw [List.countP_cons_of_pos hargument] at hcount
      cases values with
      | nil => simp at hcount
      | cons value values =>
        have hlength := Nat.succ.inj hcount
        rw [List.cons_append, List.cons_append, imagesOf_cons_of_takesArgument hargument,
          imagesOf_cons_of_takesArgument hargument, bind_eq_ok_iff]
        constructor
        · rintro ⟨image, himage, h⟩
          obtain ⟨all, hall, rfl⟩ := map_eq_ok_iff.mp h
          obtain ⟨first, second, hfirst, hsecond, rfl⟩ := (ih hlength).mp hall
          refine ⟨image :: first, second, ?_, imagesOf_of_index hsecond _, rfl⟩
          exact bind_eq_ok_iff.mpr ⟨image, himage, map_eq_ok_iff.mpr ⟨first, hfirst, rfl⟩⟩
        · rintro ⟨_, second, h, hsecond, rfl⟩
          obtain ⟨image, himage, h⟩ := bind_eq_ok_iff.mp h
          obtain ⟨first, hfirst, rfl⟩ := map_eq_ok_iff.mp h
          refine ⟨image, himage, map_eq_ok_iff.mpr ⟨first ++ second, ?_, rfl⟩⟩
          exact (ih hlength).mpr ⟨first, second, hfirst, imagesOf_of_index hsecond _, rfl⟩
    · rw [List.countP_cons_of_neg hargument] at hcount
      rw [List.cons_append, imagesOf_cons_of_pad hargument, imagesOf_cons_of_pad hargument,
        map_eq_ok_iff]
      constructor
      · rintro ⟨all, hall, rfl⟩
        obtain ⟨first, second, hfirst, hsecond, rfl⟩ := (ih hcount).mp hall
        exact ⟨field.blank :: first, second, map_eq_ok_iff.mpr ⟨first, hfirst, rfl⟩, hsecond, rfl⟩
      · rintro ⟨_, second, h, hsecond, rfl⟩
        obtain ⟨first, hfirst, rfl⟩ := map_eq_ok_iff.mp h
        exact ⟨first ++ second, (ih hcount).mpr ⟨first, second, hfirst, hsecond, rfl⟩, rfl⟩

end BinaryRecord.Field
