import BinaryRecord.Proofs.Schema.WellFormed
import BinaryRecord.Proofs.Window.Fields

/-!
# What packing gives

`pack_outcome` describes the result of packing for every compiled schema and every list of
arguments. A list of the wrong length is refused for its length. Else the first argument that its
field does not accept is refused, for its variant or for its number. Else the result is the record
of the arguments (`IsRecord`): at the place of each field the image of its own argument, and zeros
everywhere else.

The record is made by storing into a window of zeros, so that most of this is
`Window.storeFields_of_haveImages` and `Window.storeFields_of_refused` for the places that take an
argument. Whether arguments can be packed is up to each of them alone, so that one may be replaced
by another (`WellFormed.exists_pack_set_iff` and `WellFormed.pack_set_congr`).
-/

namespace BinaryRecord.Schema

open Layout (Covers)

variable {allocator : Allocator} {text : String} {schema : Schema} {arguments : List Value}
  {bytes : List UInt8}
  {images : List (List UInt8)}

/-! ## Records -/

/-- The bytes of a record of the given size that hold the images at the places and are zero
everywhere else. -/
structure Filled (size : Nat) (places : List (Field × Nat)) (images : List (List UInt8))
    (bytes : List UInt8) : Prop where
  /-- There are as many bytes as the record has. -/
  length_eq : bytes.length = size
  /-- Each place holds its image. -/
  slices_eq : places.map (fun place => slice bytes place.2 place.1.totalSize) = images
  /-- All bytes of no place are zero. -/
  zero : ∀ i < size, ¬ Covers places i → bytes[i]? = some 0

/-- The bytes are the record of the arguments: as many as the schema says, with each argument's own
image, in the mode's byte order, at the place of its field, and zero everywhere else. -/
structure IsRecord (schema : Schema) (arguments : List Value) (bytes : List UInt8) : Prop where
  /-- There are as many bytes as the record has. -/
  length_eq : bytes.length = schema.size
  /-- The bytes at the place of an argument are its image, which nothing else has a part in. -/
  encode_eq : ∀ (k : Nat) (field : Field) (offset : Nat) (value : Value),
    schema.argumentPlaces[k]? = some (field, offset) → arguments[k]? = some value →
      field.encode schema.mode.byteOrder value = .ok (slice bytes offset field.totalSize)
  /-- All bytes of padding and of gaps are zero. -/
  zero : ∀ i < schema.size, ¬ Covers schema.argumentPlaces i → bytes[i]? = some 0

/-- Every argument before the one of the given index is accepted by its field. -/
def AcceptsBefore (schema : Schema) (arguments : List Value) (k : Nat) : Prop :=
  ∀ j < k, ∀ (field : Field) (offset : Nat) (value : Value),
    schema.argumentPlaces[j]? = some (field, offset) → arguments[j]? = some value →
      field.Accepts value

/-- The results that packing the arguments may have, and when. The argument at index `k` is that of
the place at index `k` among those that take one. -/
inductive PackOutcome (schema : Schema) (arguments : List Value) :
    Except PackError (List UInt8) → Prop
  | countMismatch (hcount : arguments.length ≠ schema.argumentCount) :
      PackOutcome schema arguments
        (.error (.itemCountMismatch schema.argumentCount arguments.length))
  | typeMismatch {k offset : Nat} {field : Field} {value : Value}
      (hcount : arguments.length = schema.argumentCount)
      (hplace : schema.argumentPlaces[k]? = some (field, offset))
      (hvalue : arguments[k]? = some value) (hbefore : schema.AcceptsBefore arguments k)
      (hadmits : ¬ field.Admits value) :
      PackOutcome schema arguments (.error (.typeMismatch k field.typeChar value.variant))
  | outOfRange {k offset : Nat} {field : Field} {value : Value}
      (hcount : arguments.length = schema.argumentCount)
      (hplace : schema.argumentPlaces[k]? = some (field, offset))
      (hvalue : arguments[k]? = some value) (hbefore : schema.AcceptsBefore arguments k)
      (hadmits : field.Admits value) (hfits : ¬ field.Fits value) :
      PackOutcome schema arguments (.error (.valueOutOfRange k field.typeChar))
  | packed {bytes : List UInt8} (hcount : arguments.length = schema.argumentCount)
      (haccepts : schema.AcceptsBefore arguments arguments.length)
      (hrecord : schema.IsRecord arguments bytes) : PackOutcome schema arguments (.ok bytes)

/-- The first argument that is not accepted, if there is one among the first `n`. -/
theorem acceptsBefore_or_exists_refused (schema : Schema) (arguments : List Value) (n : Nat) :
    schema.AcceptsBefore arguments n ∨
      ∃ k < n, schema.AcceptsBefore arguments k ∧
        ∃ (field : Field) (offset : Nat) (value : Value),
          schema.argumentPlaces[k]? = some (field, offset) ∧ arguments[k]? = some value ∧
            ¬ field.Accepts value := by
  -- The search goes on as long as every argument so far is accepted.
  induction n with
  | zero => exact .inl fun j hj => absurd hj (Nat.not_lt_zero j)
  | succ n ih =>
    rcases ih with hbefore | ⟨k, hk, hrefused⟩
    · by_cases hlast : ∀ (field : Field) (offset : Nat) (value : Value),
          schema.argumentPlaces[n]? = some (field, offset) → arguments[n]? = some value →
            field.Accepts value
      · refine .inl fun j hj => ?_
        rcases Nat.lt_succ_iff_lt_or_eq.mp hj with hj | rfl
        · exact hbefore j hj
        · exact hlast
      · simp only [not_forall, exists_prop] at hlast
        exact .inr ⟨n, Nat.lt_succ_self n, hbefore, hlast⟩
    · exact .inr ⟨k, Nat.lt_succ_of_lt hk, hrefused⟩

/-! ## Packing -/

/-- Packing is storing into zeros at the places of the arguments. -/
theorem pack_eq (hschema : schema.WellFormed) (hcount : arguments.length = schema.argumentCount) :
    schema.pack arguments =
      ((Window.zeroed schema.size schema.mode.byteOrder).storeFields 0
        (schema.argumentPlaces.take arguments.length) arguments).map (·.toList) := by
  rw [pack, if_pos hcount, ← Window.storeFields_take _ _ _
    fun _ hplace => (hschema.isProper_of_mem_argumentPlaces hplace).2, argumentPlaces,
    ← Window.storeFields_filter]
  rfl

/-- A list of the wrong length is refused, whatever the arguments are. -/
theorem pack_of_length_ne (hcount : arguments.length ≠ schema.argumentCount) :
    schema.pack arguments = .error (.itemCountMismatch schema.argumentCount arguments.length) :=
  if_neg hcount

/-- The window of zeros is as long as the record. -/
theorem length_zeroed (size : Nat) (order : ByteOrder) :
    (Window.zeroed size order).length = size := by
  simp [Window.zeroed, Window.length]

/-- Arguments that have images are packed to what holds them. -/
theorem pack_of_haveImages (hschema : schema.WellFormed)
    (hcount : arguments.length = schema.argumentCount)
    (himages : Field.HaveImages schema.mode.byteOrder
      ((schema.argumentPlaces.take arguments.length).map (·.1)) arguments images) :
    ∃ bytes, schema.pack arguments = .ok bytes ∧
      Filled schema.size (schema.argumentPlaces.take arguments.length) images bytes := by
  have horder := hschema.inOrder_argumentPlaces.take arguments.length
  rw [← length_zeroed schema.size schema.mode.byteOrder] at horder
  have hplaces : ∀ place ∈ schema.argumentPlaces.take arguments.length,
      place.1.IsProper ∧ place.1.takesArgument = true :=
    fun place hplace => hschema.isProper_of_mem_argumentPlaces (List.mem_of_mem_take hplace)
  obtain ⟨after, hafter, hstored⟩ := Window.storeFields_of_haveImages 0 horder
    (fun place hplace => (hplaces place hplace).1) (fun place hplace => (hplaces place hplace).2)
    himages
  refine ⟨after.toList, ?_, ?_, hstored.slices_eq, ?_⟩
  · rw [pack_eq hschema hcount, hafter]
    rfl
  · rw [Window.length_toList, hstored.length_eq, length_zeroed]
  · -- What is stored nowhere is still the zero of the blank window.
    intro i hi hcovers
    rw [hstored.getElem?_eq i hcovers]
    simp [Window.zeroed, Window.toList, hi]

/-- The first argument that is refused is the error of packing. -/
theorem pack_of_refused {k offset : Nat} {field : Field} {value : Value} {refusal : Refusal}
    (hschema : schema.WellFormed) (hcount : arguments.length = schema.argumentCount)
    (hplace : schema.argumentPlaces[k]? = some (field, offset))
    (hvalue : arguments[k]? = some value) (hbefore : schema.AcceptsBefore arguments k)
    (hrefused : field.encode schema.mode.byteOrder value = .error refusal) :
    schema.pack arguments = .error (refusal.toError k field value) := by
  have horder := hschema.inOrder_argumentPlaces
  rw [← length_zeroed schema.size schema.mode.byteOrder] at horder
  have hplaces : ∀ place ∈ schema.argumentPlaces,
      place.1.IsProper ∧ place.1.takesArgument = true :=
    fun place hplace => hschema.isProper_of_mem_argumentPlaces hplace
  -- The places without an argument, if any, are all behind the one that is refused.
  have herror := Window.storeFields_of_refused 0 horder
    (fun place hplace => (hplaces place hplace).1) (fun place hplace => (hplaces place hplace).2)
    hbefore hplace hvalue hrefused
  rw [Window.storeFields_take _ _ _ fun place hplace => (hplaces place hplace).2] at herror
  rw [pack_eq hschema hcount, herror, Nat.zero_add]
  rfl

/-! ## The result of packing -/

/-- What holds the images of the arguments is their record. -/
theorem Filled.isRecord
    (h : Filled schema.size (schema.argumentPlaces.take arguments.length) images bytes)
    (himages : Field.HaveImages schema.mode.byteOrder
      ((schema.argumentPlaces.take arguments.length).map (·.1)) arguments images) :
    schema.IsRecord arguments bytes := by
  refine ⟨h.length_eq, fun k field offset value hplace hvalue => ?_, fun i hi hcovers => ?_⟩
  · -- The place at the index is among those taken, and what it holds is the image at the index.
    have hk : k < arguments.length := (List.getElem?_eq_some_iff.mp hvalue).1
    have htaken : (schema.argumentPlaces.take arguments.length)[k]? = some (field, offset) := by
      rw [List.getElem?_take, if_pos hk, hplace]
    have hfield : ((schema.argumentPlaces.take arguments.length).map (·.1))[k]? = some field := by
      rw [List.getElem?_map, htaken]
      rfl
    have himage : images[k]? = some (slice bytes offset field.totalSize) := by
      rw [← h.slices_eq, List.getElem?_map, htaken]
      rfl
    exact (himages.hasImage_of_getElem? hfield hvalue himage).encode_eq
  · exact h.zero i hi fun htaken => hcovers (htaken.of_subset (List.take_subset _ _))

/-- Arguments that are accepted, each by its own field, have images. -/
theorem exists_haveImages_of_acceptsBefore (order : ByteOrder)
    (hlength : arguments.length ≤ schema.argumentPlaces.length)
    (haccepts : schema.AcceptsBefore arguments arguments.length) :
    ∃ images, Field.HaveImages order
      ((schema.argumentPlaces.take arguments.length).map (·.1)) arguments images := by
  apply Field.exists_haveImages
  · rw [List.length_map, List.length_take, Nat.min_eq_left hlength]
  · intro k field value hfield hvalue
    have hk : k < arguments.length := (List.getElem?_eq_some_iff.mp hvalue).1
    rw [List.getElem?_map, List.getElem?_take, if_pos hk, Option.map_eq_some_iff] at hfield
    obtain ⟨⟨field, offset⟩, hplace, rfl⟩ := hfield
    exact haccepts k hk field offset value hplace hvalue

/-- The result of packing any arguments, where no more of them are expected than there are places
for. -/
theorem WellFormed.packOutcome (hschema : schema.WellFormed)
    (hplaces : schema.argumentCount ≤ schema.argumentPlaces.length) (arguments : List Value) :
    schema.PackOutcome arguments (schema.pack arguments) := by
  by_cases hcount : arguments.length = schema.argumentCount
  · rcases schema.acceptsBefore_or_exists_refused arguments arguments.length with
      haccepts | ⟨k, -, hbefore, field, offset, value, hplace, hvalue, hrefused⟩
    · obtain ⟨images, himages⟩ := exists_haveImages_of_acceptsBefore schema.mode.byteOrder
        (hcount ▸ hplaces) haccepts
      obtain ⟨bytes, hpack, hfilled⟩ := pack_of_haveImages hschema hcount himages
      rw [hpack]
      exact .packed hcount haccepts (hfilled.isRecord himages)
    · -- The first argument that is refused is so for its variant, or else for its number.
      have hargument :=
        (hschema.isProper_of_mem_argumentPlaces (List.mem_of_getElem? hplace)).2
      by_cases hadmits : field.Admits value
      · have hfits : ¬ field.Fits value := fun hfits => hrefused ⟨hadmits, hfits⟩
        rw [pack_of_refused hschema hcount hplace hvalue hbefore
          (Field.encode_of_not_fits hadmits hfits)]
        exact .outOfRange hcount hplace hvalue hbefore hadmits hfits
      · rw [pack_of_refused hschema hcount hplace hvalue hbefore
          (Field.encode_of_not_admits hargument hadmits)]
        exact .typeMismatch hcount hplace hvalue hbefore hadmits
  · rw [pack_of_length_ne hcount]
    exact .countMismatch hcount

/-- Arguments can be packed when there are as many as are expected and each is accepted by its
field, where no more are expected than there are places for. -/
theorem WellFormed.exists_pack_iff_acceptsBefore (hschema : schema.WellFormed)
    (hplaces : schema.argumentCount ≤ schema.argumentPlaces.length) :
    (∃ bytes, schema.pack arguments = .ok bytes) ↔
      arguments.length = schema.argumentCount ∧
        schema.AcceptsBefore arguments arguments.length := by
  have houtcome := hschema.packOutcome hplaces arguments
  constructor
  · rintro ⟨bytes, hpack⟩
    rw [hpack] at houtcome
    cases houtcome with
    | packed hcount haccepts => exact ⟨hcount, haccepts⟩
  · rintro ⟨hcount, haccepts⟩
    generalize schema.pack arguments = result at houtcome
    cases houtcome with
    | countMismatch hother => exact absurd hcount hother
    | typeMismatch _ hplace hvalue _ hadmits =>
      have hk := (List.getElem?_eq_some_iff.mp hvalue).1
      exact absurd (haccepts _ hk _ _ _ hplace hvalue).1 hadmits
    | outOfRange _ hplace hvalue _ _ hfits =>
      have hk := (List.getElem?_eq_some_iff.mp hvalue).1
      exact absurd (haccepts _ hk _ _ _ hplace hvalue).2 hfits
    | packed => exact ⟨_, rfl⟩

/-- Where all arguments but one are accepted in any case, it is up to that one. -/
theorem acceptsBefore_set_iff {field : Field} {offset k : Nat} (value : Value)
    (hplace : schema.argumentPlaces[k]? = some (field, offset))
    (hk : k < arguments.length) (h : schema.AcceptsBefore arguments arguments.length) :
    schema.AcceptsBefore (arguments.set k value) (arguments.set k value).length ↔
      field.Accepts value := by
  constructor
  · intro haccepts
    apply haccepts k (by rwa [List.length_set]) field offset value hplace
    rw [List.getElem?_set_self hk]
  · intro hvalue j hj own start argument hown hargument
    rw [List.length_set] at hj
    by_cases hjk : k = j
    · subst hjk
      rw [List.getElem?_set_self hk] at hargument
      obtain ⟨rfl, rfl⟩ := Prod.mk.inj (Option.some.inj (hplace.symm.trans hown))
      exact Option.some.inj hargument ▸ hvalue
    · rw [List.getElem?_set_ne hjk] at hargument
      exact h j hj own start argument hown hargument

/-- Among arguments that can be packed, one can be replaced by what its field accepts. -/
theorem WellFormed.exists_pack_set_iff {field : Field} {offset k : Nat}
    (hschema : schema.WellFormed)
    (hplaces : schema.argumentCount ≤ schema.argumentPlaces.length)
    (hplace : schema.argumentPlaces[k]? = some (field, offset)) (hk : k < arguments.length)
    (hpack : ∃ bytes, schema.pack arguments = .ok bytes) (value : Value) :
    (∃ bytes, schema.pack (arguments.set k value) = .ok bytes) ↔ field.Accepts value := by
  obtain ⟨hlength, haccepts⟩ := (hschema.exists_pack_iff_acceptsBefore hplaces).mp hpack
  rw [hschema.exists_pack_iff_acceptsBefore hplaces, List.length_set, and_iff_right hlength]
  have hset := acceptsBefore_set_iff value hplace hk haccepts
  rwa [List.length_set] at hset

/-- An argument is out of range when it is admitted and does not fit, where nothing before it is
refused. -/
theorem WellFormed.pack_eq_outOfRange_iff {field : Field} {offset k : Nat} {value : Value}
    (hschema : schema.WellFormed)
    (hplaces : schema.argumentCount ≤ schema.argumentPlaces.length)
    (hplace : schema.argumentPlaces[k]? = some (field, offset))
    (hlength : arguments.length = schema.argumentCount)
    (hbefore : schema.AcceptsBefore arguments k) (hvalue : arguments[k]? = some value) :
    schema.pack arguments = .error (.valueOutOfRange k field.typeChar) ↔
      field.Admits value ∧ ¬ field.Fits value := by
  constructor
  · intro hpack
    have houtcome := hschema.packOutcome hplaces arguments
    generalize herror : PackError.valueOutOfRange k field.typeChar = error at hpack
    rw [hpack] at houtcome
    cases houtcome with
    | countMismatch => contradiction
    | typeMismatch => contradiction
    | outOfRange _ hown hargument _ hadmits hfits =>
      obtain ⟨rfl, -⟩ := PackError.valueOutOfRange.inj herror
      obtain ⟨rfl, rfl⟩ := Prod.mk.inj (Option.some.inj (hown.symm.trans hplace))
      obtain rfl := Option.some.inj (hargument.symm.trans hvalue)
      exact ⟨hadmits, hfits⟩
  · rintro ⟨hadmits, hfits⟩
    exact pack_of_refused hschema hlength hplace hvalue hbefore
      (Field.encode_of_not_fits hadmits hfits)

/-- Records are packed alike when one argument is replaced by another that is stored alike. -/
theorem WellFormed.pack_set_congr {field : Field} {offset k : Nat} {value other : Value}
    (hschema : schema.WellFormed)
    (hplace : schema.argumentPlaces[k]? = some (field, offset))
    (h : ∀ (window : Window) (index : Nat), window.storeField field offset index value =
      window.storeField field offset index other) (arguments : List Value) :
    schema.pack (arguments.set k value) = schema.pack (arguments.set k other) := by
  have harguments : ∀ place ∈ schema.argumentPlaces, place.1.takesArgument = true :=
    fun place hplace => (hschema.isProper_of_mem_argumentPlaces hplace).2
  have hstored := Window.storeFields_set_congr (.zeroed schema.size schema.mode.byteOrder) 0
    arguments harguments hplace h
  have hlength : (arguments.set k value).length = (arguments.set k other).length := by
    rw [List.length_set, List.length_set]
  by_cases hcount : (arguments.set k other).length = schema.argumentCount
  · rw [pack_eq hschema hcount, pack_eq hschema (hlength.trans hcount),
      ← Window.storeFields_take _ _ _ harguments, ← Window.storeFields_take _ _ _ harguments,
      hstored]
  · rw [pack_of_length_ne hcount, pack_of_length_ne (hlength ▸ hcount), hlength]

/-- A record that was packed holds the images of its arguments. -/
theorem WellFormed.exists_haveImages_of_pack (hschema : schema.WellFormed)
    (hplaces : schema.argumentCount = schema.argumentPlaces.length)
    (hpack : schema.pack arguments = .ok bytes) :
    ∃ images, Field.HaveImages schema.mode.byteOrder schema.argumentFields arguments images ∧
      Filled schema.size schema.argumentPlaces images bytes := by
  have houtcome := hschema.packOutcome (Nat.le_of_eq hplaces) arguments
  rw [hpack] at houtcome
  cases houtcome with
  | packed hcount haccepts =>
    -- There is an argument for every place.
    have htake : schema.argumentPlaces.take arguments.length = schema.argumentPlaces :=
      List.take_of_length_le (by omega)
    obtain ⟨images, himages⟩ := exists_haveImages_of_acceptsBefore schema.mode.byteOrder
      (by omega) haccepts
    obtain ⟨packed, hpacked, hfilled⟩ := pack_of_haveImages hschema hcount himages
    obtain rfl := Except.ok.inj (hpack.symm.trans hpacked)
    rw [htake] at himages hfilled
    exact ⟨images, himages, hfilled⟩

/-- The result of packing any arguments into any compiled schema. There are as many places for
arguments as arguments are expected, unless they are more than a size can say. -/
theorem pack_outcome (hcompile : compile allocator text = .ok schema) (arguments : List Value) :
    schema.argumentCount = min schema.argumentPlaces.length Size.maxSize ∧
      schema.PackOutcome arguments (schema.pack arguments) := by
  have hplaces := argumentCount_eq_min hcompile
  exact ⟨hplaces, (wellFormed_of_compile hcompile).packOutcome (by omega) arguments⟩

/-- A record of the four kinds of places: a number, padding, a number of two bytes, and a string
that is shorter than its field. -/
theorem pack_outcome_mixed_fields : ∃ schema, compile .generous ">B2xH4s" = .ok schema ∧
    schema.pack [.uint 7, .int 258, .bytes [97]] = .ok [7, 0, 0, 1, 2, 97, 0, 0, 0] ∧
    schema.argumentCount = min schema.argumentPlaces.length Size.maxSize ∧
    schema.PackOutcome [.uint 7, .int 258, .bytes [97]]
      (schema.pack [.uint 7, .int 258, .bytes [97]]) := by
  have hcompile : compile .generous ">B2xH4s" = .ok ⟨">B2xH4s", .big,
      [⟨'B', .unsigned, 1, 1⟩, ⟨'x', .pad, 1, 2⟩, ⟨'H', .unsigned, 2, 2⟩, ⟨'s', .bytes, 1, 4⟩],
      ⟨[0, 1, 3, 5], 9⟩, 3⟩ := by
    decide +kernel
  exact ⟨_, hcompile, by decide +kernel, pack_outcome hcompile _⟩

end BinaryRecord.Schema
