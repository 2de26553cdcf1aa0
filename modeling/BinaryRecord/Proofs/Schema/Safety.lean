import BinaryRecord.Proofs.Schema.RecordCursor

/-!
# What packing and unpacking take to be impossible

Packing and unpacking rely on more than they check: that the codec has a case for the kind and the
width of every field, that there is an argument for every field that takes one, that every field
lies within the record, and that sums of offsets fit. The guarded forms `packGuarded` and
`unpackGuarded` stop where one of the first two fails, and `isSafe_of_compile` says that for a
compiled schema they never stop. What packing may still fail with are errors of the arguments, and
unpacking a record always gives as many values as arguments are expected, each of which its field
can hold.
-/

namespace BinaryRecord

/-! ## What a field can hold -/

namespace Field

variable {field : Field} {order : ByteOrder} {image : List UInt8}

/-- The value is one that the field can give back: of the field's own variant, an integer in the
range of its width, and a string of just its width. -/
inductive CanHold (field : Field) : Value → Prop
  | bool (hkind : field.kind = .bool) (truth : Bool) : CanHold field (.bool truth)
  | char (hkind : field.kind = .char) (byte : UInt8) : CanHold field (.char byte)
  | signed {n : Int64} (hkind : field.kind = .signed)
      (hfits : FitsInteger true field.unitSize n.toInt) : CanHold field (.int n)
  | unsigned {n : UInt64} (hkind : field.kind = .unsigned)
      (hfits : FitsInteger false field.unitSize n.toNat) : CanHold field (.uint n)
  | float (hkind : field.kind = .float) (x : Binary64) : CanHold field (.float x)
  | bytes {data : List UInt8} (hkind : field.kind = .bytes)
      (hwidth : data.length = field.totalSize) : CanHold field (.bytes data)

/-- What is read from a field is a value that it can hold. -/
theorem canHold_decode (hproper : field.IsProper) (hargument : field.takesArgument = true)
    (hwidth : image.length = field.totalSize) : field.CanHold (field.decode order image) := by
  cases hkind : field.kind with
  | pad => exact absurd hkind (takesArgument_iff.mp hargument)
  | bool => simpa only [decode, hkind] using CanHold.bool hkind _
  | char => simpa only [decode, hkind] using CanHold.char hkind _
  | signed =>
    -- The number of a word is in the range of its width, and so is the value that holds it.
    obtain ⟨-, hle⟩ := bounds_of_mem_integerWidths (hproper.mem_integerWidths (.inl hkind))
    have hfits := fitsInteger_toInt (field.word order image)
    rw [← toInt_int64OfInt hle hfits] at hfits
    simpa only [decode, hkind] using CanHold.signed hkind hfits
  | unsigned =>
    obtain ⟨-, hle⟩ := bounds_of_mem_integerWidths (hproper.mem_integerWidths (.inr hkind))
    have hfits := fitsInteger_toNat (field.word order image)
    rw [← toNat_uint64OfNat hle] at hfits
    simpa only [decode, hkind] using CanHold.unsigned hkind hfits
  | float => simpa only [decode, hkind] using CanHold.float hkind _
  | bytes => simpa only [decode, hkind] using CanHold.bytes hkind hwidth

/-- The codec has a case for the kind and the width of the field. It looks at the widths of numbers
only, and has nothing to do with padding. -/
def hasCase (field : Field) : Bool :=
  match field.kind with
  | .signed | .unsigned => integerWidths.contains field.unitSize
  | .float => floatWidths.contains field.unitSize
  | .bool | .char | .bytes => true
  | .pad => false

/-- The codec has a case for every proper field that takes an argument. -/
theorem IsProper.hasCase (hproper : field.IsProper) (hargument : field.takesArgument = true) :
    field.hasCase = true := by
  cases hkind : field.kind with
  | pad => exact absurd hkind (takesArgument_iff.mp hargument)
  | signed => simpa [Field.hasCase, hkind] using hproper.mem_integerWidths (.inl hkind)
  | unsigned => simpa [Field.hasCase, hkind] using hproper.mem_integerWidths (.inr hkind)
  | float => simpa [Field.hasCase, hkind] using hproper.mem_floatWidths hkind
  | _ => simp [Field.hasCase, hkind]

end Field

/-- The error is one of the arguments: of their number, of a variant or of a number. -/
def PackError.IsOfArguments : PackError → Prop
  | .itemCountMismatch _ _ | .typeMismatch _ _ _ | .valueOutOfRange _ _ => True
  | _ => False

/-! ## Guarded forms -/

/-- What packing and unpacking take to be impossible. -/
inductive Impossible where
  /-- The codec has no case for the field. -/
  | noCase (field : Field)
  /-- The field takes an argument, and none is left. -/
  | noArgument (field : Field)

namespace Window

variable {window : Window} {places : List (Field × Nat)} {values : List Value}

/-- Stores arguments at places as `storeFields` does, and stops where it comes to a field without a
case in the codec or without an argument. -/
def storeFieldsGuarded (window : Window) (index : Nat) :
    List (Field × Nat) → List Value → Except Impossible (Except PackError Window)
  | [], _ => .ok (.ok window)
  | (field, offset) :: places, values =>
    if field.takesArgument then
      match values with
      | [] => .error (.noArgument field)
      | value :: values =>
        if field.hasCase then
          match window.storeField field offset index value with
          | .ok window => window.storeFieldsGuarded (index + 1) places values
          | .error e => .ok (.error e)
        else .error (.noCase field)
    else window.storeFieldsGuarded index places values

/-- Where there is a case for every field and an argument for every field that takes one, storing
does not stop. -/
theorem storeFieldsGuarded_eq (window : Window) (index : Nat)
    (hcase : ∀ place ∈ places, place.1.takesArgument = true → place.1.hasCase = true)
    (hvalues : places.countP (·.1.takesArgument) ≤ values.length) :
    window.storeFieldsGuarded index places values =
      .ok (window.storeFields index places values) := by
  induction places generalizing window index values with
  | nil => rfl
  | cons place places ih =>
    obtain ⟨field, offset⟩ := place
    obtain ⟨hfield, hcase⟩ := List.forall_mem_cons.mp hcase
    by_cases hargument : field.takesArgument = true
    · -- There are arguments left, of which this field takes the first.
      simp only [List.countP_cons, hargument, if_true] at hvalues
      cases values with
      | nil => simp at hvalues
      | cons value values =>
        simp only [storeFieldsGuarded, storeFields, hargument, if_true, hfield hargument]
        cases window.storeField field offset index value with
        | error e => rfl
        | ok window => exact ih window (index + 1) hcase (Nat.le_of_succ_le_succ hvalues)
    · simp only [List.countP_cons, hargument, if_false, Nat.add_zero, Bool.false_eq_true] at hvalues
      simp only [storeFieldsGuarded, storeFields, hargument, if_false, Bool.false_eq_true]
      exact ih window index hcase hvalues

/-- Loads the values at places as `loadFields` does, and stops where it comes to a field without a
case in the codec. -/
def loadFieldsGuarded (window : Window) :
    List (Field × Nat) → Except Impossible (Except PackError (List Value))
  | [] => .ok (.ok [])
  | (field, offset) :: places =>
    if field.takesArgument then
      if field.hasCase then
        match window.loadField field offset with
        | .ok value => (window.loadFieldsGuarded places).map (·.map (value :: ·))
        | .error e => .ok (.error e)
      else .error (.noCase field)
    else window.loadFieldsGuarded places

/-- Where there is a case for every field, loading does not stop. -/
theorem loadFieldsGuarded_eq (window : Window)
    (hcase : ∀ place ∈ places, place.1.takesArgument = true → place.1.hasCase = true) :
    window.loadFieldsGuarded places = .ok (window.loadFields places) := by
  induction places with
  | nil => rfl
  | cons place places ih =>
    obtain ⟨field, offset⟩ := place
    obtain ⟨hfield, hcase⟩ := List.forall_mem_cons.mp hcase
    by_cases hargument : field.takesArgument = true
    · simp only [loadFieldsGuarded, loadFields, hargument, if_true, hfield hargument, ih hcase]
      cases window.loadField field offset with
      | error e => rfl
      | ok value =>
        cases window.loadFields places with
        | error e => rfl
        | ok values => rfl
    · simp only [loadFieldsGuarded, loadFields, hargument, if_false, Bool.false_eq_true]
      exact ih hcase

end Window

namespace Schema

variable {allocator : Allocator} {text : String} {schema : Schema} {arguments : List Value}
  {bytes : List UInt8}

/-- Packs arguments as `pack` does, and stops where it comes to what it takes to be impossible. -/
def packGuarded (schema : Schema) (arguments : List Value) :
    Except Impossible (Except PackError (List UInt8)) :=
  if arguments.length = schema.argumentCount then
    let blank := Window.zeroed schema.size schema.mode.byteOrder
    (blank.storeFieldsGuarded 0 schema.places arguments).map (·.map (·.toList))
  else .ok (.error (.itemCountMismatch schema.argumentCount arguments.length))

/-- Unpacks bytes as `unpack` does, and stops where it comes to what it takes to be impossible. -/
def unpackGuarded (schema : Schema) (bytes : List UInt8) :
    Except Impossible (Except PackError (List Value)) :=
  if bytes.length = schema.size then
    (Window.ofList bytes schema.mode.byteOrder).loadFieldsGuarded schema.places
  else .ok (.error (.bufferSizeMismatch schema.size bytes.length))

/-- The codec has a case for every field of a well-formed schema that takes an argument. -/
theorem WellFormed.hasCase (hschema : schema.WellFormed) :
    ∀ place ∈ schema.places, place.1.takesArgument = true → place.1.hasCase = true := by
  intro place hplace hargument
  have hfield : place.1 ∈ schema.fields := by
    rw [← hschema.map_fst_places]
    exact List.mem_map_of_mem hplace
  exact (hschema.isProper place.1 hfield).hasCase hargument

/-- Packing never stops where there are as many arguments as places for them. -/
theorem WellFormed.packGuarded_eq (hschema : schema.WellFormed)
    (hplaces : schema.argumentCount = schema.argumentPlaces.length) (arguments : List Value) :
    schema.packGuarded arguments = .ok (schema.pack arguments) := by
  unfold packGuarded pack
  by_cases hcount : arguments.length = schema.argumentCount
  · have hvalues : schema.places.countP (·.1.takesArgument) ≤ arguments.length := by
      rw [List.countP_eq_length_filter, hcount, hplaces]
      exact Nat.le_refl _
    have hstored := Window.storeFieldsGuarded_eq
      (Window.zeroed schema.size schema.mode.byteOrder) 0 hschema.hasCase hvalues
    simp only [if_pos hcount, hstored]
    rfl
  · rw [if_neg hcount, if_neg hcount]

/-- Unpacking never stops. -/
theorem WellFormed.unpackGuarded_eq (hschema : schema.WellFormed) (bytes : List UInt8) :
    schema.unpackGuarded bytes = .ok (schema.unpack bytes) := by
  unfold unpackGuarded unpack
  by_cases hlength : bytes.length = schema.size
  · rw [if_pos hlength, if_pos hlength, Window.loadFieldsGuarded_eq _ hschema.hasCase]
  · rw [if_neg hlength, if_neg hlength]

/-! ## Errors and values -/

/-- The values of a record are those that its fields can hold. -/
theorem WellFormed.forall₂_canHold (hschema : schema.WellFormed)
    (hlength : bytes.length = schema.size) :
    List.Forall₂ Field.CanHold schema.argumentFields (schema.values bytes) := by
  rw [values_eq_map, argumentFields, List.forall₂_map_left_iff, List.forall₂_map_right_iff,
    List.forall₂_same]
  intro place hplace
  obtain ⟨hproper, hargument⟩ := hschema.isProper_of_mem_argumentPlaces hplace
  have hbounds := hschema.inOrder_argumentPlaces.bounds_of_mem hplace
  exact Field.canHold_decode hproper hargument (length_slice (by omega))

/-- Packing fails with errors of the arguments only. -/
theorem WellFormed.isOfArguments_of_pack (hschema : schema.WellFormed)
    (hplaces : schema.argumentCount ≤ schema.argumentPlaces.length) {e : PackError}
    (h : schema.pack arguments = .error e) : e.IsOfArguments := by
  have houtcome := hschema.packOutcome hplaces arguments
  rw [h] at houtcome
  cases houtcome <;> trivial

/-- Packing and unpacking never come to what they take to be impossible. -/
structure IsSafe (schema : Schema) : Prop where
  /-- Packing never comes to a field without a case in the codec or without an argument. -/
  packGuarded_eq : ∀ arguments, schema.packGuarded arguments = .ok (schema.pack arguments)
  /-- Packing fails with errors of the arguments only. -/
  isOfArguments : ∀ arguments e, schema.pack arguments = .error e → e.IsOfArguments
  /-- Unpacking never comes to a field without a case in the codec. -/
  unpackGuarded_eq : ∀ bytes, schema.unpackGuarded bytes = .ok (schema.unpack bytes)
  /-- Unpacking a record succeeds, with a value for each argument that its field can hold. -/
  unpack_eq : ∀ bytes, bytes.length = schema.size → ∃ values, schema.unpack bytes = .ok values ∧
    values.length = schema.argumentCount ∧
      List.Forall₂ Field.CanHold schema.argumentFields values
  /-- No offset within a field is too large for a size. -/
  offset_add_le : ∀ place ∈ schema.places, ∀ len ≤ place.1.totalSize,
    place.2 + len ≤ Size.maxSize
  /-- Wherever a cursor has come to, it is within the buffer, and the end of a record there is not
  too large for a size. -/
  position_add_le : ∀ bytes cursor, bytes.length < 2^63 → schema.cursor bytes = .ok cursor → ∀ n,
    (cursor.after n).position ≤ bytes.length ∧
      (cursor.after n).position + schema.size ≤ Size.maxSize

/-- Packing and unpacking with a compiled schema never come to what they take to be impossible. The
fields, which are a list in memory, are no more than a size can say. -/
theorem isSafe_of_compile (hcompile : compile allocator text = .ok schema)
    (hfields : schema.fields.length ≤ Size.maxSize) : schema.IsSafe := by
  have hschema := wellFormed_of_compile hcompile
  have hplaces := argumentCount_eq hcompile hfields
  have hsize := size_le_of_compile hcompile
  refine ⟨fun arguments => hschema.packGuarded_eq hplaces arguments,
    fun arguments e h => hschema.isOfArguments_of_pack (Nat.le_of_eq hplaces) h,
    fun bytes => hschema.unpackGuarded_eq bytes, fun bytes hlength => ?_,
    fun place hplace len hlen => ?_, fun bytes cursor hbytes hcursor n => ?_⟩
  · have hvalues := hschema.forall₂_canHold hlength
    refine ⟨_, hschema.unpack_eq_values hlength, ?_, hvalues⟩
    rw [← hvalues.length_eq, argumentFields, List.length_map, hplaces]
  · have hbounds := hschema.inOrder.bounds_of_mem hplace
    omega
  · have haligned := (aligned_of_cursor hcursor).after n
    obtain ⟨-, hown, hbuffer, -⟩ := cursor_eq_ok_iff.mp hcursor
    obtain ⟨hschemaAfter, hbytesAfter⟩ := RecordCursor.schema_bytes_after cursor n
    rw [hown] at hschemaAfter
    rw [hbuffer] at hbytesAfter
    have hlength : (cursor.after n).bytes.size = bytes.length := by
      rw [hbytesAfter, List.size_toArray]
    have hend := haligned.position_add_size_le (by omega) (by rwa [hschemaAfter])
    rw [hschemaAfter] at hend
    exact ⟨hlength ▸ haligned.position_le, hend⟩

/-- Gaps in front of wide fields, padding, a half float, and at the end a string without bytes. -/
theorem isSafe_of_compile_mixed_fields : ∃ schema, compile .generous "@bq3xe0s" = .ok schema ∧
    schema.fields.length ≤ Size.maxSize ∧ schema.IsSafe := by
  have hcompile : compile .generous "@bq3xe0s" = .ok ⟨"@bq3xe0s", .nativeAligned,
      [⟨'b', .signed, 1, 1⟩, ⟨'q', .signed, 8, 8⟩, ⟨'x', .pad, 1, 3⟩, ⟨'e', .float, 2, 2⟩,
        ⟨'s', .bytes, 1, 0⟩], ⟨[0, 8, 16, 20, 22], 22⟩, 4⟩ := by
    decide +kernel
  have hfields : 5 ≤ Size.maxSize := by decide
  exact ⟨_, hcompile, hfields, isSafe_of_compile hcompile hfields⟩

end Schema

end BinaryRecord
