import BinaryRecord.Proofs.Field.Expansion
import BinaryRecord.Proofs.Layout.Placement
import BinaryRecord.Schema

/-!
# Compiled schemas are well formed

Compiling a format parses it, expands its runs and places its fields (`compile_eq_ok_iff`). What the
three steps guarantee together is `WellFormed`: every field is proper, and the fields stand in
order, each with an offset. A schema has as many arguments as places for them, unless there are more
than a size can say (`argumentCount_eq_min`), which the fields of a schema in memory never are.
-/

namespace BinaryRecord.Schema

open Layout (InOrder)

variable {allocator : Allocator} {text : String} {schema : Schema}

/-- The places that take an argument, in the order of the arguments. -/
def argumentPlaces (schema : Schema) : List (Field × Nat) :=
  schema.places.filter (·.1.takesArgument)

/-- The fields that take an argument, in the order of the arguments. -/
def argumentFields (schema : Schema) : List Field :=
  schema.argumentPlaces.map (·.1)

/-- What is relied on when records are packed and unpacked. -/
structure WellFormed (schema : Schema) : Prop where
  /-- There is a form for the values of every field. -/
  isProper : ∀ field ∈ schema.fields, field.IsProper
  /-- Every field has an offset. -/
  length_offsets : schema.offsets.length = schema.fields.length
  /-- The fields follow one another within the record. -/
  inOrder : InOrder schema.size 0 schema.places

/-! ## Compiling -/

/-- The search for a field without a form for its values finds none among the fields of runs. -/
theorem find?_isStorable_eq_none {mode : Mode} {runs : List Run} {fields : List Field}
    (h : Field.ofRuns allocator mode runs = .ok fields) : fields.find? (!·.isStorable) = none := by
  rw [List.find?_eq_none]
  intro field hfield
  simp [(Field.isProper_of_mem_ofRuns h hfield).isStorable]

/-- A format compiles when it can be parsed, expanded and laid out. That there are forms for the
values of its fields is checked, too, but never fails. -/
theorem compile_eq_ok_iff : compile allocator text = .ok schema ↔
    ∃ format fields layout, Format.parse text = .ok format ∧
      Field.ofRuns allocator format.mode format.runs = .ok fields ∧
      Layout.compute format.mode fields = .ok layout ∧
      ⟨text, format.mode, fields, layout, Run.countArguments format.runs⟩ = schema := by
  rw [compile, bind_eq_ok_iff]
  constructor
  · rintro ⟨format, hformat, h⟩
    obtain ⟨fields, hfields, h⟩ := bind_eq_ok_iff.mp h
    simp only [find?_isStorable_eq_none hfields] at h
    obtain ⟨layout, hlayout, h⟩ := bind_eq_ok_iff.mp h
    exact ⟨format, fields, layout, hformat, hfields, hlayout, Except.ok.inj h⟩
  · rintro ⟨format, fields, layout, hformat, hfields, hlayout, rfl⟩
    refine ⟨format, hformat, bind_eq_ok_iff.mpr ⟨fields, hfields, ?_⟩⟩
    simp only [find?_isStorable_eq_none hfields]
    exact bind_eq_ok_iff.mpr ⟨layout, hlayout, rfl⟩

/-- A compiled schema is well formed. -/
theorem wellFormed_of_compile (h : compile allocator text = .ok schema) : schema.WellFormed := by
  obtain ⟨format, fields, layout, -, hfields, hlayout, rfl⟩ := compile_eq_ok_iff.mp h
  obtain ⟨hlength, horder⟩ := Layout.inOrder_of_computeFrom hlayout (Nat.zero_le _)
  exact ⟨fun field hfield => Field.isProper_of_mem_ofRuns hfields hfield, hlength, horder⟩

/-- The size of a compiled schema is one that fits. -/
theorem size_le_of_compile (h : compile allocator text = .ok schema) :
    schema.size ≤ Size.maxSize := by
  obtain ⟨format, fields, layout, -, -, hlayout, rfl⟩ := compile_eq_ok_iff.mp h
  exact Layout.size_le_of_computeFrom hlayout (Nat.zero_le _)

/-! ## Arguments -/

namespace WellFormed

/-- The fields of the places are the fields of the schema. -/
theorem map_fst_places (h : schema.WellFormed) : schema.places.map (·.1) = schema.fields :=
  List.map_fst_zip (Nat.le_of_eq h.length_offsets.symm)

/-- The places that take an argument follow one another within the record. -/
theorem inOrder_argumentPlaces (h : schema.WellFormed) :
    InOrder schema.size 0 schema.argumentPlaces :=
  h.inOrder.filter _

/-- There are as many places for arguments as fields that take one. -/
theorem length_argumentPlaces (h : schema.WellFormed) :
    schema.argumentPlaces.length = schema.fields.countP (·.takesArgument) := by
  rw [argumentPlaces, ← List.countP_eq_length_filter, ← h.map_fst_places, List.countP_map]
  rfl

/-- The place of an argument takes one and is proper. -/
theorem isProper_of_mem_argumentPlaces (h : schema.WellFormed) {place : Field × Nat}
    (hplace : place ∈ schema.argumentPlaces) :
    place.1.IsProper ∧ place.1.takesArgument = true := by
  obtain ⟨hmem, hargument⟩ := List.mem_filter.mp hplace
  have hfield : place.1 ∈ schema.fields := by
    rw [← h.map_fst_places]
    exact List.mem_map_of_mem hmem
  exact ⟨h.isProper place.1 hfield, hargument⟩

end WellFormed

/-- A schema has as many arguments as places for them, or the largest size if there are more. -/
theorem argumentCount_eq_min (h : compile allocator text = .ok schema) :
    schema.argumentCount = min schema.argumentPlaces.length Size.maxSize := by
  rw [(wellFormed_of_compile h).length_argumentPlaces]
  obtain ⟨format, fields, layout, -, hruns, -, rfl⟩ := compile_eq_ok_iff.mp h
  rw [Run.countArguments_eq_min, ← Field.countP_takesArgument_ofRuns hruns]

/-- A schema whose fields are no more than a size can say has as many arguments as places for
them. -/
theorem argumentCount_eq (h : compile allocator text = .ok schema)
    (hfields : schema.fields.length ≤ Size.maxSize) :
    schema.argumentCount = schema.argumentPlaces.length := by
  have hle : schema.fields.countP (·.takesArgument) ≤ schema.fields.length := List.countP_le_length
  rw [argumentCount_eq_min h, (wellFormed_of_compile h).length_argumentPlaces]
  exact Nat.min_eq_left (Nat.le_trans hle hfields)

end BinaryRecord.Schema
