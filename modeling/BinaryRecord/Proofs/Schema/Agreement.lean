import BinaryRecord.Proofs.Schema.WellFormed

/-!
# What is known of a record in two ways agrees

The size of a record is computed for a format alone and again when the format is compiled, and the
number of its arguments is counted on the runs and again on the fields that they expand to.
`compile_agreement` says that the sizes are the same, as are the errors, and that so are the counts:
the count of arguments has not stopped at the largest size. Every field is of the type that its
character stands for, which is why compiling never refuses one for its width.
-/

namespace BinaryRecord.Schema

variable {allocator : Allocator} {text : String} {schema : Schema}

/-- The schema agrees with the format that it is compiled from: in its mode, in the number of its
arguments and in the types of its fields. -/
structure AgreesWith (schema : Schema) (format : Format) : Prop where
  /-- The mode is that of the format. -/
  mode_eq : schema.mode = format.mode
  /-- The arguments are as many as were counted on the runs. -/
  argumentCount_eq : schema.argumentCount = Run.countArguments format.runs
  /-- That count is the exact sum of what the runs take. -/
  argumentCount_eq_sum : schema.argumentCount = (format.runs.map (·.argumentCount)).sum
  /-- There is a field for every argument. -/
  argumentCount_eq_countP : schema.argumentCount = schema.fields.countP (·.takesArgument)
  /-- Every field has an offset. -/
  length_offsets : schema.offsets.length = schema.fields.length
  /-- Every field is of the type that its character stands for. -/
  isOfType : ∀ field ∈ schema.fields, ∃ run ∈ format.runs, ∃ code,
    TypeCode.find field.typeChar = .ok code ∧ field.IsOfType schema.mode code run

/-- The size of a format that compiles is that of its schema. -/
theorem sizeOfFormat_of_compile (h : compile allocator text = .ok schema) :
    Layout.sizeOfFormat allocator text = .ok schema.size := by
  obtain ⟨format, fields, layout, hformat, hfields, hlayout, rfl⟩ := compile_eq_ok_iff.mp h
  exact bind_eq_ok_iff.mpr ⟨format, hformat, bind_eq_ok_iff.mpr ⟨fields, hfields,
    bind_eq_ok_iff.mpr ⟨layout, hlayout, rfl⟩⟩⟩

/-- A format that does not compile has no size, for the same reason. -/
theorem sizeOfFormat_of_compile_error {e : FormatError} (h : compile allocator text = .error e) :
    Layout.sizeOfFormat allocator text = .error e := by
  rw [compile, bind_eq_error_iff] at h
  rw [Layout.sizeOfFormat, bind_eq_error_iff]
  rcases h with hformat | ⟨format, hformat, h⟩
  · exact .inl hformat
  · rw [bind_eq_error_iff] at h
    refine .inr ⟨format, hformat, bind_eq_error_iff.mpr ?_⟩
    rcases h with hfields | ⟨fields, hfields, h⟩
    · exact .inl hfields
    · -- Of what is left only the layout can fail.
      simp only [find?_isStorable_eq_none hfields] at h
      refine .inr ⟨fields, hfields, bind_eq_error_iff.mpr ?_⟩
      rcases bind_eq_error_iff.mp h with hlayout | ⟨layout, -, h⟩
      · exact .inl hlayout
      · contradiction

/-- A compiled schema agrees with its format. The fields, which are a list in memory, are no more
than a size can say. -/
theorem agreesWith_of_compile (h : compile allocator text = .ok schema)
    (hfields : schema.fields.length ≤ Size.maxSize) :
    ∃ format, Format.parse text = .ok format ∧ schema.AgreesWith format := by
  have hschema := wellFormed_of_compile h
  have hcount := argumentCount_eq h hfields
  rw [hschema.length_argumentPlaces] at hcount
  obtain ⟨format, fields, layout, hformat, hruns, -, rfl⟩ := compile_eq_ok_iff.mp h
  refine ⟨format, hformat, rfl, rfl, ?_, hcount, hschema.length_offsets, fun field hfield => ?_⟩
  · rw [hcount, Field.countP_takesArgument_ofRuns hruns]
  · obtain ⟨run, hrun, code, hfind, htype⟩ := Field.exists_isOfType_of_mem_ofRuns hruns hfield
    exact ⟨run, hrun, code, htype.typeChar_eq ▸ hfind, htype⟩

/-- A format either has no size and does not compile, for the same reason, or it compiles to a
schema of its size. The fields that it expands to are never refused for their widths. The schema
agrees with the format, where its fields, which are a list in memory, are no more than a size can
say. -/
theorem compile_agreement (allocator : Allocator) (text : String) :
    ((∃ e, Layout.sizeOfFormat allocator text = .error e ∧ compile allocator text = .error e) ∨
      ∃ schema, compile allocator text = .ok schema ∧
        Layout.sizeOfFormat allocator text = .ok schema.size) ∧
    (∀ format fields, Format.parse text = .ok format →
      Field.ofRuns allocator format.mode format.runs = .ok fields →
        fields.find? (!·.isStorable) = none) ∧
    ∀ schema, compile allocator text = .ok schema → schema.fields.length ≤ Size.maxSize →
      ∃ format, Format.parse text = .ok format ∧ schema.AgreesWith format := by
  refine ⟨?_, fun format fields _ hfields => find?_isStorable_eq_none hfields,
    fun schema hcompile hfields => agreesWith_of_compile hcompile hfields⟩
  cases hcompile : compile allocator text with
  | error e => exact .inl ⟨e, sizeOfFormat_of_compile_error hcompile, rfl⟩
  | ok schema => exact .inr ⟨schema, rfl, sizeOfFormat_of_compile hcompile⟩

/-- A run of numbers, an empty run, padding, a string and a number whose size is the host's. -/
theorem compile_agreement_mixed_fields : ∃ schema format,
    compile .generous "@2h0B3x4sl" = .ok schema ∧ schema.fields.length ≤ Size.maxSize ∧
    Layout.sizeOfFormat .generous "@2h0B3x4sl" = .ok schema.size ∧
    Format.parse "@2h0B3x4sl" = .ok format ∧ schema.AgreesWith format := by
  have hcompile : compile .generous "@2h0B3x4sl" = .ok ⟨"@2h0B3x4sl", .nativeAligned,
      [⟨'h', .signed, 2, 2⟩, ⟨'h', .signed, 2, 2⟩, ⟨'x', .pad, 1, 3⟩, ⟨'s', .bytes, 1, 4⟩,
        ⟨'l', .signed, 8, 8⟩], ⟨[0, 2, 4, 7, 16], 24⟩, 4⟩ := by
    decide +kernel
  have hfields : 5 ≤ Size.maxSize := by decide
  obtain ⟨hsize, -, hagrees⟩ := compile_agreement .generous "@2h0B3x4sl"
  obtain ⟨format, hformat, hagree⟩ := hagrees _ hcompile hfields
  refine ⟨_, format, hcompile, hfields, ?_, hformat, hagree⟩
  rcases hsize with ⟨e, -, herror⟩ | ⟨schema, hschema, hsize⟩
  · rw [hcompile] at herror
    contradiction
  · obtain rfl := Except.ok.inj (hcompile.symm.trans hschema)
    exact hsize

end BinaryRecord.Schema
