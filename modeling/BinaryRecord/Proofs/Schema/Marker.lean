import BinaryRecord.Proofs.Schema.WellFormed

/-!
# What the marker of a format decides

The fields of a format depend on its mode only in the sizes of their types, and the places of the
fields only in whether they are aligned. So a format whose marker is exchanged for one of the
same sizes and alignment compiles to the same schema but for the text and the mode, or fails with
the same error (`compile_of_markers`).
-/

namespace BinaryRecord

variable {allocator : Allocator} {mode other : Mode}

/-! ## Fields and layouts -/

/-- A type has the same size in modes whose sizes are of the same sort. -/
theorem TypeCode.size_congr (hsizes : other.nativeSizes = mode.nativeSizes) (code : TypeCode) :
    code.size other = code.size mode := by
  rw [size, size, hsizes]

/-- Only `l` and `L` have a size on the host that is not their standard size. -/
theorem TypeCode.size_eq_of_ne {code : TypeCode} (hcode : code ∈ all) (hl : code.char ≠ 'l')
    (hL : code.char ≠ 'L') (mode other : Mode) : code.size other = code.size mode := by
  have htable : ∀ code ∈ all, code.char ≠ 'l' → code.char ≠ 'L' →
      code.nativeSize = code.standardSize := by
    decide
  have hsame := htable code hcode hl hL
  rw [size, size, hsame, ite_self, ite_self]

/-- Runs are expanded in the same way where their types have the same sizes. -/
theorem Field.ofRunsFrom_congr {held : Nat} {runs : List Run}
    (hsizes : ∀ run ∈ runs, ∀ code, TypeCode.find run.typeChar = .ok code →
      code.size other = code.size mode) :
    ofRunsFrom allocator other held runs = ofRunsFrom allocator mode held runs := by
  induction runs generalizing held with
  | nil => rfl
  | cons run runs ih =>
    obtain ⟨hfirst, hrest⟩ := List.forall_mem_cons.mp hsizes
    have hrun : ofRun allocator other held run = ofRun allocator mode held run := by
      unfold ofRun
      cases hcode : TypeCode.find run.typeChar with
      | error e => rfl
      | ok code =>
        simp only [bind, Except.bind]
        rw [hfirst code hcode]
    rw [ofRunsFrom, ofRunsFrom, hrun]
    simp only [ih hrest]

/-- Fields are placed in the same way where both modes align them or neither does. -/
theorem Layout.computeFrom_congr (haligned : other.aligned = mode.aligned) (cursor : Nat)
    (fields : List Field) : computeFrom other cursor fields = computeFrom mode cursor fields := by
  have hstart : ∀ cursor field, start other cursor field = start mode cursor field := by
    intro cursor field
    rw [start, start, haligned]
  induction fields generalizing cursor with
  | nil => rfl
  | cons field fields ih => simp only [computeFrom, hstart, ih]

/-! ## Formats -/

/-- A marker is a character of one byte. -/
theorem Mode.utf8Size_of_ofMarker? {c : Char} (h : ofMarker? c = some mode) : c.utf8Size = 1 := by
  unfold ofMarker? at h
  split at h <;> first | rfl | contradiction

/-- A format that begins with a marker is in its mode, and has the runs of what follows. -/
theorem Format.parse_of_marker {text : String} {c : Char} {tokens : List Char}
    (htext : text.toList = c :: tokens) (hmarker : Mode.ofMarker? c = some mode) :
    parse text = (parseRuns none 1 tokens).map (⟨mode, ·⟩) := by
  rw [parse, htext, splitMarker, hmarker, ← Mode.utf8Size_of_ofMarker? hmarker]
  rfl

namespace Schema

/-- The schema with another text, in another mode. -/
def withMode (schema : Schema) (text : String) (mode : Mode) : Schema :=
  { schema with text, mode }

/-- A format that begins with a marker compiles in its mode, from the runs of what follows. -/
theorem compile_of_marker_eq_ok_iff {text : String} {c : Char} {tokens : List Char}
    {schema : Schema} (htext : text.toList = c :: tokens)
    (hmarker : Mode.ofMarker? c = some mode) :
    compile allocator text = .ok schema ↔ ∃ runs fields layout,
      Format.parseRuns none 1 tokens = .ok runs ∧ Field.ofRuns allocator mode runs = .ok fields ∧
      Layout.compute mode fields = .ok layout ∧
      ⟨text, mode, fields, layout, Run.countArguments runs⟩ = schema := by
  rw [compile_eq_ok_iff, Format.parse_of_marker htext hmarker]
  constructor
  · rintro ⟨format, fields, layout, hformat, hfields, hlayout, hschema⟩
    cases hruns : Format.parseRuns none 1 tokens with
    | error e =>
      rw [hruns] at hformat
      contradiction
    | ok runs =>
      rw [hruns] at hformat
      obtain rfl := Except.ok.inj hformat
      exact ⟨runs, fields, layout, rfl, hfields, hlayout, hschema⟩
  · rintro ⟨runs, fields, layout, hruns, hfields, hlayout, hschema⟩
    rw [hruns]
    exact ⟨⟨mode, runs⟩, fields, layout, rfl, hfields, hlayout, hschema⟩

/-- Two formats that differ in their marker alone, where the modes have the same sizes and
alignment, compile to schemas that differ in nothing else, or fail alike. -/
theorem compile_of_markers {text text' : String} {c d : Char} {tokens : List Char}
    (htext : text.toList = c :: tokens) (htext' : text'.toList = d :: tokens)
    (hmarker : Mode.ofMarker? c = some mode) (hmarker' : Mode.ofMarker? d = some other)
    (hsizes : other.nativeSizes = mode.nativeSizes) (haligned : other.aligned = mode.aligned) :
    compile allocator text' = (compile allocator text).map (·.withMode text' other) := by
  rw [compile, compile, Format.parse_of_marker htext hmarker,
    Format.parse_of_marker htext' hmarker']
  cases hruns : Format.parseRuns none 1 tokens with
  | error e => rfl
  | ok runs =>
    have hsame : Field.ofRuns allocator other runs = Field.ofRuns allocator mode runs :=
      Field.ofRunsFrom_congr fun run _ code _ => TypeCode.size_congr hsizes code
    show (Field.ofRuns allocator other runs >>= _) =
      ((Field.ofRuns allocator mode runs >>= _).map _)
    rw [hsame]
    cases hfields : Field.ofRuns allocator mode runs with
    | error e => rfl
    | ok fields =>
      simp only [bind, Except.bind, find?_isStorable_eq_none hfields, Layout.compute,
        Layout.computeFrom_congr haligned]
      cases hlayout : Layout.computeFrom mode 0 fields with
      | error e => rfl
      | ok layout => rfl

end Schema

end BinaryRecord
