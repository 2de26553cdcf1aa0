import BinaryRecord.Proofs.Field.Runs
import BinaryRecord.Proofs.Format.Parse
import BinaryRecord.Proofs.Layout.Exact
import BinaryRecord.Proofs.Schema.Agreement

/-!
# Why formats are refused

A format is refused at the first of three steps that fails. The parser comes first. Then the runs
are expanded, and the first of them that is refused decides (`IsFirstRefusal`): its character
belongs to no type, or it is a run of numbers whose bytes are too many or for whose fields, behind
those of the runs before, no memory is granted. Strings and padding are never refused there. They
count last, when the fields are laid out and the exact size of the record does not fit.

`Outcome` puts these together. `outcome_iff` says that it is what becomes of a format, both when its
size is computed and when it is compiled, whatever memory the allocator grants.
-/

namespace BinaryRecord

namespace Field

variable {allocator : Allocator} {mode : Mode} {held : Nat} {run : Run} {runs : List Run}
  {fields : List Field} {code : TypeCode} {e : FormatError}

/-! ## Runs -/

/-- There are no fields for the run behind `held` fields, for the reason that the error gives. Its
character belongs to no type, or each of its repetitions is a field of its own and either their
bytes are too many or no memory is granted for the fields. -/
inductive IsRefused (allocator : Allocator) (mode : Mode) (held : Nat) (run : Run) :
    FormatError → Prop
  | unsupportedType (hnone : ∀ code ∈ TypeCode.all, code.char ≠ run.typeChar) :
      IsRefused allocator mode held run (.unsupportedType run.typeChar)
  | sizeOverflow {code : TypeCode} (hcode : code ∈ TypeCode.all)
      (hchar : code.char = run.typeChar) (hbytes : code.kind ≠ .bytes) (hpad : code.kind ≠ .pad)
      (hlarge : Size.maxSize < code.size mode * run.count ∨
        allocator.grants held run.count = false) :
      IsRefused allocator mode held run .sizeOverflow

/-- A run of `2^60` numbers or more is refused. -/
theorem isRefused_of_huge (hcode : code ∈ TypeCode.all) (hchar : code.char = run.typeChar)
    (hsingle : run.isSingle = false) (hhuge : 2^60 ≤ run.count) :
    IsRefused allocator mode held run .sizeOverflow := by
  have hkind : ¬ (code.kind = .bytes ∨ code.kind = .pad) :=
    (isSingle_iff hcode hchar).not.mp (Bool.eq_false_iff.mp hsingle)
  obtain ⟨hbytes, hpad⟩ := not_or.mp hkind
  exact .sizeOverflow hcode hchar hbytes hpad (.inr (allocator.grants_of_huge held _ hhuge))

/-- A string and padding are not refused, whatever their count. -/
theorem not_isRefused_of_isSingle (hsingle : run.isSingle = true) :
    ¬ IsRefused allocator mode held run e := by
  intro h
  cases h with
  | unsupportedType hnone =>
    -- The characters of both are in the table.
    rcases Bool.or_eq_true_iff.mp hsingle with hstring | hpad
    · exact hnone ⟨'s', 1, 1, .bytes⟩ (by decide) (beq_iff_eq.mp hstring).symm
    · exact hnone ⟨'x', 1, 1, .pad⟩ (by decide) (beq_iff_eq.mp hpad).symm
  | sizeOverflow hcode hchar hbytes hpad =>
    exact absurd ((isSingle_iff hcode hchar).mp hsingle) (not_or.mpr ⟨hbytes, hpad⟩)

/-- A run that is refused has that error. -/
theorem IsRefused.ofRun_eq (h : IsRefused allocator mode held run e) :
    ofRun allocator mode held run = .error e := by
  cases h with
  | unsupportedType hnone =>
    rw [ofRun, TypeCode.find_eq_error hnone]
    rfl
  | @sizeOverflow code hcode hchar hbytes hpad hlarge =>
    rw [ofRun, TypeCode.find_eq_ok_iff.mpr ⟨hcode, hchar⟩]
    by_cases hproduct : code.size mode * run.count ≤ Size.maxSize
    · have hgranted := hlarge.resolve_left (Nat.not_lt_of_le hproduct)
      simp [bind, Except.bind, Size.checkedMul_of_le hproduct, hgranted]
    · simp [bind, Except.bind, Size.checkedMul_of_lt (Nat.lt_of_not_le hproduct)]

/-- A run that is not refused expands to the fields of its type. Its count is one of 64 bits, which
is why a string or padding, of units of a byte, is never too large. -/
theorem exists_ofRun_eq (hcount : run.count ≤ Size.maxSize)
    (h : ∀ e, ¬ IsRefused allocator mode held run e) :
    ∃ code ∈ TypeCode.all, code.char = run.typeChar ∧
      ofRun allocator mode held run = .ok (expansion mode code run) := by
  have hsome : ∃ code ∈ TypeCode.all, code.char = run.typeChar := by
    by_contra hnone
    exact h _ (.unsupportedType (by simpa using hnone))
  obtain ⟨code, hcode, hchar⟩ := hsome
  refine ⟨code, hcode, hchar, ofRun_eq_ok_iff.mpr
    ⟨code, TypeCode.find_eq_ok_iff.mpr ⟨hcode, hchar⟩, ?_⟩⟩
  by_cases hsingle : code.kind = .bytes ∨ code.kind = .pad
  · rw [TypeCode.size_eq_one hcode hsingle, Nat.one_mul]
    exact ⟨hcount, fun hbytes hpad => absurd hsingle (not_or.mpr ⟨hbytes, hpad⟩), rfl⟩
  · obtain ⟨hbytes, hpad⟩ := not_or.mp hsingle
    have hsmall : ¬ (Size.maxSize < code.size mode * run.count ∨
        allocator.grants held run.count = false) :=
      fun hlarge => h _ (.sizeOverflow hcode hchar hbytes hpad hlarge)
    obtain ⟨hproduct, hgranted⟩ := not_or.mp hsmall
    exact ⟨Nat.not_lt.mp hproduct, fun _ _ => Bool.eq_true_of_not_eq_false hgranted, rfl⟩

/-- The first of the runs that is refused, where they follow `held` fields, is refused for the
reason that the error gives. -/
inductive IsFirstRefusal (allocator : Allocator) (mode : Mode) :
    Nat → List Run → FormatError → Prop
  | first {held : Nat} {run : Run} {runs : List Run} {e : FormatError}
      (hrun : IsRefused allocator mode held run e) :
      IsFirstRefusal allocator mode held (run :: runs) e
  | later {held : Nat} {run : Run} {runs : List Run} {e : FormatError}
      (hrun : ∀ e, ¬ IsRefused allocator mode held run e)
      (hrest : IsFirstRefusal allocator mode (held + run.fieldCount) runs e) :
      IsFirstRefusal allocator mode held (run :: runs) e

/-- None of the runs is refused, where they follow `held` fields, and the fields are those that they
expand to, one run after the other. -/
inductive IsExpansion (allocator : Allocator) (mode : Mode) : Nat → List Run → List Field → Prop
  | nil {held : Nat} : IsExpansion allocator mode held [] []
  | cons {held : Nat} {run : Run} {runs : List Run} {code : TypeCode} {fields : List Field}
      (hrun : ∀ e, ¬ IsRefused allocator mode held run e) (hcode : code ∈ TypeCode.all)
      (hchar : code.char = run.typeChar)
      (hrest : IsExpansion allocator mode (held + run.fieldCount) runs fields) :
      IsExpansion allocator mode held (run :: runs) (expansion mode code run ++ fields)

/-- A run that is not refused has the fields of its type, and then come those of the runs behind it.
-/
theorem ofRunsFrom_cons_eq (hcode : code ∈ TypeCode.all) (hchar : code.char = run.typeChar)
    (hrun : ofRun allocator mode held run = .ok (expansion mode code run)) (runs : List Run) :
    ofRunsFrom allocator mode held (run :: runs) =
      (ofRunsFrom allocator mode (held + run.fieldCount) runs).map
        (expansion mode code run ++ ·) := by
  rw [ofRunsFrom, hrun, ← length_expansion hcode hchar]
  rfl

/-- The first refusal is the error of the runs. -/
theorem IsFirstRefusal.ofRunsFrom_eq (h : IsFirstRefusal allocator mode held runs e)
    (hcounts : ∀ run ∈ runs, run.count ≤ Size.maxSize) :
    ofRunsFrom allocator mode held runs = .error e := by
  induction h with
  | first hrun =>
    rw [ofRunsFrom, hrun.ofRun_eq]
    rfl
  | @later held run runs e hrun hrest ih =>
    obtain ⟨hcount, hcounts⟩ := List.forall_mem_cons.mp hcounts
    obtain ⟨code, hcode, hchar, hok⟩ := exists_ofRun_eq hcount hrun
    rw [ofRunsFrom_cons_eq hcode hchar hok, ih hcounts]
    rfl

/-- Runs of which none is refused have the fields that they expand to. -/
theorem IsExpansion.ofRunsFrom_eq (h : IsExpansion allocator mode held runs fields)
    (hcounts : ∀ run ∈ runs, run.count ≤ Size.maxSize) :
    ofRunsFrom allocator mode held runs = .ok fields := by
  induction h with
  | nil => rfl
  | @cons held run runs code fields hrun hcode hchar _ ih =>
    obtain ⟨hcount, hcounts⟩ := List.forall_mem_cons.mp hcounts
    obtain ⟨found, hfound, hfoundChar, hok⟩ := exists_ofRun_eq hcount hrun
    -- The type that the run has in the table is the only one with its character.
    obtain rfl : found = code := by
      have hfind := TypeCode.find_eq_ok_iff.mpr ⟨hcode, hchar⟩
      rw [TypeCode.find_eq_ok_iff.mpr ⟨hfound, hfoundChar⟩] at hfind
      exact Except.ok.inj hfind
    rw [ofRunsFrom_cons_eq hcode hchar hok, ih hcounts]
    rfl

/-- Either one of the runs is the first to be refused, or none is and they expand to fields. -/
theorem exists_isFirstRefusal_or_isExpansion (allocator : Allocator) (mode : Mode) (held : Nat)
    (hcounts : ∀ run ∈ runs, run.count ≤ Size.maxSize) :
    (∃ e, IsFirstRefusal allocator mode held runs e) ∨
      ∃ fields, IsExpansion allocator mode held runs fields := by
  induction runs generalizing held with
  | nil => exact .inr ⟨[], .nil⟩
  | cons run runs ih =>
    obtain ⟨hcount, hcounts⟩ := List.forall_mem_cons.mp hcounts
    by_cases hrun : ∃ e, IsRefused allocator mode held run e
    · obtain ⟨e, hrun⟩ := hrun
      exact .inl ⟨e, .first hrun⟩
    · have hnot := not_exists.mp hrun
      obtain ⟨code, hcode, hchar, -⟩ := exists_ofRun_eq hcount hnot
      rcases ih (held + run.fieldCount) hcounts with ⟨e, hfirst⟩ | ⟨fields, hfields⟩
      · exact .inl ⟨e, .later hnot hfirst⟩
      · exact .inr ⟨_, .cons hnot hcode hchar hfields⟩

end Field

/-- The counts of a format are of 64 bits. -/
theorem Format.count_le_of_parse {text : String} {format : Format}
    (h : Format.parse text = .ok format) : ∀ run ∈ format.runs, run.count ≤ Size.maxSize := by
  obtain ⟨spelling, -, rfl⟩ := Format.exists_spelling_of_parse h
  intro run hrun
  obtain ⟨token, -, rfl⟩ := List.mem_map.mp hrun
  show (if token.digits = [] then 1 else Format.decimalValue token.digits) ≤ Size.maxSize
  split
  · decide
  · exact token.decimalValue_le

namespace Schema

open Layout (IsPlacement isPlacement_iff sizeOfFormat)

variable {allocator : Allocator} {text : String} {outcome : Except FormatError Nat}

/-! ## Formats -/

/-- What becomes of a format: its error or the size of its records. -/
inductive Outcome (allocator : Allocator) (text : String) : Except FormatError Nat → Prop
  /-- The text is no format. -/
  | unreadable {e : FormatError} (hparse : Format.parse text = .error e) :
      Outcome allocator text (.error e)
  /-- A run has no fields. -/
  | refused {format : Format} {e : FormatError} (hparse : Format.parse text = .ok format)
      (hfirst : Field.IsFirstRefusal allocator format.mode 0 format.runs e) :
      Outcome allocator text (.error e)
  /-- There are fields for all runs, and the exact layout of them is too large. -/
  | tooLarge {format : Format} {fields : List Field} {layout : Layout}
      (hparse : Format.parse text = .ok format)
      (hfields : Field.IsExpansion allocator format.mode 0 format.runs fields)
      (hlayout : IsPlacement format.mode 0 fields layout)
      (hlarge : Size.maxSize < layout.size) : Outcome allocator text (.error .sizeOverflow)
  /-- There are fields for all runs, and the exact layout of them fits. -/
  | sized {format : Format} {fields : List Field} {layout : Layout}
      (hparse : Format.parse text = .ok format)
      (hfields : Field.IsExpansion allocator format.mode 0 format.runs fields)
      (hlayout : IsPlacement format.mode 0 fields layout)
      (hfits : layout.size ≤ Size.maxSize) : Outcome allocator text (.ok layout.size)

/-- What becomes of a format is what computing its size comes to. -/
theorem Outcome.sizeOfFormat_eq (h : Outcome allocator text outcome) :
    sizeOfFormat allocator text = outcome := by
  cases h with
  | unreadable hparse => exact bind_eq_error_iff.mpr (.inl hparse)
  | @refused format e hparse hfirst =>
    have hruns := hfirst.ofRunsFrom_eq (Format.count_le_of_parse hparse)
    exact bind_eq_error_iff.mpr (.inr ⟨format, hparse, bind_eq_error_iff.mpr (.inl hruns)⟩)
  | @tooLarge format fields layout hparse hfields hlayout hlarge =>
    have hruns := hfields.ofRunsFrom_eq (Format.count_le_of_parse hparse)
    have hcompute : Layout.compute format.mode fields = .error .sizeOverflow := by
      rw [Layout.compute, Layout.computeFrom_eq (Nat.zero_le _), ← isPlacement_iff.mp hlayout,
        if_neg (Nat.not_le.mpr hlarge)]
    exact bind_eq_error_iff.mpr (.inr ⟨format, hparse, bind_eq_error_iff.mpr
      (.inr ⟨fields, hruns, bind_eq_error_iff.mpr (.inl hcompute)⟩)⟩)
  | @sized format fields layout hparse hfields hlayout hfits =>
    have hruns := hfields.ofRunsFrom_eq (Format.count_le_of_parse hparse)
    have hcompute : Layout.compute format.mode fields = .ok layout := by
      rw [Layout.compute, Layout.computeFrom_eq (Nat.zero_le _), ← isPlacement_iff.mp hlayout,
        if_pos hfits]
    exact bind_eq_ok_iff.mpr ⟨format, hparse, bind_eq_ok_iff.mpr ⟨fields, hruns,
      bind_eq_ok_iff.mpr ⟨layout, hcompute, rfl⟩⟩⟩

/-- Something becomes of every format. -/
theorem exists_outcome (allocator : Allocator) (text : String) :
    ∃ outcome, Outcome allocator text outcome := by
  cases hparse : Format.parse text with
  | error e => exact ⟨_, .unreadable hparse⟩
  | ok format =>
    have hcounts := Format.count_le_of_parse hparse
    rcases Field.exists_isFirstRefusal_or_isExpansion allocator format.mode 0 hcounts with
      ⟨e, hfirst⟩ | ⟨fields, hfields⟩
    · exact ⟨_, .refused hparse hfirst⟩
    · have hlayout : IsPlacement format.mode 0 fields _ := isPlacement_iff.mpr rfl
      rcases Nat.lt_or_ge Size.maxSize (Layout.placement format.mode 0 fields).size with
        hlarge | hfits
      · exact ⟨_, .tooLarge hparse hfields hlayout hlarge⟩
      · exact ⟨_, .sized hparse hfields hlayout hfits⟩

/-- A format has the size of its schema, and the errors of both are the same. -/
theorem map_size_compile (allocator : Allocator) (text : String) :
    (compile allocator text).map size = sizeOfFormat allocator text := by
  cases hcompile : compile allocator text with
  | error e => exact (sizeOfFormat_of_compile_error hcompile).symm
  | ok schema => exact (sizeOfFormat_of_compile hcompile).symm

/-- Computing the size of a format and compiling it come to the one outcome of the text. The error
is that of the parser, else that of the first run that is refused, else that of a size which does
not fit. Runs of `2^60` numbers or more are always refused, and strings and padding never are. -/
theorem outcome_iff (allocator : Allocator) (text : String) :
    (∀ outcome, sizeOfFormat allocator text = outcome ↔ Outcome allocator text outcome) ∧
    (∀ outcome, (compile allocator text).map size = outcome ↔ Outcome allocator text outcome) ∧
    (∀ mode held (run : Run), ∀ code ∈ TypeCode.all, code.char = run.typeChar →
      run.isSingle = false → 2^60 ≤ run.count →
        Field.IsRefused allocator mode held run .sizeOverflow) ∧
    ∀ mode held (run : Run) e, run.isSingle = true →
      ¬ Field.IsRefused allocator mode held run e := by
  have hsize : ∀ outcome, sizeOfFormat allocator text = outcome ↔
      Outcome allocator text outcome := by
    refine fun outcome => ⟨?_, Outcome.sizeOfFormat_eq⟩
    rintro rfl
    obtain ⟨outcome, houtcome⟩ := exists_outcome allocator text
    rwa [houtcome.sizeOfFormat_eq]
  refine ⟨hsize, fun outcome => ?_, fun mode held run code => Field.isRefused_of_huge,
    fun mode held run e => Field.not_isRefused_of_isSingle⟩
  rw [map_size_compile]
  exact hsize outcome

/-- Strings that are too long together are noticed behind a character without a type, and a run of
numbers that is too long in front of it. -/
example : sizeOfFormat .generous "18446744073709551615s1sn" = .error (.unsupportedType 'n') ∧
    sizeOfFormat .generous "18446744073709551615s1s" = .error .sizeOverflow ∧
    sizeOfFormat .generous "1152921504606846976Bn" = .error .sizeOverflow ∧
    sizeOfFormat .generous "nB2" = .error (.missingTypeChar 2) := by
  decide +kernel

end Schema

end BinaryRecord
