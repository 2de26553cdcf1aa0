import BinaryRecord.Proofs.Field.Image

/-!
# What runs expand to

`expansion` is the fields of a run whose type is known, and `ofRun_eq_ok_iff` says when there are
such fields. From the table of types, all of them are proper (`isProper_of_mem_ofRuns`), and as many
take an argument as the runs say (`countP_takesArgument_ofRuns`). The count of arguments is that
number as long as it is one of 64 bits (`countArguments_eq_min`).
-/

namespace BinaryRecord

/-! ## The table of types -/

namespace TypeCode

variable {c : Char} {code : TypeCode}

/-- A type that is found is in the table, and the character is its own. -/
theorem mem_all_of_find (h : find c = .ok code) : code ∈ all ∧ code.char = c := by
  unfold find at h
  split at h
  case h_1 found hfound =>
    obtain rfl := Except.ok.inj h
    exact ⟨List.mem_of_find?_eq_some hfound, by simpa using List.find?_some hfound⟩
  case h_2 => contradiction

/-- A type is found exactly when it is in the table and the character is its own. -/
theorem find_eq_ok_iff : find c = .ok code ↔ code ∈ all ∧ code.char = c := by
  -- No two types of the table have the same character.
  have htable : ∀ code ∈ all, find code.char = .ok code := by decide
  constructor
  · exact mem_all_of_find
  · rintro ⟨hcode, rfl⟩
    exact htable code hcode

/-- A character that belongs to no type of the table is refused. -/
theorem find_eq_error (h : ∀ code ∈ all, code.char ≠ c) : find c = .error (.unsupportedType c) := by
  have hnone : all.find? (·.char == c) = none := by simpa using h
  rw [find, hnone]

/-- The only strings are those of the character `s`. -/
theorem kind_eq_bytes_iff (h : code ∈ all) : code.kind = .bytes ↔ code.char = 's' := by
  have htable : all.all (fun code => decide (code.kind = .bytes ↔ code.char = 's')) = true := by
    decide
  simpa using List.all_eq_true.mp htable code h

/-- The only padding is that of the character `x`. -/
theorem kind_eq_pad_iff (h : code ∈ all) : code.kind = .pad ↔ code.char = 'x' := by
  have htable : all.all (fun code => decide (code.kind = .pad ↔ code.char = 'x')) = true := by
    decide
  simpa using List.all_eq_true.mp htable code h

/-- The unit of a string and of padding is a byte. -/
theorem size_eq_one (hcode : code ∈ all) (hsingle : code.kind = .bytes ∨ code.kind = .pad)
    (mode : Mode) : code.size mode = 1 := by
  have htable : ∀ code ∈ all, code.kind = .bytes ∨ code.kind = .pad →
      code.standardSize = 1 ∧ code.nativeSize = 1 := by
    decide
  obtain ⟨hstandard, hnative⟩ := htable code hcode hsingle
  rw [size, hstandard, hnative, ite_self]

/-- Every size is a part of eight bytes. -/
theorem size_dvd_eight (hcode : code ∈ all) (mode : Mode) : code.size mode ∣ 8 := by
  have htable : ∀ code ∈ all, code.standardSize ∣ 8 ∧ code.nativeSize ∣ 8 := by decide
  obtain ⟨hstandard, hnative⟩ := htable code hcode
  unfold size
  split
  · exact hnative
  · exact hstandard

/-- Every type has a form in units of both of its sizes. -/
theorem isStorable_of_mem_all (h : code ∈ all) (mode : Mode) (c : Char) (totalSize : Nat) :
    (Field.mk c code.kind (code.size mode) totalSize).isStorable = true := by
  have htable : all.all (fun code =>
      (Field.mk 'x' code.kind code.nativeSize 0).isStorable &&
        (Field.mk 'x' code.kind code.standardSize 0).isStorable) = true := by
    decide
  have hboth := Bool.and_eq_true_iff.mp (List.all_eq_true.mp htable code h)
  unfold size
  split
  · exact hboth.1
  · exact hboth.2

end TypeCode

namespace Field

variable {allocator : Allocator} {mode : Mode} {code : TypeCode} {run : Run} {runs : List Run}
  {fields : List Field} {held : Nat}

/-! ## One run -/

/-- The fields of a run whose type is the given one. -/
def expansion (mode : Mode) (code : TypeCode) (run : Run) : List Field :=
  match code.kind with
  | .bytes | .pad => [⟨run.typeChar, code.kind, code.size mode, code.size mode * run.count⟩]
  | kind => List.replicate run.count ⟨run.typeChar, kind, code.size mode, code.size mode⟩

/-- A run of a string or of padding is one field of its whole width. -/
theorem expansion_of_single (hkind : code.kind = .bytes ∨ code.kind = .pad) :
    expansion mode code run =
      [⟨run.typeChar, code.kind, code.size mode, code.size mode * run.count⟩] := by
  rcases hkind with hkind | hkind <;> simp [expansion, hkind]

/-- Any other run is a field for each repetition. -/
theorem expansion_of_repeated (hbytes : code.kind ≠ .bytes) (hpad : code.kind ≠ .pad) :
    expansion mode code run =
      List.replicate run.count ⟨run.typeChar, code.kind, code.size mode, code.size mode⟩ := by
  unfold expansion
  split
  · contradiction
  · contradiction
  · rfl

/-- A run has fields when its type is known, its bytes are not too many, and memory is granted for
the fields of a run that repeats. -/
theorem ofRun_eq_ok_iff : ofRun allocator mode held run = .ok fields ↔
    ∃ code, TypeCode.find run.typeChar = .ok code ∧ code.size mode * run.count ≤ Size.maxSize ∧
      (code.kind ≠ .bytes → code.kind ≠ .pad → allocator.grants held run.count = true) ∧
      expansion mode code run = fields := by
  unfold ofRun
  rw [bind_eq_ok_iff]
  apply exists_congr
  intro code
  apply and_congr_right
  intro _
  by_cases hsize : code.size mode * run.count ≤ Size.maxSize
  · -- The product fits, so that only the number of fields is left to check.
    have hproduct := Size.checkedMul_of_le hsize
    simp only [hproduct, hsize, true_and]
    by_cases hsingle : code.kind = .bytes ∨ code.kind = .pad
    · rw [expansion_of_single hsingle]
      rcases hsingle with hkind | hkind <;> simp [hkind, pure, Except.pure]
    · obtain ⟨hbytes, hpad⟩ := not_or.mp hsingle
      rw [expansion_of_repeated hbytes hpad]
      split
      · contradiction
      · contradiction
      · by_cases hgranted : allocator.grants held run.count = true
        · simp [hgranted, pure, Except.pure]
        · simp [hgranted, hbytes, hpad]
  · have hproduct := Size.checkedMul_of_lt (Nat.lt_of_not_le hsize)
    simp [hproduct, hsize]

/-- The fields of a run are proper. -/
theorem isProper_of_mem_expansion (hcode : code ∈ TypeCode.all) {field : Field}
    (h : field ∈ expansion mode code run) : field.IsProper := by
  by_cases hsingle : code.kind = .bytes ∨ code.kind = .pad
  · rw [expansion_of_single hsingle, List.mem_singleton] at h
    subst h
    refine ⟨TypeCode.isStorable_of_mem_all hcode mode _ _, fun hpad hbytes => ?_⟩
    exact absurd hsingle (not_or.mpr ⟨hbytes, hpad⟩)
  · obtain ⟨hbytes, hpad⟩ := not_or.mp hsingle
    rw [expansion_of_repeated hbytes hpad] at h
    obtain rfl := List.eq_of_mem_replicate h
    exact ⟨TypeCode.isStorable_of_mem_all hcode mode _ _, fun _ _ => rfl⟩

/-- The field is one of the run, whose type is the given one: it has the character of the run and
the kind and the unit size of the type. It is as wide as the whole run if it is a string or padding,
and else one unit wide. -/
structure IsOfType (mode : Mode) (code : TypeCode) (run : Run) (field : Field) : Prop where
  /-- The character is that of the run. -/
  typeChar_eq : field.typeChar = run.typeChar
  /-- The kind is that of the type. -/
  kind_eq : field.kind = code.kind
  /-- The unit is that of the type under the mode. -/
  unitSize_eq : field.unitSize = code.size mode
  /-- The field has as many units as there are in it. -/
  totalSize_eq : field.totalSize =
    code.size mode * if code.kind = .bytes ∨ code.kind = .pad then run.count else 1

/-- The fields of a run are of its type. -/
theorem isOfType_of_mem_expansion {field : Field} (h : field ∈ expansion mode code run) :
    field.IsOfType mode code run := by
  by_cases hsingle : code.kind = .bytes ∨ code.kind = .pad
  · rw [expansion_of_single hsingle, List.mem_singleton] at h
    subst h
    exact ⟨rfl, rfl, rfl, by rw [if_pos hsingle]⟩
  · obtain ⟨hbytes, hpad⟩ := not_or.mp hsingle
    rw [expansion_of_repeated hbytes hpad] at h
    obtain rfl := List.eq_of_mem_replicate h
    exact ⟨rfl, rfl, rfl, by rw [if_neg hsingle, Nat.mul_one]⟩

/-- As many fields of a run take an argument as the run says. -/
theorem countP_takesArgument_expansion (hcode : code ∈ TypeCode.all)
    (hchar : code.char = run.typeChar) :
    (expansion mode code run).countP (·.takesArgument) = run.argumentCount := by
  have hstring : run.isString = true ↔ code.kind = .bytes := by
    rw [TypeCode.kind_eq_bytes_iff hcode, hchar, Run.isString, beq_iff_eq]
  have hpadding : run.isPad = true ↔ code.kind = .pad := by
    rw [TypeCode.kind_eq_pad_iff hcode, hchar, Run.isPad, beq_iff_eq]
  rcases Classical.em (code.kind = .bytes) with hbytes | hbytes
  · -- A string takes one argument, whatever its width.
    rw [expansion_of_single (.inl hbytes), Run.argumentCount, if_pos (hstring.mpr hbytes)]
    simp [takesArgument, isPad, hbytes]
  · rw [Run.argumentCount, if_neg (hstring.not.mpr hbytes)]
    rcases Classical.em (code.kind = .pad) with hpad | hpad
    · -- Padding takes none.
      rw [expansion_of_single (.inr hpad), if_pos (hpadding.mpr hpad)]
      simp [takesArgument, isPad, hpad]
    · -- Any other run takes one for each of its fields.
      rw [expansion_of_repeated hbytes hpad, if_neg (hpadding.not.mpr hpad), List.countP_replicate]
      simp [takesArgument, isPad, hpad]

/-! ## All runs -/

/-- The fields of a run and of those that follow it. -/
theorem ofRunsFrom_cons_eq_ok_iff : ofRunsFrom allocator mode held (run :: runs) = .ok fields ↔
    ∃ first rest, ofRun allocator mode held run = .ok first ∧
      ofRunsFrom allocator mode (held + first.length) runs = .ok rest ∧
      first ++ rest = fields := by
  rw [ofRunsFrom, bind_eq_ok_iff]
  constructor
  · rintro ⟨first, hfirst, h⟩
    obtain ⟨rest, hrest, h⟩ := bind_eq_ok_iff.mp h
    exact ⟨first, rest, hfirst, hrest, Except.ok.inj h⟩
  · rintro ⟨first, rest, hfirst, hrest, h⟩
    exact ⟨first, hfirst, bind_eq_ok_iff.mpr ⟨rest, hrest, congrArg Except.ok h⟩⟩

/-- What holds of no runs, and of a run and those that follow it whenever it holds of these, holds
of all runs that have fields. -/
theorem ofRunsFrom_induction
    {motive : (held : Nat) → (runs : List Run) → (fields : List Field) →
      ofRunsFrom allocator mode held runs = .ok fields → Prop}
    (nil : ∀ held, motive held [] [] rfl)
    (cons : ∀ held run runs code rest (_ : TypeCode.find run.typeChar = .ok code)
      (hrest : ofRunsFrom allocator mode (held + (expansion mode code run).length) runs = .ok rest)
      (h : ofRunsFrom allocator mode held (run :: runs) = .ok (expansion mode code run ++ rest)),
      motive _ runs rest hrest → motive held (run :: runs) (expansion mode code run ++ rest) h)
    (held : Nat) (runs : List Run) (fields : List Field)
    (h : ofRunsFrom allocator mode held runs = .ok fields) : motive held runs fields h := by
  induction runs generalizing held fields with
  | nil =>
    obtain rfl := Except.ok.inj h
    exact nil held
  | cons run runs ih =>
    obtain ⟨first, rest, hfirst, hrest, rfl⟩ := ofRunsFrom_cons_eq_ok_iff.mp h
    obtain ⟨code, hfind, -, -, rfl⟩ := ofRun_eq_ok_iff.mp hfirst
    exact cons held run runs code rest hfind hrest h (ih _ rest hrest)

/-- Every field of a record is one of those of a run. -/
theorem exists_mem_expansion_of_mem_ofRuns (h : ofRunsFrom allocator mode held runs = .ok fields)
    {field : Field} (hfield : field ∈ fields) : ∃ run ∈ runs, ∃ code,
      TypeCode.find run.typeChar = .ok code ∧ field ∈ expansion mode code run := by
  induction held, runs, fields, h using ofRunsFrom_induction with
  | nil held => exact absurd hfield List.not_mem_nil
  | cons held run runs code rest hfind hrest h ih =>
    rcases List.mem_append.mp hfield with hmem | hmem
    · exact ⟨run, List.mem_cons_self, code, hfind, hmem⟩
    · obtain ⟨other, hother, hexpansion⟩ := ih hmem
      exact ⟨other, List.mem_cons_of_mem _ hother, hexpansion⟩

/-- The fields of a record are proper. -/
theorem isProper_of_mem_ofRuns (h : ofRunsFrom allocator mode held runs = .ok fields)
    {field : Field} (hfield : field ∈ fields) : field.IsProper := by
  obtain ⟨run, -, code, hfind, hmem⟩ := exists_mem_expansion_of_mem_ofRuns h hfield
  exact isProper_of_mem_expansion (TypeCode.mem_all_of_find hfind).1 hmem

/-- Every field of a record is of the type of one of its runs. -/
theorem exists_isOfType_of_mem_ofRuns (h : ofRunsFrom allocator mode held runs = .ok fields)
    {field : Field} (hfield : field ∈ fields) : ∃ run ∈ runs, ∃ code,
      TypeCode.find run.typeChar = .ok code ∧ field.IsOfType mode code run := by
  obtain ⟨run, hrun, code, hfind, hmem⟩ := exists_mem_expansion_of_mem_ofRuns h hfield
  exact ⟨run, hrun, code, hfind, isOfType_of_mem_expansion hmem⟩

/-- As many fields of a record take an argument as its runs say. -/
theorem countP_takesArgument_ofRuns (h : ofRunsFrom allocator mode held runs = .ok fields) :
    fields.countP (·.takesArgument) = (runs.map (·.argumentCount)).sum := by
  induction held, runs, fields, h using ofRunsFrom_induction with
  | nil held => rfl
  | cons held run runs code rest hfind hrest h ih =>
    obtain ⟨hcode, hchar⟩ := TypeCode.mem_all_of_find hfind
    rw [List.countP_append, countP_takesArgument_expansion hcode hchar, ih, List.map_cons,
      List.sum_cons]

/-- Two lists of runs are expanded one after the other. -/
theorem ofRunsFrom_append (allocator : Allocator) (mode : Mode) (held : Nat)
    (runs others : List Run) : ofRunsFrom allocator mode held (runs ++ others) = (do
      let first ← ofRunsFrom allocator mode held runs
      let second ← ofRunsFrom allocator mode (held + first.length) others
      return first ++ second) := by
  induction runs generalizing held with
  | nil =>
    rw [List.nil_append, ofRunsFrom]
    simp only [bind, Except.bind, List.length_nil, Nat.add_zero]
    cases ofRunsFrom allocator mode held others <;> rfl
  | cons run runs ih =>
    rw [List.cons_append, ofRunsFrom, ofRunsFrom]
    cases ofRun allocator mode held run with
    | error e => rfl
    | ok own =>
      simp only [bind, Except.bind, ih]
      cases ofRunsFrom allocator mode (held + own.length) runs with
      | error e => rfl
      | ok first =>
        simp only [pure, Except.pure, List.length_append, Nat.add_assoc]
        cases ofRunsFrom allocator mode (held + (own.length + first.length)) others with
        | error e => rfl
        | ok second => exact congrArg Except.ok (List.append_assoc own first second).symm

/-- The fields of two lists of runs are those of the one and then those of the other. -/
theorem ofRunsFrom_append_eq_ok_iff {runs others : List Run} :
    ofRunsFrom allocator mode held (runs ++ others) = .ok fields ↔
      ∃ first second, ofRunsFrom allocator mode held runs = .ok first ∧
        ofRunsFrom allocator mode (held + first.length) others = .ok second ∧
        first ++ second = fields := by
  rw [ofRunsFrom_append, bind_eq_ok_iff]
  constructor
  · rintro ⟨first, hfirst, h⟩
    obtain ⟨second, hsecond, h⟩ := bind_eq_ok_iff.mp h
    exact ⟨first, second, hfirst, hsecond, Except.ok.inj h⟩
  · rintro ⟨first, second, hfirst, hsecond, rfl⟩
    exact ⟨first, hfirst, bind_eq_ok_iff.mpr ⟨second, hsecond, rfl⟩⟩

/-- Where nothing depends on the fields that are held, runs have the same fields behind any of them.
-/
theorem ofRunsFrom_of_ignoresHeld (hallocator : allocator.IgnoresHeld) (mode : Mode)
    (held other : Nat) (runs : List Run) :
    ofRunsFrom allocator mode held runs = ofRunsFrom allocator mode other runs := by
  induction runs generalizing held other with
  | nil => rfl
  | cons run runs ih =>
    have hrun : ofRun allocator mode held run = ofRun allocator mode other run := by
      simp only [ofRun, hallocator held other]
    rw [ofRunsFrom, ofRunsFrom, hrun]
    cases ofRun allocator mode other run with
    | error e => rfl
    | ok fields => simp only [bind, Except.bind, ih (held + fields.length) (other + fields.length)]

/-- Where a shorter list is granted what a longer one is, runs that have fields behind some fields
have them behind fewer. -/
theorem ofRunsFrom_of_favorsShorter (hallocator : allocator.FavorsShorter) {more : Nat}
    (h : ofRunsFrom allocator mode (held + more) runs = .ok fields) :
    ofRunsFrom allocator mode held runs = .ok fields := by
  induction runs generalizing held fields with
  | nil => exact h
  | cons run runs ih =>
    obtain ⟨first, rest, hfirst, hrest, rfl⟩ := ofRunsFrom_cons_eq_ok_iff.mp h
    obtain ⟨code, hfind, hsize, hgranted, hfields⟩ := ofRun_eq_ok_iff.mp hfirst
    have hfewer : ofRun allocator mode held run = .ok first :=
      ofRun_eq_ok_iff.mpr ⟨code, hfind, hsize,
        fun hbytes hpad => hallocator _ _ _ (hgranted hbytes hpad), hfields⟩
    rw [Nat.add_right_comm] at hrest
    exact ofRunsFrom_cons_eq_ok_iff.mpr ⟨first, rest, hfewer, ih hrest, rfl⟩

/-- Every unit is a part of eight bytes. -/
theorem unitSize_dvd_of_mem_ofRuns (h : ofRunsFrom allocator mode held runs = .ok fields)
    {field : Field} (hfield : field ∈ fields) : field.unitSize ∣ 8 := by
  obtain ⟨run, -, code, hfind, htype⟩ := exists_isOfType_of_mem_ofRuns h hfield
  rw [htype.unitSize_eq]
  exact TypeCode.size_dvd_eight (TypeCode.mem_all_of_find hfind).1 mode

end Field

namespace Run

/-- The count of arguments goes on from the arguments before. -/
theorem foldl_saturatingAdd (runs : List Run) {total : Nat} (htotal : total ≤ Size.maxSize) :
    runs.foldl (fun total run => Size.saturatingAdd total run.argumentCount) total =
      min (total + (runs.map (·.argumentCount)).sum) Size.maxSize := by
  induction runs generalizing total with
  | nil => simp [htotal]
  | cons run runs ih =>
    -- A sum that has stopped at the largest size stays there.
    have hnext : Size.saturatingAdd total run.argumentCount ≤ Size.maxSize := Nat.min_le_right _ _
    rw [List.foldl_cons, ih hnext, List.map_cons, List.sum_cons, Size.saturatingAdd]
    omega

/-- The count of arguments is their number, or the largest size if there are more. -/
theorem countArguments_eq_min (runs : List Run) :
    countArguments runs = min (runs.map (·.argumentCount)).sum Size.maxSize := by
  rw [countArguments, foldl_saturatingAdd runs (Nat.zero_le _), Nat.zero_add]

end Run

end BinaryRecord
