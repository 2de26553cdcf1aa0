import BinaryRecord.Proofs.Field.Expansion

/-!
# Runs and their fields

Runs become fields one after the other, and what a run becomes depends on it alone (`HasFields`).
`ExpandsRunwise` says what follows for the fields of all runs: how many they are, how many bytes
they have together, and what becomes of lists of runs that are put together. The fields of these are
put together, too, unless there is an error in one of the lists, and then the first such error is
that of the whole; for this, the memory that is granted must not depend on the fields that are
there. This holds in every mode (`expandsRunwise`), whatever the characters and the counts are, and
however large the sums are.
-/

namespace BinaryRecord

/-- Whether the run is a single field, whatever its count. -/
def Run.isSingle (run : Run) : Bool :=
  run.isString || run.isPad

/-- The number of fields of the run. -/
def Run.fieldCount (run : Run) : Nat :=
  if run.isSingle then 1 else run.count

namespace Field

variable {allocator : Allocator} {mode : Mode} {code : TypeCode} {run : Run} {runs : List Run}
  {fields : List Field} {held : Nat} {parts : List (List Run)} {e : FormatError}

/-! ## One run -/

/-- The fields of a run. A string and padding are one field each, as wide as the count says and
empty where that is zero. Any other run is as many fields as the count says, each one unit of its
type. -/
inductive HasFields (mode : Mode) (run : Run) : List Field → Prop
  | string (hstring : run.isString = true) : HasFields mode run [⟨'s', .bytes, 1, run.count⟩]
  | pad (hpad : run.isPad = true) : HasFields mode run [⟨'x', .pad, 1, run.count⟩]
  | repeated {code : TypeCode} (hfind : TypeCode.find run.typeChar = .ok code)
      (hsingle : run.isSingle = false) : HasFields mode run
        (List.replicate run.count ⟨run.typeChar, code.kind, code.size mode, code.size mode⟩)

/-- A run of a type is a single field when the type is that of strings or of padding. -/
theorem isSingle_iff (hcode : code ∈ TypeCode.all) (hchar : code.char = run.typeChar) :
    run.isSingle = true ↔ code.kind = .bytes ∨ code.kind = .pad := by
  rw [TypeCode.kind_eq_bytes_iff hcode, TypeCode.kind_eq_pad_iff hcode, hchar, Run.isSingle,
    Bool.or_eq_true, Run.isString, Run.isPad, beq_iff_eq, beq_iff_eq]

/-- What a run expands to are its fields. -/
theorem hasFields_expansion (hfind : TypeCode.find run.typeChar = .ok code) :
    HasFields mode run (expansion mode code run) := by
  obtain ⟨hcode, hchar⟩ := TypeCode.find_eq_ok_iff.mp hfind
  by_cases hsingle : code.kind = .bytes ∨ code.kind = .pad
  · rw [expansion_of_single hsingle, TypeCode.size_eq_one hcode hsingle, Nat.one_mul, ← hchar]
    rcases hsingle with hkind | hkind
    · have hown := (TypeCode.kind_eq_bytes_iff hcode).mp hkind
      rw [hkind, hown]
      exact .string (by rw [Run.isString, ← hchar, hown, beq_self_eq_true])
    · have hown := (TypeCode.kind_eq_pad_iff hcode).mp hkind
      rw [hkind, hown]
      exact .pad (by rw [Run.isPad, ← hchar, hown, beq_self_eq_true])
  · obtain ⟨hbytes, hpad⟩ := not_or.mp hsingle
    rw [expansion_of_repeated hbytes hpad]
    exact .repeated hfind (Bool.eq_false_iff.mpr ((isSingle_iff hcode hchar).not.mpr hsingle))

/-- The bytes of a run are as many units of its type as its count says. -/
theorem sum_totalSize_expansion :
    ((expansion mode code run).map (·.totalSize)).sum = code.size mode * run.count := by
  by_cases hsingle : code.kind = .bytes ∨ code.kind = .pad
  · rw [expansion_of_single hsingle, List.map_singleton, List.sum_singleton]
  · obtain ⟨hbytes, hpad⟩ := not_or.mp hsingle
    rw [expansion_of_repeated hbytes hpad, List.map_replicate, List.sum_replicate, smul_eq_mul,
      Nat.mul_comm]

/-- A run is one field or as many as its count says. -/
theorem length_expansion (hcode : code ∈ TypeCode.all) (hchar : code.char = run.typeChar) :
    (expansion mode code run).length = run.fieldCount := by
  have hiff := isSingle_iff hcode hchar
  unfold Run.fieldCount
  by_cases hsingle : code.kind = .bytes ∨ code.kind = .pad
  · rw [expansion_of_single hsingle, if_pos (hiff.mpr hsingle), List.length_singleton]
  · obtain ⟨hbytes, hpad⟩ := not_or.mp hsingle
    rw [expansion_of_repeated hbytes hpad, if_neg (hiff.not.mpr hsingle), List.length_replicate]

/-! ## Runs put together -/

/-- The fields of runs are those of each of them, put together. -/
theorem exists_hasFields (h : ofRunsFrom allocator mode held runs = .ok fields) :
    ∃ images, List.Forall₂ (HasFields mode) runs images ∧ images.flatten = fields := by
  induction held, runs, fields, h using ofRunsFrom_induction with
  | nil held => exact ⟨[], .nil, rfl⟩
  | cons held run runs code rest hfind hrest h ih =>
    obtain ⟨images, himages, rfl⟩ := ih
    exact ⟨_, .cons (hasFields_expansion hfind) himages, rfl⟩

/-- The bytes of the fields of runs are the units of each run, as often as its count says. -/
theorem exists_sizes (h : ofRunsFrom allocator mode held runs = .ok fields) : ∃ sizes,
    List.Forall₂ (fun run size => TypeCode.representedSize run.typeChar mode = .ok size)
      runs sizes ∧
    (fields.map (·.totalSize)).sum =
      (List.zipWith (fun run size => size * run.count) runs sizes).sum := by
  induction held, runs, fields, h using ofRunsFrom_induction with
  | nil held => exact ⟨[], .nil, rfl⟩
  | cons held run runs code rest hfind hrest h ih =>
    obtain ⟨sizes, hsizes, hsum⟩ := ih
    refine ⟨code.size mode :: sizes, .cons ?_ hsizes, ?_⟩
    · rw [TypeCode.representedSize, hfind]
      rfl
    · rw [List.map_append, List.sum_append, sum_totalSize_expansion, hsum, List.zipWith_cons_cons,
        List.sum_cons]

/-- There is a field for each string and each padding, and for the others one for each
repetition. -/
theorem length_of_ofRuns (h : ofRunsFrom allocator mode held runs = .ok fields) :
    fields.length = runs.countP (·.isSingle) +
      ((runs.filter (!·.isSingle)).map (·.count)).sum := by
  induction held, runs, fields, h using ofRunsFrom_induction with
  | nil held => rfl
  | cons held run runs code rest hfind hrest h ih =>
    obtain ⟨hcode, hchar⟩ := TypeCode.mem_all_of_find hfind
    rw [List.length_append, length_expansion hcode hchar, ih, List.countP_cons,
      List.filter_cons, Run.fieldCount]
    cases run.isSingle with
    | true => simp; omega
    | false => simp; omega

/-- Where nothing depends on the fields that are held, two lists of runs are expanded each by
itself.
-/
theorem ofRuns_append (hallocator : allocator.IgnoresHeld) (mode : Mode) (runs others : List Run) :
    ofRuns allocator mode (runs ++ others) = (do
      let first ← ofRuns allocator mode runs
      let second ← ofRuns allocator mode others
      return first ++ second) := by
  rw [ofRuns, ofRunsFrom_append]
  simp only [ofRunsFrom_of_ignoresHeld hallocator mode _ 0, ofRuns]

/-- The fields of lists of runs are those of each of them, put together. -/
theorem ofRuns_flatten_eq_ok_iff (hallocator : allocator.IgnoresHeld) :
    ofRuns allocator mode parts.flatten = .ok fields ↔
      ∃ images, List.Forall₂ (fun part own => ofRuns allocator mode part = .ok own) parts images ∧
        images.flatten = fields := by
  induction parts generalizing fields with
  | nil =>
    constructor
    · exact fun h => ⟨[], .nil, Except.ok.inj h⟩
    · rintro ⟨images, himages, rfl⟩
      cases himages
      rfl
  | cons part parts ih =>
    rw [List.flatten_cons, ofRuns_append hallocator, bind_eq_ok_iff]
    constructor
    · rintro ⟨first, hfirst, h⟩
      obtain ⟨second, hsecond, h⟩ := bind_eq_ok_iff.mp h
      obtain ⟨images, himages, rfl⟩ := ih.mp hsecond
      exact ⟨first :: images, .cons hfirst himages, Except.ok.inj h⟩
    · rintro ⟨images, himages, rfl⟩
      cases himages with
      | cons hfirst himages =>
        exact ⟨_, hfirst, bind_eq_ok_iff.mpr ⟨_, ih.mpr ⟨_, himages, rfl⟩, rfl⟩⟩

/-- The first of the lists of runs that has no fields has this error. -/
def IsFirstError (allocator : Allocator) (mode : Mode) (parts : List (List Run))
    (e : FormatError) : Prop :=
  ∃ before part after, parts = before ++ part :: after ∧
    (∀ earlier ∈ before, ∃ own, ofRuns allocator mode earlier = .ok own) ∧
    ofRuns allocator mode part = .error e

/-- The first error of some lists is that of the first list, or the first of the others where the
first list has fields. -/
theorem isFirstError_cons_iff {part : List Run} : IsFirstError allocator mode (part :: parts) e ↔
    ofRuns allocator mode part = .error e ∨
      ∃ own, ofRuns allocator mode part = .ok own ∧ IsFirstError allocator mode parts e := by
  constructor
  · rintro ⟨before, failing, after, hparts, hbefore, hfailing⟩
    cases before with
    | nil =>
      obtain ⟨rfl, rfl⟩ := List.cons.inj hparts
      exact .inl hfailing
    | cons earlier before =>
      obtain ⟨rfl, rfl⟩ := List.cons.inj hparts
      obtain ⟨⟨own, hown⟩, hbefore⟩ := List.forall_mem_cons.mp hbefore
      exact .inr ⟨own, hown, before, failing, after, rfl, hbefore, hfailing⟩
  · rintro (hfailing | ⟨own, hown, before, failing, after, rfl, hbefore, hfailing⟩)
    · exact ⟨[], part, parts, rfl, nofun, hfailing⟩
    · exact ⟨part :: before, failing, after, rfl,
        List.forall_mem_cons.mpr ⟨⟨own, hown⟩, hbefore⟩, hfailing⟩

/-- The error of lists of runs that are put together is the first one. -/
theorem ofRuns_flatten_eq_error_iff (hallocator : allocator.IgnoresHeld) :
    ofRuns allocator mode parts.flatten = .error e ↔ IsFirstError allocator mode parts e := by
  induction parts with
  | nil =>
    constructor
    · exact fun h => nomatch h
    · rintro ⟨before, part, after, hparts, -⟩
      simp at hparts
  | cons part parts ih =>
    rw [List.flatten_cons, ofRuns_append hallocator, bind_eq_error_iff, isFirstError_cons_iff]
    simp only [bind_eq_error_iff, ih]
    simp [pure, Except.pure]

/-- Runs are expanded each by itself. -/
structure ExpandsRunwise (allocator : Allocator) (mode : Mode) : Prop where
  /-- The fields of runs are those of each run, put together in order. -/
  fields_eq : ∀ runs fields, ofRuns allocator mode runs = .ok fields →
    ∃ images, List.Forall₂ (HasFields mode) runs images ∧ images.flatten = fields
  /-- The bytes of the fields are, for each run, as many units of its type as its count says. -/
  sum_eq : ∀ runs fields, ofRuns allocator mode runs = .ok fields → ∃ sizes,
    List.Forall₂ (fun run size => TypeCode.representedSize run.typeChar mode = .ok size)
      runs sizes ∧
    (fields.map (·.totalSize)).sum =
      (List.zipWith (fun run size => size * run.count) runs sizes).sum
  /-- There are as many fields as strings and paddings, and as the counts of the other runs say. -/
  length_eq : ∀ runs fields, ofRuns allocator mode runs = .ok fields → fields.length =
    runs.countP (·.isSingle) + ((runs.filter (!·.isSingle)).map (·.count)).sum
  /-- Where nothing depends on the fields that are held, lists of runs that are put together have
  the fields of each list, put together. -/
  flatten_eq_ok_iff : allocator.IgnoresHeld → ∀ parts fields,
    ofRuns allocator mode parts.flatten = .ok fields ↔
      ∃ images, List.Forall₂ (fun part own => ofRuns allocator mode part = .ok own) parts images ∧
        images.flatten = fields
  /-- Then there is an error in them exactly when there is one in one of the lists, and it is that
  of the first such list. -/
  flatten_eq_error_iff : allocator.IgnoresHeld → ∀ parts e,
    ofRuns allocator mode parts.flatten = .error e ↔ IsFirstError allocator mode parts e

/-- Runs are expanded each by itself in every mode. -/
theorem expandsRunwise (allocator : Allocator) (mode : Mode) : ExpandsRunwise allocator mode where
  fields_eq _ _ := exists_hasFields
  sum_eq _ _ := exists_sizes
  length_eq _ _ := length_of_ofRuns
  flatten_eq_ok_iff hallocator _ _ := ofRuns_flatten_eq_ok_iff hallocator
  flatten_eq_error_iff hallocator _ _ := ofRuns_flatten_eq_error_iff hallocator

/-- A string without bytes is a field, and a number that is never repeated is none. -/
example : ofRuns .generous .big [⟨'s', 0⟩, ⟨'B', 0⟩, ⟨'H', 2⟩] =
    .ok [⟨'s', .bytes, 1, 0⟩, ⟨'H', .unsigned, 2, 2⟩, ⟨'H', .unsigned, 2, 2⟩] := by
  decide

end Field

end BinaryRecord
