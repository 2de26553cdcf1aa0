import BinaryRecord.Proofs.Format.Append
import BinaryRecord.Proofs.Layout.Exact
import BinaryRecord.Proofs.Schema.Pack
import BinaryRecord.Proofs.Schema.RecordCursor

/-!
# Repeat counts are shorthand

A type character with a count in front of it stands for as many of it as the count says, anywhere in
a format (`compile_repeat`). Both spellings compile or neither does, where memory is granted for a
run as for its repetitions one by one, and the schemas are the same but for the text. For padding
they are not, since the one has a single field where the other has many, but still they do the same
(`Interchangeable`).

What makes two schemas do the same is that the places of their arguments and their sizes are the
same. So it is enough that the fields by which they differ take up the same room and hold the same
arguments, wherever they start (`SamePlaces`).
-/

namespace BinaryRecord

/-! ## Fields that can stand for one another -/

namespace Layout

variable {mode : Mode} {fields others first second : List Field}

/-- The places that take an argument, of fields that follow `cursor` bytes. -/
def argumentPlacesFrom (mode : Mode) (cursor : Nat) (fields : List Field) : List (Field × Nat) :=
  (fields.zip (placement mode cursor fields).offsets).filter (·.1.takesArgument)

/-- Whatever they follow, both lists of fields end at the same place, and their arguments have the
same places. -/
structure SamePlaces (mode : Mode) (fields others : List Field) : Prop where
  /-- They end at the same place. -/
  size_eq : ∀ cursor, (placement mode cursor others).size = (placement mode cursor fields).size
  /-- Their arguments have the same places. -/
  argumentPlaces_eq : ∀ cursor,
    argumentPlacesFrom mode cursor others = argumentPlacesFrom mode cursor fields

/-- The places of two lists of fields are those of the first and, behind these, of the second. -/
theorem argumentPlacesFrom_append (mode : Mode) (cursor : Nat) (fields others : List Field) :
    argumentPlacesFrom mode cursor (fields ++ others) = argumentPlacesFrom mode cursor fields ++
      argumentPlacesFrom mode (placement mode cursor fields).size others := by
  have hlength : (placement mode cursor fields).offsets.length = fields.length :=
    (isPlacement_iff.mpr rfl).inOrder.1
  rw [argumentPlacesFrom, placement_append, List.zip_append hlength.symm, List.filter_append]
  rfl

namespace SamePlaces

/-- Fields can stand for themselves. -/
theorem refl (mode : Mode) (fields : List Field) : SamePlaces mode fields fields :=
  ⟨fun _ => rfl, fun _ => rfl⟩

/-- Fields that can stand for others can be replaced by these. -/
theorem symm (h : SamePlaces mode fields others) : SamePlaces mode others fields :=
  ⟨fun cursor => (h.size_eq cursor).symm, fun cursor => (h.argumentPlaces_eq cursor).symm⟩

/-- Fields can be replaced part by part. -/
theorem append (h : SamePlaces mode fields others) (hrest : SamePlaces mode first second) :
    SamePlaces mode (fields ++ first) (others ++ second) := by
  refine ⟨fun cursor => ?_, fun cursor => ?_⟩
  · rw [placement_append, placement_append]
    show (placement mode (placement mode cursor others).size second).size =
      (placement mode (placement mode cursor fields).size first).size
    rw [h.size_eq, hrest.size_eq]
  · rw [argumentPlacesFrom_append, argumentPlacesFrom_append, h.argumentPlaces_eq, h.size_eq,
      hrest.argumentPlaces_eq]

/-- Fields can be replaced between others. -/
theorem between (h : SamePlaces mode fields others) (before after : List Field) :
    SamePlaces mode (before ++ (fields ++ after)) (before ++ (others ++ after)) :=
  (refl mode before).append (h.append (refl mode after))

end SamePlaces

/-- The field is padding in units of a byte. -/
def IsBytePad (field : Field) : Prop :=
  field.isPad = true ∧ field.unitSize ≤ 1

/-- Padding in bytes takes up as many bytes as it has, wherever it starts. -/
theorem size_placement_of_isBytePad (hfields : ∀ field ∈ fields, IsBytePad field) (cursor : Nat) :
    (placement mode cursor fields).size = cursor + (fields.map (·.totalSize)).sum := by
  induction fields generalizing cursor with
  | nil => rfl
  | cons field fields ih =>
    obtain ⟨⟨-, hunit⟩, hfields⟩ := List.forall_mem_cons.mp hfields
    have hstart : exactStart mode cursor field = cursor :=
      exactStart_of_not_aligned fun haligned => Nat.not_lt_of_le hunit haligned.2
    simp only [placement, hstart]
    rw [ih hfields, List.map_cons, List.sum_cons, Nat.add_assoc]

/-- Padding takes no arguments. -/
theorem argumentPlacesFrom_of_isBytePad (hfields : ∀ field ∈ fields, IsBytePad field)
    (cursor : Nat) : argumentPlacesFrom mode cursor fields = [] := by
  rw [argumentPlacesFrom, List.filter_eq_nil_iff]
  intro place hplace
  have hpad := (hfields place.1 (List.of_mem_zip hplace).1).1
  simp [Field.takesArgument, hpad]

/-- Padding can be replaced by padding of as many bytes. -/
theorem samePlaces_of_isBytePad (hfields : ∀ field ∈ fields, IsBytePad field)
    (hothers : ∀ field ∈ others, IsBytePad field)
    (hsum : (others.map (·.totalSize)).sum = (fields.map (·.totalSize)).sum) :
    SamePlaces mode fields others := by
  refine ⟨fun cursor => ?_, fun cursor => ?_⟩
  · rw [size_placement_of_isBytePad hfields, size_placement_of_isBytePad hothers, hsum]
  · rw [argumentPlacesFrom_of_isBytePad hfields, argumentPlacesFrom_of_isBytePad hothers]

end Layout

/-! ## Runs -/

namespace Field

variable {allocator : Allocator} {mode : Mode} {code : TypeCode} {run : Run} {runs : List Run}
  {fields others : List Field} {n held other : Nat}

/-- Whether memory is granted for the fields of a run of the type, which strings and padding do not
ask for. -/
def IsGranted (allocator : Allocator) (code : TypeCode) (n held : Nat) : Prop :=
  code.kind ≠ .bytes → code.kind ≠ .pad → allocator.grants held n = true

/-- A run of a type has its fields where memory is granted for them. -/
theorem ofRunsFrom_singleton_eq_ok_iff (hcode : code ∈ TypeCode.all) (hn : n < 2^60) :
    ofRunsFrom allocator mode held [⟨code.char, n⟩] = .ok fields ↔
      IsGranted allocator code n held ∧ expansion mode code ⟨code.char, n⟩ = fields := by
  have hfind : TypeCode.find code.char = .ok code := TypeCode.find_eq_ok_iff.mpr ⟨hcode, rfl⟩
  have hsize : code.size mode * n ≤ Size.maxSize :=
    calc code.size mode * n
        ≤ 8 * 2^60 := Nat.mul_le_mul
          (Nat.le_of_dvd (by decide) (TypeCode.size_dvd_eight hcode mode)) (Nat.le_of_lt hn)
      _ ≤ Size.maxSize := by decide
  rw [ofRunsFrom_cons_eq_ok_iff]
  constructor
  · rintro ⟨first, rest, hfirst, hrest, rfl⟩
    obtain ⟨found, hfound, -, hgranted, rfl⟩ := ofRun_eq_ok_iff.mp hfirst
    obtain rfl := Except.ok.inj (hfind.symm.trans hfound)
    obtain rfl := Except.ok.inj hrest
    exact ⟨hgranted, (List.append_nil _).symm⟩
  · rintro ⟨hgranted, rfl⟩
    exact ⟨_, [], ofRun_eq_ok_iff.mpr ⟨code, hfind, hsize, hgranted, rfl⟩, rfl, List.append_nil _⟩

/-- A run of one repetition is one field. -/
theorem length_expansion_one : (expansion mode code ⟨code.char, 1⟩).length = 1 := by
  unfold expansion
  split <;> rfl

/-- Runs of one repetition each have the fields of one as often, where memory is granted for each
behind those before it. -/
theorem ofRunsFrom_replicate_eq_ok_iff (hcode : code ∈ TypeCode.all) :
    ofRunsFrom allocator mode held (List.replicate n ⟨code.char, 1⟩) = .ok fields ↔
      (∀ i < n, IsGranted allocator code 1 (held + i)) ∧
        (List.replicate n (expansion mode code ⟨code.char, 1⟩)).flatten = fields := by
  induction n generalizing held fields with
  | zero =>
    constructor
    · exact fun h => ⟨nofun, Except.ok.inj h⟩
    · rintro ⟨-, rfl⟩
      rfl
  | succ n ih =>
    have hone (first : List Field) :
        ofRunsFrom allocator mode held [⟨code.char, 1⟩] = .ok first ↔
          IsGranted allocator code 1 held ∧ expansion mode code ⟨code.char, 1⟩ = first :=
      ofRunsFrom_singleton_eq_ok_iff hcode (by decide)
    -- The first run is one field, so that each of the others is asked for behind one more.
    have hshift : (∀ i < n, IsGranted allocator code 1 (held + (i + 1))) ↔
        ∀ i < n, IsGranted allocator code 1 (held + 1 + i) :=
      forall₂_congr fun i _ => by rw [Nat.add_assoc held 1 i, Nat.add_comm 1 i]
    rw [List.replicate_succ, ← List.singleton_append, ofRunsFrom_append_eq_ok_iff,
      List.replicate_succ, List.flatten_cons, Nat.forall_lt_succ_left, Nat.add_zero, hshift]
    constructor
    · rintro ⟨first, rest, hfirst, hrest, rfl⟩
      obtain ⟨hgranted, rfl⟩ := (hone _).mp hfirst
      rw [length_expansion_one] at hrest
      obtain ⟨hmore, rfl⟩ := ih.mp hrest
      exact ⟨⟨hgranted, hmore⟩, rfl⟩
    · rintro ⟨⟨hgranted, hmore⟩, rfl⟩
      refine ⟨_, _, (hone _).mpr ⟨hgranted, rfl⟩, ?_, rfl⟩
      rw [length_expansion_one]
      exact ih.mpr ⟨hmore, rfl⟩

/-- Where it is all the same whether a list grows at once or one by one, memory is granted for a run
just where it is for its repetitions. -/
theorem isGranted_iff_of_grantsOneByOne (hroom : allocator.GrantsOneByOne n) :
    IsGranted allocator code n held ↔ ∀ i < n, IsGranted allocator code 1 (held + i) := by
  by_cases hrepeated : code.kind ≠ .bytes ∧ code.kind ≠ .pad
  · simp only [IsGranted, hrepeated, ne_eq, not_false_eq_true, forall_const, hroom held]
  · -- Strings and padding ask for nothing.
    have hnone : ∀ count held, IsGranted allocator code count held :=
      fun _ _ hbytes hpad => absurd ⟨hbytes, hpad⟩ hrepeated
    exact ⟨fun _ _ _ => hnone _ _, fun _ => hnone _ _⟩

/-- The fields of runs do not depend on those that are held. -/
theorem eq_of_ofRunsFrom (h : ofRunsFrom allocator mode held runs = .ok fields)
    (hother : ofRunsFrom allocator mode other runs = .ok others) : others = fields := by
  induction runs generalizing held other fields others with
  | nil => exact (Except.ok.inj hother).symm.trans (Except.ok.inj h)
  | cons run runs ih =>
    obtain ⟨first, rest, hfirst, hrest, rfl⟩ := ofRunsFrom_cons_eq_ok_iff.mp h
    obtain ⟨second, rest', hsecond, hrest', rfl⟩ := ofRunsFrom_cons_eq_ok_iff.mp hother
    obtain ⟨code, hfind, -, -, rfl⟩ := ofRun_eq_ok_iff.mp hfirst
    obtain ⟨_, hfind', -, -, rfl⟩ := ofRun_eq_ok_iff.mp hsecond
    obtain rfl := Except.ok.inj (hfind.symm.trans hfind')
    rw [ih hrest hrest']

/-- The fields of a run that is repeated are those of one repetition, as often. -/
theorem flatten_replicate_expansion (hbytes : code.kind ≠ .bytes) (hpad : code.kind ≠ .pad) :
    (List.replicate n (expansion mode code ⟨code.char, 1⟩)).flatten =
      expansion mode code ⟨code.char, n⟩ := by
  rw [expansion_of_repeated hbytes hpad, expansion_of_repeated hbytes hpad, List.replicate_one,
    List.flatten_replicate_singleton]

/-- A run of padding is one field. -/
theorem expansion_of_pad (hcode : code ∈ TypeCode.all) (hpad : code.kind = .pad) :
    expansion mode code ⟨code.char, n⟩ = [⟨'x', .pad, 1, n⟩] := by
  have hchar : code.char = 'x' := (TypeCode.kind_eq_pad_iff hcode).mp hpad
  rw [expansion_of_single (.inr hpad), TypeCode.size_eq_one hcode (.inr hpad), hpad, hchar,
    Nat.one_mul]

/-- Where a run is no string, its single repetitions can stand for it. -/
theorem samePlaces_expansion (hcode : code ∈ TypeCode.all) (hbytes : code.kind ≠ .bytes) :
    Layout.SamePlaces mode (expansion mode code ⟨code.char, n⟩)
      (List.replicate n (expansion mode code ⟨code.char, 1⟩)).flatten := by
  by_cases hpad : code.kind = .pad
  · rw [expansion_of_pad hcode hpad, expansion_of_pad hcode hpad, List.flatten_replicate_singleton]
    refine Layout.samePlaces_of_isBytePad ?_ ?_ ?_
    · intro field hfield
      obtain rfl := List.mem_singleton.mp hfield
      exact ⟨rfl, Nat.le_refl 1⟩
    · intro field hfield
      obtain rfl := List.eq_of_mem_replicate hfield
      exact ⟨rfl, Nat.le_refl 1⟩
    · simp
  · rw [flatten_replicate_expansion hbytes hpad]
    exact .refl mode _

end Field

/-- The character of every type may stand as a type character. -/
theorem Format.isTypeChar_of_mem_all {code : TypeCode} (hcode : code ∈ TypeCode.all) :
    isTypeChar code.char = true := by
  have htable : ∀ code ∈ TypeCode.all, isTypeChar code.char = true := by decide
  exact htable code hcode

namespace Schema

open Layout (placement argumentPlacesFrom SamePlaces)

variable {allocator : Allocator} {text text' p s : String} {schema other : Schema}

/-! ## Schemas that do the same -/

/-- The other schema does the same: it makes the same records of the same arguments, gets the same
values from the same bytes, and refuses what the schema refuses, with the same errors. -/
structure Interchangeable (schema other : Schema) : Prop where
  /-- The mode is the same. -/
  mode_eq : other.mode = schema.mode
  /-- Records are as long. -/
  size_eq : other.size = schema.size
  /-- They take as many arguments. -/
  argumentCount_eq : other.argumentCount = schema.argumentCount
  /-- Packing is the same. -/
  pack_eq : ∀ arguments, other.pack arguments = schema.pack arguments
  /-- And so is packing into a buffer. -/
  packInto_eq : ∀ buffer offset arguments,
    other.packInto buffer offset arguments = schema.packInto buffer offset arguments
  /-- Unpacking is the same. -/
  unpack_eq : ∀ bytes, other.unpack bytes = schema.unpack bytes
  /-- And so is unpacking from a buffer. -/
  unpackFrom_eq : ∀ buffer offset, other.unpackFrom buffer offset = schema.unpackFrom buffer offset
  /-- A buffer of many records has the same values. -/
  unpackAll_eq : ∀ bytes, other.unpackAll bytes = schema.unpackAll bytes

/-- The fields of a compiled schema are laid out one behind the other. -/
theorem layout_eq_placement (h : compile allocator text = .ok schema) :
    schema.layout = placement schema.mode 0 schema.fields := by
  obtain ⟨format, fields, layout, -, -, hlayout, rfl⟩ := compile_eq_ok_iff.mp h
  exact Layout.eq_placement_of_compute hlayout

/-- Schemas of one size that get the same values from the same bytes do so from a buffer of records,
and refuse the same buffers. -/
theorem WellFormed.unpackAll_congr (hschema : schema.WellFormed) (hother : other.WellFormed)
    (hsize : other.size = schema.size) (hvalues : other.values = schema.values)
    (bytes : List UInt8) : other.unpackAll bytes = schema.unpackAll bytes := by
  by_cases hzero : schema.size = 0
  · rw [unpackAll, unpackAll, cursor, cursor, dif_pos hzero, dif_pos (hsize.trans hzero)]
  · by_cases hdvd : schema.size ∣ bytes.length
    · have hpos := Nat.pos_of_ne_zero hzero
      rw [unpackAll_eq hschema hpos hdvd, unpackAll_eq hother (hsize ▸ hpos) (hsize ▸ hdvd)]
      simp only [records, recordAt, hsize, hvalues]
    · have hrest := mt Nat.dvd_of_mod_eq_zero hdvd
      rw [unpackAll, unpackAll, cursor, cursor, dif_neg hzero, dif_neg (hsize ▸ hzero),
        if_neg hrest, if_neg (hsize ▸ hrest), hsize]

/-- Well formed schemas do the same if they agree in mode, in size and in the number and the places
of their arguments. -/
theorem WellFormed.interchangeable (hschema : schema.WellFormed) (hother : other.WellFormed)
    (hmode : other.mode = schema.mode) (hsize : other.size = schema.size)
    (hcount : other.argumentCount = schema.argumentCount)
    (hplaces : other.argumentPlaces = schema.argumentPlaces) : Interchangeable schema other := by
  have hvalues : other.values = schema.values := by
    funext bytes
    rw [values_eq_map, values_eq_map, hplaces, hmode]
  have hpack : other.pack = schema.pack := by
    funext arguments
    by_cases hlength : arguments.length = schema.argumentCount
    · rw [pack_eq hschema hlength, pack_eq hother (hlength.trans hcount.symm), hplaces, hsize,
        hmode]
    · rw [pack_of_length_ne hlength, pack_of_length_ne (hcount.symm ▸ hlength), hcount]
  have hunpack : other.unpack = schema.unpack := by
    funext bytes
    by_cases hlength : bytes.length = schema.size
    · rw [hschema.unpack_eq_values hlength, hother.unpack_eq_values (hlength.trans hsize.symm),
        hvalues]
    · rw [unpack, unpack, hsize, if_neg hlength, if_neg hlength]
  refine ⟨hmode, hsize, hcount, fun arguments => congrFun hpack arguments,
    fun buffer offset arguments => ?_, fun bytes => congrFun hunpack bytes,
    fun buffer offset => ?_, hschema.unpackAll_congr hother hsize hvalues⟩
  · rw [packInto, packInto, recordEnd, recordEnd, hsize, hpack]
  · rw [unpackFrom, unpackFrom, recordEnd, recordEnd, hsize, hunpack]

/-- Compiled schemas of one mode do the same if the fields of the one can stand for those of the
other. -/
theorem interchangeable_of_samePlaces (h : compile allocator text = .ok schema)
    (hother : compile allocator text' = .ok other) (hmode : other.mode = schema.mode)
    (hsame : SamePlaces schema.mode schema.fields other.fields) :
    Interchangeable schema other := by
  have hplaces : other.argumentPlaces = schema.argumentPlaces := by
    have hall : argumentPlacesFrom other.mode 0 other.fields =
        argumentPlacesFrom schema.mode 0 schema.fields := by
      rw [hmode, hsame.argumentPlaces_eq]
    rw [argumentPlacesFrom, argumentPlacesFrom, ← layout_eq_placement h,
      ← layout_eq_placement hother] at hall
    exact hall
  have hsize : other.size = schema.size := by
    rw [size, size, layout_eq_placement h, layout_eq_placement hother, hmode, hsame.size_eq]
  refine (wellFormed_of_compile h).interchangeable (wellFormed_of_compile hother) hmode hsize ?_
    hplaces
  rw [argumentCount_eq_min h, argumentCount_eq_min hother, hplaces]

/-! ## Tokens that can stand for one another -/

open Format (Token EndsToken)

/-- A format with tokens between two texts, the first of which is one of whole tokens, compiles when
the texts and the tokens have fields, one behind the other, that are not too large together. -/
theorem compile_insert_eq_ok_iff (hp : EndsToken p) (hs : ∀ c ∈ s.toList.head?, c ∉ Format.markers)
    (tokens : List Token) :
    compile allocator (p ++ String.ofList (tokens.flatMap Token.text) ++ s) = .ok schema ↔
      ∃ first rest before between after, Format.parse p = .ok first ∧
        Format.parseRuns none 0 s.toList = .ok rest ∧
        Field.ofRuns allocator first.mode first.runs = .ok before ∧
        Field.ofRunsFrom allocator first.mode before.length (tokens.map Token.run) = .ok between ∧
        Field.ofRunsFrom allocator first.mode (before.length + between.length) rest = .ok after ∧
        (placement first.mode 0 (before ++ (between ++ after))).size ≤ Size.maxSize ∧
        ⟨p ++ String.ofList (tokens.flatMap Token.text) ++ s, first.mode,
          before ++ (between ++ after), placement first.mode 0 (before ++ (between ++ after)),
          Run.countArguments (first.runs ++ (tokens.map Token.run ++ rest))⟩ = schema := by
  rw [compile_eq_ok_iff]
  constructor
  · rintro ⟨format, fields, layout, hparse, hfields, hlayout, rfl⟩
    obtain ⟨first, rest, hfirst, hrest, rfl⟩ :=
      (Format.parse_insert_eq_ok_iff hp hs tokens).mp hparse
    obtain ⟨before, more, hbefore, hmore, rfl⟩ := Field.ofRunsFrom_append_eq_ok_iff.mp hfields
    obtain ⟨between, after, hbetween, hafter, rfl⟩ := Field.ofRunsFrom_append_eq_ok_iff.mp hmore
    obtain ⟨rfl, hfits⟩ := (Layout.computeFrom_eq_ok_iff (Nat.zero_le _)).mp hlayout
    rw [Nat.zero_add] at hbetween hafter
    exact ⟨first, rest, before, between, after, hfirst, hrest, hbefore, hbetween, hafter, hfits,
      rfl⟩
  · rintro ⟨first, rest, before, between, after, hfirst, hrest, hbefore, hbetween, hafter, hfits,
      rfl⟩
    refine ⟨_, _, _, (Format.parse_insert_eq_ok_iff hp hs tokens).mpr
      ⟨first, rest, hfirst, hrest, rfl⟩, ?_,
      (Layout.computeFrom_eq_ok_iff (Nat.zero_le _)).mpr ⟨rfl, hfits⟩, rfl⟩
    rw [← Nat.zero_add before.length] at hbetween hafter
    exact Field.ofRunsFrom_append_eq_ok_iff.mpr ⟨before, _, hbefore,
      Field.ofRunsFrom_append_eq_ok_iff.mpr ⟨between, after, hbetween, hafter, rfl⟩, rfl⟩

/-- The other tokens can stand for the tokens: in every mode both have fields, behind the same
numbers of fields, and those of the others can stand for those of the tokens. -/
structure Replaces (allocator : Allocator) (granted : Nat → Prop) (tokens others : List Token)
    (own added : Mode → List Field) : Prop where
  /-- The tokens have their fields where memory is granted for them. -/
  ofRunsFrom_eq_ok_iff : ∀ {mode held fields},
    Field.ofRunsFrom allocator mode held (tokens.map Token.run) = .ok fields ↔
      granted held ∧ own mode = fields
  /-- And so have the others. -/
  ofRunsFrom_others_eq_ok_iff : ∀ {mode held fields},
    Field.ofRunsFrom allocator mode held (others.map Token.run) = .ok fields ↔
      granted held ∧ added mode = fields
  /-- The fields of the others can stand for those of the tokens. -/
  samePlaces : ∀ mode, SamePlaces mode (own mode) (added mode)

namespace Replaces

variable {granted : Nat → Prop} {tokens others : List Token} {own added : Mode → List Field}

/-- Tokens that can stand for others can be replaced by these. -/
theorem symm (h : Replaces allocator granted tokens others own added) :
    Replaces allocator granted others tokens added own :=
  ⟨h.ofRunsFrom_others_eq_ok_iff, h.ofRunsFrom_eq_ok_iff, fun mode => (h.samePlaces mode).symm⟩

/-- Where tokens are replaced, the format still compiles, if what follows finds as many fields as
before or does not depend on them. -/
theorem exists_compile (h : Replaces allocator granted tokens others own added)
    (hlength : (∀ mode, (added mode).length = (own mode).length) ∨ allocator.IgnoresHeld)
    (hp : EndsToken p) (hs : ∀ c ∈ s.toList.head?, c ∉ Format.markers)
    (hcompile : compile allocator (p ++ String.ofList (tokens.flatMap Token.text) ++ s) =
      .ok schema) :
    ∃ other, compile allocator (p ++ String.ofList (others.flatMap Token.text) ++ s) =
      .ok other := by
  obtain ⟨first, rest, before, between, after, hfirst, hrest, hbefore, hbetween, hafter, hfits,
    -⟩ := (compile_insert_eq_ok_iff hp hs tokens).mp hcompile
  obtain ⟨hgranted, rfl⟩ := h.ofRunsFrom_eq_ok_iff.mp hbetween
  -- What comes behind the tokens is all that sees how many fields they have.
  have hbehind : Field.ofRunsFrom allocator first.mode
      (before.length + (added first.mode).length) rest = .ok after := by
    rcases hlength with hsame | hignores
    · rw [hsame, hafter]
    · rw [Field.ofRunsFrom_of_ignoresHeld hignores, hafter]
  -- Laid out anew, the fields still fit, since they end where they did.
  have hsize := ((h.samePlaces first.mode).between before after).size_eq 0
  exact ⟨_, (compile_insert_eq_ok_iff hp hs others).mpr ⟨first, rest, before, _, after, hfirst,
    hrest, hbefore, h.ofRunsFrom_others_eq_ok_iff.mpr ⟨hgranted, rfl⟩, hbehind,
    hsize.trans_le hfits, rfl⟩⟩

/-- Formats in which tokens are replaced have the same fields but for those of the tokens. -/
theorem exists_fields_eq (h : Replaces allocator granted tokens others own added)
    (hp : EndsToken p) (hs : ∀ c ∈ s.toList.head?, c ∉ Format.markers)
    (hcompile : compile allocator (p ++ String.ofList (tokens.flatMap Token.text) ++ s) =
      .ok schema)
    (hother : compile allocator (p ++ String.ofList (others.flatMap Token.text) ++ s) =
      .ok other) :
    other.mode = schema.mode ∧ ∃ before after,
      schema.fields = before ++ (own schema.mode ++ after) ∧
      other.fields = before ++ (added schema.mode ++ after) := by
  obtain ⟨first, rest, before, between, after, hfirst, hrest, hbefore, hbetween, hafter, -,
    rfl⟩ := (compile_insert_eq_ok_iff hp hs tokens).mp hcompile
  obtain ⟨first', rest', before', between', after', hfirst', hrest', hbefore', hbetween', hafter',
    -, rfl⟩ := (compile_insert_eq_ok_iff hp hs others).mp hother
  obtain rfl := Except.ok.inj (hfirst.symm.trans hfirst')
  obtain rfl := Except.ok.inj (hrest.symm.trans hrest')
  obtain rfl := Except.ok.inj (hbefore.symm.trans hbefore')
  obtain ⟨-, rfl⟩ := h.ofRunsFrom_eq_ok_iff.mp hbetween
  obtain ⟨-, rfl⟩ := h.ofRunsFrom_others_eq_ok_iff.mp hbetween'
  -- Behind the tokens memory is asked for behind other numbers of fields, but for the same ones.
  obtain rfl := Field.eq_of_ofRunsFrom hafter hafter'
  exact ⟨rfl, before, after', rfl, rfl⟩

/-- Formats in which tokens are replaced compile to schemas that do the same. -/
theorem interchangeable (h : Replaces allocator granted tokens others own added)
    (hp : EndsToken p) (hs : ∀ c ∈ s.toList.head?, c ∉ Format.markers)
    (hcompile : compile allocator (p ++ String.ofList (tokens.flatMap Token.text) ++ s) =
      .ok schema)
    (hother : compile allocator (p ++ String.ofList (others.flatMap Token.text) ++ s) =
      .ok other) : Interchangeable schema other := by
  obtain ⟨hmode, before, after, hfields, hreplaced⟩ := h.exists_fields_eq hp hs hcompile hother
  have hplaces : SamePlaces schema.mode schema.fields other.fields := by
    rw [hfields, hreplaced]
    exact (h.samePlaces _).between before after
  exact interchangeable_of_samePlaces hcompile hother hmode hplaces

end Replaces

/-! ## Counts -/

/-- A token with a count can be replaced by as many tokens of its type alone, unless its type is
that of strings. -/
theorem exists_replaces_replicate {digits : List Char} {code : TypeCode} (hsome : digits ≠ [])
    (hdigits : ∀ c ∈ digits, c.isDigit = true) (hcount : Format.decimalValue digits < 2^60)
    (hroom : allocator.GrantsOneByOne (Format.decimalValue digits)) (hcode : code ∈ TypeCode.all)
    (hbytes : code.kind ≠ .bytes) : ∃ token : Token,
      [token].flatMap Token.text = digits ++ [code.char] ∧
      Replaces allocator (Field.IsGranted allocator code (Format.decimalValue digits)) [token]
        (List.replicate (Format.decimalValue digits)
          (Token.single code.char (Format.isTypeChar_of_mem_all hcode)))
        (fun mode => Field.expansion mode code ⟨code.char, Format.decimalValue digits⟩)
        fun mode => (List.replicate (Format.decimalValue digits)
          (Field.expansion mode code ⟨code.char, 1⟩)).flatten := by
  have hmost : 2^60 ≤ Size.maxSize := by decide
  refine ⟨⟨digits, code.char, hdigits, (Nat.le_of_lt hcount).trans hmost,
      Format.isTypeChar_of_mem_all hcode⟩,
    List.flatMap_singleton .., ?_, ?_, fun _ => Field.samePlaces_expansion hcode hbytes⟩
  · intro mode held fields
    rw [List.map_singleton, Token.run, if_neg hsome]
    exact Field.ofRunsFrom_singleton_eq_ok_iff hcode hcount
  · intro mode held fields
    rw [List.map_replicate, Field.isGranted_iff_of_grantsOneByOne hroom]
    exact Field.ofRunsFrom_replicate_eq_ok_iff hcode

/-- The other schema is that of a format in which a count is written out. -/
structure WritesOut (c : Char) (n : Nat) (schema other : Schema) : Prop where
  /-- The schemas do the same. -/
  interchangeable : Interchangeable schema other
  /-- Unless padding is repeated, the fields are the same. -/
  fields_eq : c ≠ 'x' → other.fields = schema.fields
  /-- Then the offsets are, too. -/
  layout_eq : c ≠ 'x' → other.layout = schema.layout
  /-- Padding that is repeated is one field, and written out as many as the count says. -/
  exists_fields_eq : c = 'x' → ∃ before after,
    schema.fields = before ++ ([⟨'x', .pad, 1, n⟩] ++ after) ∧
      other.fields = before ++ (List.replicate n ⟨'x', .pad, 1, 1⟩ ++ after)

/-- A text in which a type character has a count is short for one in which the count is written out.
-/
structure IsShorthand (allocator : Allocator) (c : Char) (n : Nat) (counted written : String) :
    Prop where
  /-- Both compile or neither does. What follows padding finds fewer fields behind a count than
  where this is written out, so there what is granted must not depend on them. -/
  compile_iff : c ≠ 'x' ∨ allocator.IgnoresHeld →
    ((∃ schema, compile allocator counted = .ok schema) ↔
      ∃ other, compile allocator written = .ok other)
  /-- The schemas do the same. -/
  writesOut : ∀ schema other, compile allocator counted = .ok schema →
    compile allocator written = .ok other → WritesOut c n schema other

/-- A count in front of a type character, anywhere in a format, is short for as many of the
character. It must be a count of a type that is no string, and small enough that memory for a run of
so many fields is granted, by which is meant that it is wherever it is for the fields one by one. -/
theorem compile_repeat {digits : List Char} {code : TypeCode} (hp : EndsToken p)
    (hs : ∀ c ∈ s.toList.head?, c ∉ Format.markers) (hsome : digits ≠ [])
    (hdigits : ∀ c ∈ digits, c.isDigit = true) (hcount : Format.decimalValue digits < 2^60)
    (hroom : allocator.GrantsOneByOne (Format.decimalValue digits)) (hcode : code ∈ TypeCode.all)
    (hchar : code.char ≠ 's') :
    IsShorthand allocator code.char (Format.decimalValue digits)
      (p ++ String.ofList (digits ++ [code.char]) ++ s)
      (p ++ String.ofList (List.replicate (Format.decimalValue digits) code.char) ++ s) := by
  have hbytes : code.kind ≠ .bytes := (TypeCode.kind_eq_bytes_iff hcode).not.mpr hchar
  have hpad := TypeCode.kind_eq_pad_iff hcode
  have htype : Format.isTypeChar code.char = true := Format.isTypeChar_of_mem_all hcode
  obtain ⟨token, htext, h⟩ :=
    exists_replaces_replicate hsome hdigits hcount hroom hcode hbytes
  rw [← htext, ← Token.flatMap_text_replicate_single _ htype]
  refine ⟨fun hrest => ?_, fun schema other hcompile hother => ?_⟩
  · have hlength (hx : code.char ≠ 'x') (mode : Mode) :
        (List.replicate (Format.decimalValue digits)
            (Field.expansion mode code ⟨code.char, 1⟩)).flatten.length =
          (Field.expansion mode code ⟨code.char, Format.decimalValue digits⟩).length :=
      congrArg List.length (Field.flatten_replicate_expansion hbytes (hpad.not.mpr hx))
    constructor
    · rintro ⟨_, hcompile⟩
      exact h.exists_compile (hrest.imp_left hlength) hp hs hcompile
    · -- The tokens that are written out can be replaced back.
      rintro ⟨_, hother⟩
      exact h.symm.exists_compile (hrest.imp_left fun hx mode => (hlength hx mode).symm) hp hs
        hother
  · have hsame := h.interchangeable hp hs hcompile hother
    obtain ⟨hmode, before, after, hfields, hreplaced⟩ := h.exists_fields_eq hp hs hcompile hother
    have hfieldsEq : code.char ≠ 'x' → other.fields = schema.fields := by
      intro hx
      rw [hreplaced, hfields, Field.flatten_replicate_expansion hbytes (hpad.not.mpr hx)]
    refine ⟨hsame, hfieldsEq, fun hx => ?_, fun hx => ⟨before, after, ?_, ?_⟩⟩
    · rw [layout_eq_placement hother, layout_eq_placement hcompile, hmode, hfieldsEq hx]
    · rw [hfields, Field.expansion_of_pad hcode (hpad.mpr hx)]
    · rw [hreplaced, Field.expansion_of_pad hcode (hpad.mpr hx),
        List.flatten_replicate_singleton]

/-- Three words behind a byte, to which a gap is left, and a string behind them. -/
theorem compile_repeat_words : EndsToken "b" ∧ (∀ c ∈ "2s".toList.head?, c ∉ Format.markers) ∧
    Format.decimalValue ['0', '3'] < 2^60 ∧
    Allocator.generous.GrantsOneByOne (Format.decimalValue ['0', '3']) ∧ ∃ schema other,
      compile .generous "b03H2s" = .ok schema ∧ compile .generous "bHHH2s" = .ok other ∧
        WritesOut 'H' 3 schema other := by
  have hp : EndsToken ("".push 'b') := .typeChar "" (by decide)
  have hs : ∀ c ∈ "2s".toList.head?, c ∉ Format.markers := by
    intro c hc
    obtain rfl : '2' = c := by simpa using hc
    decide
  have hsome : ['0', '3'] ≠ [] := by decide
  have hdigits : ∀ c ∈ ['0', '3'], c.isDigit = true := by simp
  have hcount : Format.decimalValue ['0', '3'] < 2^60 := by decide
  have hroom := Allocator.generous_grantsOneByOne (Format.decimalValue ['0', '3'])
  have hcode : ⟨'H', 2, 2, .unsigned⟩ ∈ TypeCode.all := by decide
  have hschema : compile .generous "b03H2s" = .ok ⟨"b03H2s", .nativeAligned,
      [⟨'b', .signed, 1, 1⟩, ⟨'H', .unsigned, 2, 2⟩, ⟨'H', .unsigned, 2, 2⟩,
        ⟨'H', .unsigned, 2, 2⟩, ⟨'s', .bytes, 1, 2⟩], ⟨[0, 2, 4, 6, 8], 10⟩, 5⟩ := by
    decide +kernel
  have hother : compile .generous "bHHH2s" = .ok ⟨"bHHH2s", .nativeAligned,
      [⟨'b', .signed, 1, 1⟩, ⟨'H', .unsigned, 2, 2⟩, ⟨'H', .unsigned, 2, 2⟩,
        ⟨'H', .unsigned, 2, 2⟩, ⟨'s', .bytes, 1, 2⟩], ⟨[0, 2, 4, 6, 8], 10⟩, 5⟩ := by
    decide +kernel
  have hshort := compile_repeat hp hs hsome hdigits hcount hroom hcode (by decide)
  have htext : "".push 'b' ++ String.ofList (['0', '3'] ++ ['H']) ++ "2s" = "b03H2s" := by
    decide +kernel
  have hwritten : "".push 'b' ++ String.ofList (List.replicate 3 'H') ++ "2s" = "bHHH2s" := by
    decide +kernel
  have hvalue : Format.decimalValue ['0', '3'] = 3 := by decide
  simp only [hvalue, htext, hwritten] at hshort
  exact ⟨hp, hs, hcount, hroom, _, _, hschema, hother, hshort.writesOut _ _ hschema hother⟩

/-- Padding with a count makes the same records as single bytes of it, and a count of zero leaves
nothing to be aligned. -/
example : BinaryRecord.pack .generous ">b3xH" [.int 1, .uint 2] = .ok [1, 0, 0, 0, 0, 2] ∧
    BinaryRecord.pack .generous ">bxxxH" [.int 1, .uint 2] = .ok [1, 0, 0, 0, 0, 2] ∧
    BinaryRecord.pack .generous "b0QB" [.int 1, .uint 2] = .ok [1, 2] := by
  decide +kernel

end Schema

end BinaryRecord
