import BinaryRecord.Proofs.Format.Append
import BinaryRecord.Proofs.Layout.Placement
import BinaryRecord.Proofs.Schema.Images
import BinaryRecord.Proofs.Schema.Marker
import BinaryRecord.Proofs.Schema.PackInto

/-!
# Concatenated formats

A format that is another one with more tokens behind it makes records that begin with those of the
other. What follows is packed as by the format of the added tokens alone, behind the same marker
(`compile_append`). Where fields are not aligned, or the records of the first format end at a
multiple of all alignments, the records are the concatenations of those of the two formats.

Each step from the text to the bytes is such a concatenation: of runs (`Format.parse_append`), of
fields (`Field.ofRunsFrom_append_eq_ok_iff`), of places (`Layout.placement_append`), of images
(`Field.imagesOf_append_eq_ok_iff`) and of the bytes that hold them (`Filled.take`,
`Filled.append`).
-/

namespace BinaryRecord

open Layout (InOrder Covers covers_cons_iff placement)

/-! ## Bytes -/

namespace Schema

variable {places others : List (Field × Nat)} {images more : List (List UInt8)}
  {head tail bytes : List UInt8} {cursor size n : Nat}

/-- The places with all offsets larger by a distance. -/
def shiftPlaces (distance : Nat) (places : List (Field × Nat)) : List (Field × Nat) :=
  places.map (Prod.map id (distance + ·))

/-- What places hold is looked up place by place. -/
theorem heldAt_append : heldAt (places ++ others) bytes = heldAt places bytes ++
    heldAt others bytes :=
  List.map_append

/-- Places within the first bytes hold the same whatever follows. -/
theorem heldAt_append_left (horder : InOrder head.length cursor places) :
    heldAt places (head ++ tail) = heldAt places head :=
  List.map_congr_left fun _ hplace => slice_append_left (horder.bounds_of_mem hplace).2

/-- Places that are shifted behind the first bytes hold what they held without these. -/
theorem heldAt_append_right :
    heldAt (shiftPlaces head.length places) (head ++ tail) = heldAt places tail := by
  rw [heldAt, shiftPlaces, List.map_map]
  exact List.map_congr_left fun _ _ => slice_append_right

/-- A byte belongs to one of two lists of places when it does to a place of either. -/
theorem covers_append_iff {i : Nat} :
    Covers (places ++ others) i ↔ Covers places i ∨ Covers others i := by
  simp only [Covers, List.mem_append, or_and_right, exists_or]

/-- A byte belongs to a shifted place when the byte in front of it by the distance belongs to the
place. -/
theorem covers_shiftPlaces_iff {i : Nat} :
    Covers (shiftPlaces n places) (n + i) ↔ Covers places i := by
  simp only [Covers, shiftPlaces, List.mem_map, exists_exists_and_eq_and, Prod.map, id]
  refine exists_congr fun place => and_congr_right fun _ => ?_
  omega

/-- The first bytes of a record hold the images of the first places, where the others start behind
them. -/
theorem Filled.take (h : Filled size (places ++ others) (images ++ more) bytes)
    (hplaces : InOrder n 0 places) (hothers : InOrder size n others)
    (hlength : images.length = places.length) : Filled n places images (bytes.take n) := by
  have hle : n ≤ bytes.length := h.length_eq.symm ▸ hothers.cursor_le
  have hshort : (bytes.take n).length = n := List.length_take_of_le hle
  refine ⟨hshort, ?_, fun i hi hcovers => ?_⟩
  · have hheld : heldAt places bytes = images := by
      have hboth := heldAt_append.symm.trans h.slices_eq
      exact (List.append_inj hboth (by rw [heldAt, List.length_map, hlength])).1
    calc heldAt places (bytes.take n)
        = heldAt places (bytes.take n ++ bytes.drop n) :=
          (heldAt_append_left (hshort.symm ▸ hplaces)).symm
      _ = heldAt places bytes := by rw [List.take_append_drop]
      _ = images := hheld
  · rw [List.getElem?_take, if_pos hi]
    refine h.zero i (Nat.lt_of_lt_of_le hi (h.length_eq ▸ hle)) fun hboth => ?_
    rcases covers_append_iff.mp hboth with hfirst | hsecond
    · exact hcovers hfirst
    · exact hothers.not_covers_of_lt hi hsecond

/-- Two records, one behind the other, hold the images of both, where the places of the second are
shifted behind the first. -/
theorem Filled.append (h : Filled n places images head) (hothers : Filled size others more tail)
    (hplaces : InOrder n 0 places) :
    Filled (n + size) (places ++ shiftPlaces n others) (images ++ more) (head ++ tail) := by
  have hlength := h.length_eq
  subst hlength
  refine ⟨?_, ?_, fun i hi hcovers => ?_⟩
  · rw [List.length_append, hothers.length_eq]
  · exact heldAt_append.trans (congrArg₂ (· ++ ·) ((heldAt_append_left hplaces).trans h.slices_eq)
      (heldAt_append_right.trans hothers.slices_eq))
  · rw [covers_append_iff, not_or] at hcovers
    by_cases hfirst : i < head.length
    · rw [List.getElem?_append_left hfirst, h.zero i hfirst hcovers.1]
    · obtain ⟨j, rfl⟩ := Nat.exists_eq_add_of_le (Nat.not_lt.mp hfirst)
      rw [covers_shiftPlaces_iff] at hcovers
      rw [List.getElem?_append_right (by omega), Nat.add_sub_cancel_left,
        hothers.zero j (by omega) hcovers.2]

/-! ## Schemas -/

/-- The fields of a schema are those of a first and of a second, which has the same mode, and those
of the first stand where they stand alone. -/
structure Splits (first second whole : Schema) : Prop where
  /-- The first is well formed. -/
  first_wellFormed : first.WellFormed
  /-- The second is well formed. -/
  second_wellFormed : second.WellFormed
  /-- The whole is well formed. -/
  whole_wellFormed : whole.WellFormed
  /-- The mode of the first is that of the whole. -/
  first_mode_eq : first.mode = whole.mode
  /-- The mode of the second is that of the whole. -/
  second_mode_eq : second.mode = whole.mode
  /-- The first has an argument for each of its fields that takes one. -/
  first_argumentCount_eq : first.argumentCount = first.fields.countP (·.takesArgument)
  /-- The arguments are those of both. -/
  argumentCount_eq : whole.argumentCount = first.argumentCount + second.argumentCount
  /-- The fields are those of both. -/
  fields_eq : whole.fields = first.fields ++ second.fields
  /-- The fields of the first have the offsets that they have alone. -/
  isPrefix_offsets : first.offsets <+: whole.offsets
  /-- The places of the first come first, and the others behind its record. -/
  exists_places_eq : ∃ others, whole.places = first.places ++ others ∧
    InOrder whole.size first.size others
  /-- Without alignment, or behind a multiple of all units, the second is shifted behind the first.
  -/
  shifted : first.mode.aligned = false ∨ 8 ∣ first.size →
    whole.size = first.size + second.size ∧
      whole.places = first.places ++ shiftPlaces first.size second.places

/-- The fields of a schema in memory take as many arguments as are expected. -/
theorem argumentCount_eq_countP {allocator : Allocator} {text : String} {schema : Schema}
    (h : compile allocator text = .ok schema) (hfields : schema.fields.length ≤ Size.maxSize) :
    schema.argumentCount = schema.fields.countP (·.takesArgument) := by
  rw [argumentCount_eq h hfields, (wellFormed_of_compile h).length_argumentPlaces]

/-- Where a format compiles with more tokens behind it, these compile behind its marker, and their
fields are laid out behind those of the format. -/
theorem exists_compile_of_append {allocator : Allocator} {f g : String} {first whole : Schema}
    (hallocator : allocator.FavorsShorter) (hfirst : compile allocator f = .ok first)
    (hmarker : ∀ c ∈ g.toList.head?, c ∉ Format.markers)
    (hwhole : compile allocator (f ++ g) = .ok whole) :
    ∃ second rest, compile allocator (String.singleton first.mode.marker ++ g) = .ok second ∧
      first.mode = whole.mode ∧ second.mode = whole.mode ∧
      whole.fields = first.fields ++ second.fields ∧
      Layout.computeFrom whole.mode first.size second.fields = .ok rest ∧
      whole.layout = ⟨first.offsets ++ rest.offsets, rest.size⟩ ∧
      (first.mode.aligned = false ∨ 8 ∣ first.size → rest = second.layout.shift first.size) := by
  obtain ⟨format, fields, layout, hformat, hfirstFields, hlayout, rfl⟩ :=
    compile_eq_ok_iff.mp hfirst
  obtain ⟨_, _, wholeLayout, hparse, hwholeFields, hwholeLayout, rfl⟩ :=
    compile_eq_ok_iff.mp hwhole
  -- The runs, and from them the fields, are those of the first format and more.
  obtain ⟨position, happend⟩ := Format.parse_append hformat hmarker
  obtain ⟨runs, hruns, rfl⟩ := map_eq_ok_iff.mp (happend.symm.trans hparse)
  obtain ⟨_, added, hown, hbehind, rfl⟩ := Field.ofRunsFrom_append_eq_ok_iff.mp hwholeFields
  obtain rfl := Except.ok.inj (hfirstFields.symm.trans hown)
  -- Alone, the added runs ask for memory behind fewer fields.
  have hadded : Field.ofRuns allocator format.mode runs = .ok added :=
    Field.ofRunsFrom_of_favorsShorter hallocator hbehind
  obtain ⟨rest, alone, hrest, halone, hlayouts, hshift⟩ :=
    Layout.exists_of_compute_append hlayout hwholeLayout
  have htext : (String.singleton format.mode.marker ++ g).toList =
      format.mode.marker :: g.toList := by
    rw [String.toList_append, String.toList_singleton]
    rfl
  have hsecond := (compile_of_marker_eq_ok_iff htext
    (Format.ofMarker?_marker_of_parse hformat)).mpr
      ⟨runs, added, alone, Format.parseRuns_of_position hruns 1, hadded, halone, rfl⟩
  refine ⟨_, rest, hsecond, rfl, rfl, rfl, hrest, hlayouts, fun hcut => hshift ?_⟩
  -- Every unit divides the size of the first, if fields are aligned at all.
  intro field hfield haligned
  rcases hcut with hunaligned | hdvd
  · rw [haligned] at hunaligned
    contradiction
  · exact (Field.unitSize_dvd_of_mem_ofRuns hadded hfield).trans hdvd

/-- A format that is another with more tokens behind it splits into the two. -/
theorem exists_splits_of_compile {allocator : Allocator} {f g : String} {first whole : Schema}
    (hallocator : allocator.FavorsShorter) (hfirst : compile allocator f = .ok first)
    (hmarker : ∀ c ∈ g.toList.head?, c ∉ Format.markers)
    (hwhole : compile allocator (f ++ g) = .ok whole)
    (hfields : whole.fields.length ≤ Size.maxSize) :
    ∃ second, compile allocator (String.singleton first.mode.marker ++ g) = .ok second ∧
      Splits first second whole := by
  obtain ⟨second, rest, hsecond, hfirstMode, hsecondMode, hboth, hrest, hlayout, hshift⟩ :=
    exists_compile_of_append hallocator hfirst hmarker hwhole
  have hfirstFormed := wellFormed_of_compile hfirst
  have horder := (Layout.inOrder_of_computeFrom hrest (size_le_of_compile hfirst)).2
  have hlengths : first.fields.length + second.fields.length ≤ Size.maxSize := by
    rw [← List.length_append, ← hboth]
    exact hfields
  have hfirstCount := argumentCount_eq_countP hfirst (Nat.le_of_add_right_le hlengths)
  have hsecondCount := argumentCount_eq_countP hsecond (Nat.le_of_add_left_le hlengths)
  have hsize : whole.size = rest.size := by rw [size, hlayout]
  have hoffsets : whole.offsets = first.offsets ++ rest.offsets := by rw [offsets, hlayout]
  have hplaces : whole.places = first.places ++ second.fields.zip rest.offsets := by
    rw [places, hboth, hoffsets]
    exact List.zip_append hfirstFormed.length_offsets.symm
  refine ⟨second, hsecond, hfirstFormed, wellFormed_of_compile hsecond,
    wellFormed_of_compile hwhole, hfirstMode, hsecondMode, hfirstCount, ?_, hboth, ?_,
    ⟨_, hplaces, hsize ▸ horder⟩, fun hcut => ?_⟩
  · rw [argumentCount_eq_countP hwhole hfields, hfirstCount, hsecondCount, hboth,
      List.countP_append]
  · exact hoffsets ▸ List.prefix_append _ _
  · obtain rfl := hshift hcut
    exact ⟨hsize, hplaces.trans (congrArg _ (List.zip_map_right ..))⟩

namespace Splits

variable {first second whole : Schema} {xs ys : List Value}

/-- The images of the arguments are those that the two schemas have for them. -/
theorem imagesOf_eq_ok_iff (h : Splits first second whole)
    (hcount : xs.length = first.argumentCount) :
    Field.imagesOf whole.mode.byteOrder 0 whole.fields (xs ++ ys) = .ok images ↔
      ∃ own added, Field.imagesOf first.mode.byteOrder 0 first.fields xs = .ok own ∧
        Field.imagesOf second.mode.byteOrder 0 second.fields ys = .ok added ∧
        own ++ added = images := by
  rw [h.fields_eq, h.first_mode_eq, h.second_mode_eq]
  exact Field.imagesOf_append_eq_ok_iff (hcount.trans h.first_argumentCount_eq)

/-- Arguments can be packed when those of the first schema and those of the second can. -/
theorem exists_pack_iff (h : Splits first second whole)
    (hcount : xs.length = first.argumentCount) :
    (∃ bytes, whole.pack (xs ++ ys) = .ok bytes) ↔
      (∃ head, first.pack xs = .ok head) ∧ ∃ tail, second.pack ys = .ok tail := by
  have hcounts : (xs ++ ys).length = whole.argumentCount ↔ ys.length = second.argumentCount := by
    rw [List.length_append, h.argumentCount_eq, hcount]
    exact Nat.add_left_cancel_iff
  rw [h.first_wellFormed.exists_pack_eq_ok_iff, h.second_wellFormed.exists_pack_eq_ok_iff,
    h.whole_wellFormed.exists_pack_eq_ok_iff, hcounts]
  constructor
  · rintro ⟨hys, images, himages⟩
    obtain ⟨own, added, hown, hadded, -⟩ := (h.imagesOf_eq_ok_iff hcount).mp himages
    exact ⟨⟨hcount, own, hown⟩, hys, added, hadded⟩
  · rintro ⟨⟨-, own, hown⟩, hys, added, hadded⟩
    exact ⟨hys, own ++ added, (h.imagesOf_eq_ok_iff hcount).mpr ⟨own, added, hown, hadded, rfl⟩⟩

/-- The record begins with that of the first schema. -/
theorem isPrefix_of_pack (h : Splits first second whole) (hhead : first.pack xs = .ok head)
    (hpack : whole.pack (xs ++ ys) = .ok bytes) : head <+: bytes := by
  obtain ⟨hcount, own, hown, hfirst⟩ := h.first_wellFormed.pack_eq_ok_iff.mp hhead
  obtain ⟨-, images, himages, hwhole⟩ := h.whole_wellFormed.pack_eq_ok_iff.mp hpack
  obtain ⟨_, added, hsame, -, rfl⟩ := (h.imagesOf_eq_ok_iff hcount).mp himages
  obtain rfl := Except.ok.inj (hown.symm.trans hsame)
  obtain ⟨others, hplaces, hothers⟩ := h.exists_places_eq
  have hlength : own.length = first.places.length := by
    rw [← hfirst.slices_eq, List.length_map]
  rw [hplaces] at hwhole
  rw [hfirst.unique (hwhole.take h.first_wellFormed.inOrder hothers hlength)]
  exact List.take_prefix _ _

/-- The record is that of the first schema and then that of the second, where the second is shifted
behind the first. -/
theorem pack_append (h : Splits first second whole)
    (hcut : first.mode.aligned = false ∨ 8 ∣ first.size) (hhead : first.pack xs = .ok head)
    (htail : second.pack ys = .ok tail) : whole.pack (xs ++ ys) = .ok (head ++ tail) := by
  obtain ⟨hcount, own, hown, hfirst⟩ := h.first_wellFormed.pack_eq_ok_iff.mp hhead
  obtain ⟨hcount', added, hadded, hsecond⟩ := h.second_wellFormed.pack_eq_ok_iff.mp htail
  obtain ⟨hsize, hplaces⟩ := h.shifted hcut
  refine h.whole_wellFormed.pack_eq_ok_iff.mpr ⟨?_, own ++ added, ?_, ?_⟩
  · rw [List.length_append, h.argumentCount_eq, hcount, hcount']
  · exact (h.imagesOf_eq_ok_iff hcount).mpr ⟨own, added, hown, hadded, rfl⟩
  · rw [hsize, hplaces]
    exact hfirst.append hsecond h.first_wellFormed.inOrder

/-- The values are those of the first schema and then those of the second, where the second is
shifted behind the first. -/
theorem values_append (h : Splits first second whole)
    (hcut : first.mode.aligned = false ∨ 8 ∣ first.size) (hhead : head.length = first.size)
    (tail : List UInt8) :
    whole.values (head ++ tail) = first.values head ++ second.values tail := by
  have hheld : heldAt whole.places (head ++ tail) =
      heldAt first.places head ++ heldAt second.places tail := by
    rw [(h.shifted hcut).2, heldAt_append, ← hhead, heldAt_append_right,
      heldAt_append_left (hhead.symm ▸ h.first_wellFormed.inOrder)]
  have hlength : first.fields.length = (heldAt first.places head).length := by
    rw [heldAt, List.length_map, ← h.first_wellFormed.map_fst_places, List.length_map]
  rw [h.whole_wellFormed.values_eq_heldAt, h.first_wellFormed.values_eq_heldAt,
    h.second_wellFormed.values_eq_heldAt, hheld, h.fields_eq, List.zip_append hlength,
    List.filter_append, List.map_append, h.first_mode_eq, h.second_mode_eq]

end Splits

/-! ## Concatenation -/

/-- The schema of a format with more tokens behind it does what the schema of the format does, and
then what the schema of the tokens does. -/
structure Concatenates (first second whole : Schema) : Prop where
  /-- The fields are those of both. -/
  fields_eq : whole.fields = first.fields ++ second.fields
  /-- The fields of the first have the offsets that they have alone. -/
  isPrefix_offsets : first.offsets <+: whole.offsets
  /-- Arguments can be packed when those of the first schema and those of the second can. -/
  exists_pack_iff : ∀ xs ys, xs.length = first.argumentCount →
    ((∃ bytes, whole.pack (xs ++ ys) = .ok bytes) ↔
      (∃ head, first.pack xs = .ok head) ∧ ∃ tail, second.pack ys = .ok tail)
  /-- The record begins with that of the first schema. -/
  isPrefix_of_pack : ∀ xs ys head bytes, first.pack xs = .ok head →
    whole.pack (xs ++ ys) = .ok bytes → head <+: bytes
  /-- Without alignment, or behind a multiple of all units, the sizes add up. -/
  size_eq : first.mode.aligned = false ∨ 8 ∣ first.size → whole.size = first.size + second.size
  /-- Then the record is that of the first schema and that of the second. -/
  pack_append : first.mode.aligned = false ∨ 8 ∣ first.size → ∀ xs ys head tail,
    first.pack xs = .ok head → second.pack ys = .ok tail →
      whole.pack (xs ++ ys) = .ok (head ++ tail)
  /-- And so are the values. -/
  unpack_append : first.mode.aligned = false ∨ 8 ∣ first.size → ∀ head tail,
    head.length = first.size → tail.length = second.size → ∃ values more,
      first.unpack head = .ok values ∧ second.unpack tail = .ok more ∧
        whole.unpack (head ++ tail) = .ok (values ++ more)

/-- A format that compiles, and still compiles with more tokens behind it, is concatenated with the
format of these tokens behind its own marker. That one holds fewer fields, so it is granted the
memory that the whole is granted. -/
theorem compile_append {allocator : Allocator} {f g : String} {first whole : Schema}
    (hallocator : allocator.FavorsShorter) (hfirst : compile allocator f = .ok first)
    (hmarker : ∀ c ∈ g.toList.head?, c ∉ Format.markers)
    (hwhole : compile allocator (f ++ g) = .ok whole)
    (hfields : whole.fields.length ≤ Size.maxSize) :
    ∃ second, compile allocator (String.singleton first.mode.marker ++ g) = .ok second ∧
      Concatenates first second whole := by
  obtain ⟨second, hsecond, h⟩ := exists_splits_of_compile hallocator hfirst hmarker hwhole hfields
  refine ⟨second, hsecond, h.fields_eq, h.isPrefix_offsets, fun xs ys hcount => ?_,
    fun xs ys head bytes => h.isPrefix_of_pack, fun hcut => (h.shifted hcut).1,
    fun hcut xs ys head tail => h.pack_append hcut, fun hcut head tail hhead htail => ?_⟩
  · exact h.exists_pack_iff hcount
  · have hlength : (head ++ tail).length = whole.size := by
      rw [List.length_append, hhead, htail, (h.shifted hcut).1]
    refine ⟨_, _, h.first_wellFormed.unpack_eq_values hhead,
      h.second_wellFormed.unpack_eq_values htail, ?_⟩
    rw [h.whole_wellFormed.unpack_eq_values hlength, h.values_append hcut hhead]

/-- A format of eight bytes in the aligned mode, and more tokens, between which there is a gap. -/
theorem compile_append_behind_eight_bytes :
    Allocator.generous.FavorsShorter ∧ ∃ first whole, compile .generous "q" = .ok first ∧
    (∀ c ∈ "bh".toList.head?, c ∉ Format.markers) ∧ compile .generous ("q" ++ "bh") = .ok whole ∧
    whole.fields.length ≤ Size.maxSize ∧ 8 ∣ first.size ∧
    whole.pack [.int 1, .int 2, .int 3] = .ok [1, 0, 0, 0, 0, 0, 0, 0, 2, 0, 3, 0] ∧
    ∃ second, compile .generous (String.singleton first.mode.marker ++ "bh") = .ok second ∧
      Concatenates first second whole := by
  have hfirst : compile .generous "q" =
      .ok ⟨"q", .nativeAligned, [⟨'q', .signed, 8, 8⟩], ⟨[0], 8⟩, 1⟩ := by
    decide +kernel
  have hwhole : compile .generous ("q" ++ "bh") = .ok ⟨"qbh", .nativeAligned,
      [⟨'q', .signed, 8, 8⟩, ⟨'b', .signed, 1, 1⟩, ⟨'h', .signed, 2, 2⟩], ⟨[0, 8, 10], 12⟩, 3⟩ := by
    decide +kernel
  have hmarker : ∀ c ∈ "bh".toList.head?, c ∉ Format.markers := by
    intro c hc
    obtain rfl : 'b' = c := by simpa using hc
    decide
  exact ⟨Allocator.generous_favorsShorter, _, _, hfirst, hmarker, hwhole, by decide +kernel,
    by decide, by decide +kernel,
    compile_append Allocator.generous_favorsShorter hfirst hmarker hwhole (by decide +kernel)⟩

end Schema

end BinaryRecord
