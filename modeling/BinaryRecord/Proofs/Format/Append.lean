import BinaryRecord.Proofs.Format.Parse

/-!
# Texts behind formats

A text behind a format is read as if it stood alone, but for where it stands: its runs come after
those of the format (`parse_append`), under the format's mode. The text must not begin with a
marker, which behind an empty format would select the mode.

Of any text, format or not, it can be seen at its end whether a token is still open there
(`EndsToken`). Where none is, what follows is read alone as well, so that tokens can be inserted
there and add just their runs (`parse_insert_eq_ok_iff`).
-/

namespace BinaryRecord.Format

/-- Behind tokens the parser goes on with the text that follows them. -/
theorem parseRuns_tokens_append (tokens : List Token) (position : Nat) (rest : List Char) :
    parseRuns none position (tokens.flatMap Token.text ++ rest) =
      (parseRuns none (position + byteLength (tokens.flatMap Token.text)) rest).map
        (tokens.map Token.run ++ ·) := by
  induction tokens generalizing position with
  | nil => exact (congrFun Except.map_id _).symm
  | cons token tokens ih =>
    rw [List.flatMap_cons, List.append_assoc, parseRuns_token, ih, byteLength_append,
      ← Nat.add_assoc]
    cases parseRuns none _ rest <;> rfl

/-- The runs of a text are the same wherever it starts. -/
theorem parseRuns_of_position {position : Nat} {text : List Char} {runs : List Run}
    (h : parseRuns none position text = .ok runs) (other : Nat) :
    parseRuns none other text = .ok runs := by
  obtain ⟨tokens, rfl, rfl⟩ := exists_tokens_of_parseRuns Pends.nil h
  exact parseRuns_tokens tokens other

/-- More characters change nothing of the marker, unless they bring one to an empty text. -/
theorem splitMarker_append {chars more : List Char}
    (hmarker : chars = [] → ∀ c ∈ more.head?, c ∉ markers) :
    splitMarker (chars ++ more) =
      ((splitMarker chars).1, (splitMarker chars).2.1, (splitMarker chars).2.2 ++ more) := by
  cases chars with
  | nil =>
    cases more with
    | nil => rfl
    | cons c more =>
      have hnone : Mode.ofMarker? c = none := by
        have hnot := hmarker rfl c rfl
        rw [← isMarker_iff] at hnot
        simpa [Mode.isMarker] using hnot
      simp [splitMarker, hnone]
  | cons c chars =>
    rw [List.cons_append, splitMarker, splitMarker]
    cases Mode.ofMarker? c <;> rfl

/-- A text behind a format adds its runs. -/
theorem parse_append {f g : String} {first : Format} (hfirst : parse f = .ok first)
    (hmarker : ∀ c ∈ g.toList.head?, c ∉ markers) :
    ∃ position, parse (f ++ g) =
      (parseRuns none position g.toList).map fun runs => ⟨first.mode, first.runs ++ runs⟩ := by
  have hsplit : splitMarker (f ++ g).toList = ((splitMarker f.toList).1,
      (splitMarker f.toList).2.1, (splitMarker f.toList).2.2 ++ g.toList) := by
    rw [String.toList_append]
    exact splitMarker_append fun _ => hmarker
  rw [parse] at hfirst ⊢
  rw [hsplit]
  generalize splitMarker f.toList = split at hfirst
  obtain ⟨mode, position, rest⟩ := split
  obtain ⟨runs, hruns, hformat⟩ := bind_eq_ok_iff.mp hfirst
  obtain rfl := Except.ok.inj hformat
  obtain ⟨tokens, htokens, rfl⟩ := exists_tokens_of_parseRuns Pends.nil hruns
  have hlater := parseRuns_tokens_append tokens position g.toList
  rw [htokens, List.nil_append] at hlater
  refine ⟨position + byteLength rest, ?_⟩
  show (parseRuns none position (rest ++ g.toList) >>= fun runs => .ok (Format.mk mode runs)) = _
  rw [hlater]
  cases parseRuns none _ g.toList <;> rfl

/-- The mode of a format is the one that its marker selects. -/
theorem ofMarker?_marker_of_parse {text : String} {format : Format} (h : parse text = .ok format) :
    Mode.ofMarker? format.mode.marker = some format.mode := by
  obtain ⟨spelling, -, rfl⟩ := exists_spelling_of_parse h
  show Mode.ofMarker? spelling.mode.marker = some spelling.mode
  rw [Spelling.mode]
  cases hmode : spelling.marker.bind Mode.ofMarker? with
  | none => rfl
  | some mode =>
    obtain ⟨c, -, hc⟩ := Option.bind_eq_some_iff.mp hmode
    rw [Option.getD_some, Mode.marker_of_ofMarker? hc, hc]

/-! ## Texts behind whole tokens -/

/-- No token is open at the end of the text: it is empty, a marker, or ends with a type
character. -/
inductive EndsToken : String → Prop
  | empty : EndsToken ""
  | marker {c : Char} (hmarker : c ∈ markers) : EndsToken (String.singleton c)
  | typeChar (start : String) {c : Char} (htype : isTypeChar c = true) : EndsToken (start.push c)

/-- Behind a type character the parser goes on as at the start of the tokens, wherever that is. -/
theorem parseRuns_typeChar_append {c : Char} (htype : isTypeChar c = true) (start more : List Char)
    (pending : Option PendingCount) (position : Nat) :
    ∃ next, parseRuns pending position (start ++ [c] ++ more) =
      parseRuns pending position (start ++ [c]) >>= fun runs =>
        (parseRuns none next more).map (runs ++ ·) := by
  induction start generalizing pending position with
  | nil =>
    refine ⟨position + c.utf8Size, ?_⟩
    simp only [List.nil_append, List.singleton_append, parseRuns, isDigit_of_isTypeChar htype,
      htype]
    cases parseRuns none (position + c.utf8Size) more <;> rfl
  | cons d start ih =>
    rw [List.cons_append, List.cons_append, parseRuns, parseRuns]
    by_cases hdigit : d.isDigit = true
    · simp only [if_pos hdigit]
      cases pushDigit pending position (digitValue d) with
      | error e => exact ⟨0, rfl⟩
      | ok count => exact ih (some count) (position + d.utf8Size)
    · simp only [if_neg hdigit]
      by_cases hfirst : isTypeChar d = true
      · obtain ⟨next, hnext⟩ := ih none (position + d.utf8Size)
        refine ⟨next, ?_⟩
        simp only [if_pos hfirst, hnext]
        cases parseRuns none (position + d.utf8Size) (start ++ [c]) with
        | error e => rfl
        | ok runs => cases parseRuns none next more <;> rfl
      · simp only [if_neg hfirst]
        exact ⟨0, rfl⟩

/-- Where neither of two texts begins with a marker, the one behind the other does not. -/
theorem not_mem_markers_append {chars more : List Char} (hchars : ∀ c ∈ chars.head?, c ∉ markers)
    (hmore : ∀ c ∈ more.head?, c ∉ markers) : ∀ c ∈ (chars ++ more).head?, c ∉ markers := by
  cases chars with
  | nil => exact hmore
  | cons c chars => exact hchars

/-- Behind a text at whose end no token is open the parser goes on as at the start of the tokens.
-/
theorem EndsToken.parseRuns_append {text : String} (h : EndsToken text) (more : List Char) :
    ∃ next, parseRuns none (splitMarker text.toList).2.1 ((splitMarker text.toList).2.2 ++ more) =
      parseRuns none (splitMarker text.toList).2.1 (splitMarker text.toList).2.2 >>= fun runs =>
        (parseRuns none next more).map (runs ++ ·) := by
  have hnil : ∀ position, ∃ next, parseRuns none position ([] ++ more) =
      parseRuns none position [] >>= fun runs => (parseRuns none next more).map (runs ++ ·) :=
    fun position => ⟨position, (congrFun Except.map_id _).symm⟩
  cases h with
  | empty => exact hnil _
  | @marker c hmarker =>
    obtain ⟨mode, hmode⟩ := Option.isSome_iff_exists.mp (isMarker_iff.mpr hmarker)
    have hsplit : splitMarker [c] = (mode, c.utf8Size, []) := by rw [splitMarker, hmode]
    rw [String.toList_singleton, hsplit]
    exact hnil _
  | @typeChar start c htype =>
    obtain ⟨marker, rest, hmarker, hrest, hchars⟩ := exists_marker_append start.toList
    -- The type character is no marker, so that it still ends what is left without the marker.
    have hlast : ∀ d ∈ [c].head?, d ∉ markers :=
      Spelling.not_mem_markers_of_head? [Token.single c htype]
    have hsplit := splitMarker_eq hmarker
      fun hnone => not_mem_markers_append (hrest hnone) hlast
    rw [String.toList_push, hchars, List.append_assoc, hsplit]
    exact parseRuns_typeChar_append htype rest more none _

/-- Where no token is open, tokens can be inserted and add their runs. What follows them is read in
the same way wherever it stands. -/
theorem parse_insert_eq_ok_iff {p s : String} {format : Format} (hp : EndsToken p)
    (hs : ∀ c ∈ s.toList.head?, c ∉ markers) (tokens : List Token) :
    parse (p ++ String.ofList (tokens.flatMap Token.text) ++ s) = .ok format ↔
      ∃ first rest, parse p = .ok first ∧ parseRuns none 0 s.toList = .ok rest ∧
        ⟨first.mode, first.runs ++ (tokens.map Token.run ++ rest)⟩ = format := by
  have htokens := Spelling.not_mem_markers_of_head? tokens
  have hsplit : splitMarker (p ++ String.ofList (tokens.flatMap Token.text) ++ s).toList =
      ((splitMarker p.toList).1, (splitMarker p.toList).2.1,
        (splitMarker p.toList).2.2 ++ (tokens.flatMap Token.text ++ s.toList)) := by
    rw [String.toList_append, String.toList_append, String.toList_ofList, List.append_assoc]
    exact splitMarker_append fun _ => not_mem_markers_append htokens hs
  obtain ⟨next, hnext⟩ := hp.parseRuns_append (tokens.flatMap Token.text ++ s.toList)
  rw [parse, parse, hsplit]
  simp only [hnext, parseRuns_tokens_append]
  generalize splitMarker p.toList = split
  obtain ⟨mode, position, body⟩ := split
  constructor
  · intro h
    obtain ⟨runs, hruns, hformat⟩ := bind_eq_ok_iff.mp h
    obtain ⟨own, hown, hmore⟩ := bind_eq_ok_iff.mp hruns
    obtain ⟨_, hinserted, rfl⟩ := map_eq_ok_iff.mp hmore
    obtain ⟨rest, hrest, rfl⟩ := map_eq_ok_iff.mp hinserted
    exact ⟨⟨mode, own⟩, rest, bind_eq_ok_iff.mpr ⟨own, hown, rfl⟩,
      parseRuns_of_position hrest 0, Except.ok.inj hformat⟩
  · rintro ⟨first, rest, hfirst, hrest, rfl⟩
    obtain ⟨own, hown, hformat⟩ := bind_eq_ok_iff.mp hfirst
    obtain rfl := Except.ok.inj hformat
    refine bind_eq_ok_iff.mpr ⟨_, bind_eq_ok_iff.mpr ⟨own, hown, map_eq_ok_iff.mpr
      ⟨tokens.map Token.run ++ rest, map_eq_ok_iff.mpr ⟨rest, ?_, rfl⟩, rfl⟩⟩, rfl⟩
    exact parseRuns_of_position hrest _

end BinaryRecord.Format
