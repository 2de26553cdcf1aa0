import BinaryRecord.Proofs.Format.Append

/-!
# The first fault of a text

Every text begins with a longest spelling, which may be empty (`IsLongest`), and is a format when
nothing is left behind it. Otherwise what is left decides the error (`IsFault`). It begins with some
digits, or none. If their number is too large, that is the fault, whatever follows them. If not, and
they end the text, a type character is missing behind them. If not, the character behind them is no
type character. The first two are faults of the count and stand at its first digit, and the third
stands at the character itself.

`parse_eq_error_iff` says so of all texts, and that the position of an error is always that of a
character in the text (`PointsInto`).
-/

namespace BinaryRecord.Format

variable {text : String} {spelling other : Spelling} {tokens others : List Token}
  {before digits rest more : List Char} {c : Char} {pending : Option PendingCount}
  {position : Nat} {e : FormatError}

/-! ## The longest spelling -/

/-- The text begins with the spelling, behind which `rest` is left, and with no longer one. -/
structure IsLongest (text : String) (spelling : Spelling) (rest : List Char) : Prop where
  /-- The text is the spelling and the rest. -/
  append_eq : spelling.text ++ String.ofList rest = text
  /-- No spelling with which the text begins leaves less. -/
  length_le : ∀ (other : Spelling) (more : List Char),
    other.text ++ String.ofList more = text → rest.length ≤ more.length

/-- There is only one longest spelling. -/
theorem IsLongest.unique (h : IsLongest text spelling rest) (hother : IsLongest text other more) :
    other = spelling ∧ more = rest := by
  have hchars : other.text.toList ++ more = spelling.text.toList ++ rest := by
    simpa using congrArg String.toList (hother.append_eq.trans h.append_eq.symm)
  have hlength : more.length = rest.length :=
    Nat.le_antisymm (hother.length_le _ _ h.append_eq) (h.length_le _ _ hother.append_eq)
  obtain ⟨htext, hrest⟩ := List.append_inj' hchars hlength
  exact ⟨Spelling.eq_of_text_eq (String.toList_inj.mp htext), hrest⟩

/-- The characters do not begin with a token. -/
def StartsNoToken (rest : List Char) : Prop :=
  ∀ (token : Token) (more : List Char), token.text ++ more ≠ rest

/-- Tokens can be taken off the front of characters until none is left there. -/
theorem exists_tokens_append (chars : List Char) : ∃ (tokens : List Token) (rest : List Char),
    tokens.flatMap Token.text ++ rest = chars ∧ StartsNoToken rest := by
  -- A token has at least a type character, so that each one leaves fewer characters.
  induction hlength : chars.length using Nat.strong_induction_on generalizing chars with
  | _ n ih =>
    by_cases hstart : StartsNoToken chars
    · exact ⟨[], chars, rfl, hstart⟩
    · simp only [StartsNoToken, not_forall, not_not] at hstart
      obtain ⟨token, more, rfl⟩ := hstart
      have hless : more.length < n := by
        rw [← hlength, Token.text, List.length_append, List.length_append, List.length_singleton]
        omega
      obtain ⟨tokens, rest, htokens, hrest⟩ := ih more.length hless more rfl
      exact ⟨token :: tokens, rest, by rw [List.flatMap_cons, List.append_assoc, htokens], hrest⟩

/-- Taking off tokens until there are no more leaves the least. -/
theorem StartsNoToken.length_le (hrest : StartsNoToken rest)
    (h : others.flatMap Token.text ++ more = tokens.flatMap Token.text ++ rest) :
    rest.length ≤ more.length := by
  induction others generalizing tokens with
  | nil =>
    rw [List.flatMap_nil, List.nil_append] at h
    rw [h, List.length_append]
    omega
  | cons other others ih =>
    rw [List.flatMap_cons, List.append_assoc] at h
    cases tokens with
    | nil => exact absurd h (hrest other _)
    | cons token tokens =>
      rw [List.flatMap_cons, List.append_assoc] at h
      obtain ⟨-, hbehind⟩ := Token.text_append_inj h
      exact ih hbehind

/-- A spelling is the longest where no token follows and no marker was passed over. -/
theorem StartsNoToken.isLongest (hrest : StartsNoToken rest)
    (hmarker : spelling.marker = none →
      ∀ c ∈ (spelling.tokens.flatMap Token.text ++ rest).head?, c ∉ markers) :
    IsLongest (spelling.text ++ String.ofList rest) spelling rest := by
  refine ⟨rfl, fun other more h => ?_⟩
  have hchars : other.marker.toList ++ (other.tokens.flatMap Token.text ++ more) =
      spelling.marker.toList ++ (spelling.tokens.flatMap Token.text ++ rest) := by
    simpa [Spelling.text] using congrArg String.toList h
  cases hown : spelling.marker with
  | none =>
    cases hothers : other.marker with
    | none =>
      rw [hown, hothers] at hchars
      exact hrest.length_le hchars
    | some c =>
      rw [hown, hothers] at hchars
      have hfirst := hmarker hown c (by rw [← hchars.trans (List.nil_append _)]; rfl)
      exact absurd (other.mem_markers c hothers) hfirst
  | some c =>
    cases hothers : other.marker with
    | none =>
      -- The other spelling has passed over the marker, and no token begins with it.
      rw [hown, hothers] at hchars
      cases htokens : other.tokens.flatMap Token.text with
      | nil =>
        rw [htokens] at hchars
        have hlength := congrArg List.length hchars
        simp only [Option.toList_none, Option.toList_some, List.nil_append, List.length_append,
          List.length_singleton] at hlength
        omega
      | cons d chars =>
        rw [htokens] at hchars
        obtain rfl : d = c := (List.cons.inj hchars).1
        exact absurd (spelling.mem_markers d hown) (Spelling.not_mem_markers_of_tokens htokens)
    | some d =>
      rw [hown, hothers] at hchars
      exact hrest.length_le (List.cons.inj hchars).2

/-- A text is taken apart into its marker, if it has one, tokens as long as there are any, and what
is left. -/
theorem exists_spelling_append (text : String) : ∃ (spelling : Spelling) (rest : List Char),
    spelling.text ++ String.ofList rest = text ∧ StartsNoToken rest ∧
      (spelling.marker = none →
        ∀ c ∈ (spelling.tokens.flatMap Token.text ++ rest).head?, c ∉ markers) := by
  obtain ⟨marker, chars, hmem, hfirst, htext⟩ := exists_marker_append text.toList
  obtain ⟨tokens, rest, rfl, hrest⟩ := exists_tokens_append chars
  refine ⟨⟨marker, tokens, hmem⟩, rest, ?_, hrest, hfirst⟩
  rw [Spelling.text, ← String.toList_inj, htext]
  simp

/-! ## Faults -/

/-- What is wrong with characters at a position where a token should start. -/
inductive IsFault (position : Nat) : List Char → FormatError → Prop
  /-- The number of the digits is too large. -/
  | repeatOverflow {digits after : List Char} (hdigits : ∀ c ∈ digits, c.isDigit = true)
      (hafter : ∀ c ∈ after.head?, c.isDigit = false)
      (hlarge : Size.maxSize < decimalValue digits) :
      IsFault position (digits ++ after) (.repeatOverflow position)
  /-- There are digits only. -/
  | missingTypeChar {digits : List Char} (hdigits : ∀ c ∈ digits, c.isDigit = true)
      (hsome : digits ≠ []) (hsmall : decimalValue digits ≤ Size.maxSize) :
      IsFault position digits (.missingTypeChar position)
  /-- What follows the digits, if there are any, is no type character. -/
  | invalidFormatChar {digits after : List Char} {c : Char}
      (hdigits : ∀ c ∈ digits, c.isDigit = true) (hsmall : decimalValue digits ≤ Size.maxSize)
      (hdigit : c.isDigit = false) (htype : isTypeChar c = false) :
      IsFault position (digits ++ c :: after)
        (.invalidFormatChar c (position + byteLength digits))

/-- Where something is left and no token begins it, there is a fault. -/
theorem StartsNoToken.exists_isFault (hrest : StartsNoToken rest) (hsome : rest ≠ [])
    (position : Nat) : ∃ e, IsFault position rest e := by
  have hsplit : rest.takeWhile Char.isDigit ++ rest.dropWhile Char.isDigit = rest :=
    List.takeWhile_append_dropWhile
  have hdigits : ∀ c ∈ rest.takeWhile Char.isDigit, c.isDigit = true :=
    fun c hc => List.mem_takeWhile_imp hc
  have hafter : ∀ c ∈ (rest.dropWhile Char.isDigit).head?, c.isDigit = false := by
    intro c hc
    have hfirst := List.head?_dropWhile_not Char.isDigit rest
    rw [Option.mem_def.mp hc] at hfirst
    exact hfirst
  generalize rest.takeWhile Char.isDigit = digits at hsplit hdigits
  generalize rest.dropWhile Char.isDigit = after at hsplit hafter
  subst hsplit
  by_cases hlarge : Size.maxSize < decimalValue digits
  · exact ⟨_, .repeatOverflow hdigits hafter hlarge⟩
  · have hsmall := Nat.not_lt.mp hlarge
    cases after with
    | nil =>
      rw [List.append_nil] at hsome ⊢
      exact ⟨_, .missingTypeChar hdigits hsome hsmall⟩
    | cons c after =>
      have htype : isTypeChar c = false := by
        by_contra htype
        rw [Bool.not_eq_false] at htype
        refine hrest ⟨digits, c, hdigits, hsmall, htype⟩ after ?_
        rw [Token.text, List.append_assoc, List.singleton_append]
      exact ⟨_, .invalidFormatChar hdigits hsmall (hafter c rfl) htype⟩

/-- Where nothing is left, there is no fault. -/
theorem IsFault.ne_nil (h : IsFault position rest e) : rest ≠ [] := by
  cases h with
  | repeatOverflow hdigits hafter hlarge =>
    intro hnil
    rw [(List.append_eq_nil_iff.mp hnil).1] at hlarge
    exact absurd (Nat.zero_le _) (Nat.not_le.mpr hlarge)
  | missingTypeChar hdigits hsome hsmall => exact hsome
  | invalidFormatChar hdigits hsmall hdigit htype => simp

/-! ## Parsing faults -/

/-- A digit with which the number becomes too large is refused, for the token that it belongs to. -/
theorem pushDigit_of_large (position : Nat) (hpending : Pends digits pending)
    (hc : c.isDigit = true) (hlarge : Size.maxSize < decimalValue (digits ++ [c])) :
    pushDigit pending position (digitValue c) =
      .error (.repeatOverflow (tokenStart pending position)) := by
  cases pending with
  | none =>
    -- The first digit is never too large.
    obtain rfl := hpending.eq_nil
    rw [List.nil_append, decimalValue_singleton] at hlarge
    exact absurd (digitValue_le hc) (Nat.not_le.mpr hlarge)
  | some count =>
    rw [decimalValue_concat, ← hpending.value_eq] at hlarge
    exact if_neg (Nat.not_le.mpr hlarge)

/-- Digits whose number is too large are refused before anything that follows them is looked at. -/
theorem parseRuns_of_large {read : List Char} (position : Nat) (rest : List Char)
    (hpending : Pends read pending) (hdigits : ∀ c ∈ digits, c.isDigit = true)
    (hlarge : Size.maxSize < decimalValue (read ++ digits)) :
    parseRuns pending position (digits ++ rest) =
      .error (.repeatOverflow (tokenStart pending position)) := by
  -- The digits read so far are small enough. One of those to come is the first that is not.
  induction digits generalizing read pending position with
  | nil =>
    rw [List.append_nil] at hlarge
    exact absurd hpending.decimalValue_le (Nat.not_le.mpr hlarge)
  | cons c digits ih =>
    obtain ⟨hc, hdigits⟩ := List.forall_mem_cons.mp hdigits
    rw [List.cons_append, parseRuns, if_pos hc]
    by_cases hfirst : decimalValue (read ++ [c]) ≤ Size.maxSize
    · have hpush := (pushDigit_eq_ok_iff position hpending hc).mpr ⟨rfl, hfirst⟩
      have hnext : Pends (read ++ [c])
          (some ⟨tokenStart pending position, decimalValue (read ++ [c])⟩) :=
        hpending.concat hc hfirst
      rw [hpush]
      exact ih (position + c.utf8Size) hnext hdigits (by rwa [List.append_assoc])
    · rw [pushDigit_of_large position hpending hc (Nat.not_le.mp hfirst)]
      rfl

/-- The parser refuses a fault, with its own error. -/
theorem IsFault.parseRuns_eq (h : IsFault position rest e) :
    parseRuns none position rest = .error e := by
  cases h with
  | repeatOverflow hdigits _ hlarge =>
    exact parseRuns_of_large position _ Pends.nil hdigits hlarge
  | missingTypeChar hdigits hsome hsmall =>
    obtain ⟨after, hafter, hstart, hparse⟩ :=
      parseRuns_digits position [] Pends.nil hdigits hsmall
    rw [List.append_nil] at hparse
    rw [hparse]
    cases after with
    | none => exact absurd hafter.eq_nil hsome
    | some count =>
      have hposition : count.start = position := hstart
      rw [← hposition]
      rfl
  | @invalidFormatChar digits after c hdigits hsmall hdigit htype =>
    obtain ⟨_, -, -, hparse⟩ := parseRuns_digits position (c :: after) Pends.nil hdigits hsmall
    rw [hparse, parseRuns, if_neg (by simp [hdigit]), if_neg (by simp [htype])]

/-- Behind a spelling the parser refuses a fault, with its own error. -/
theorem IsFault.parse_eq (h : IsFault spelling.text.utf8ByteSize rest e)
    (hmarker : spelling.marker = none →
      ∀ c ∈ (spelling.tokens.flatMap Token.text ++ rest).head?, c ∉ markers) :
    parse (spelling.text ++ String.ofList rest) = .error e := by
  have hchars : (spelling.text ++ String.ofList rest).toList =
      spelling.marker.toList ++ (spelling.tokens.flatMap Token.text ++ rest) := by
    simp [Spelling.text]
  have hsize : spelling.text.utf8ByteSize = byteLength spelling.marker.toList +
      byteLength (spelling.tokens.flatMap Token.text) := by
    rw [Spelling.text, utf8ByteSize_ofList, byteLength_append]
  rw [hsize] at h
  rw [parse, hchars, splitMarker_eq spelling.mem_markers hmarker]
  simp only [parseRuns_tokens_append, h.parseRuns_eq]
  rfl

/-! ## Positions -/

/-- The character starts at the position in the text. -/
structure StartsAt (text : String) (c : Char) (position : Nat) : Prop where
  /-- The position is between two characters. -/
  isValid : (String.Pos.Raw.mk position).IsValid text
  /-- The position is not the end of the text. -/
  lt_size : position < text.utf8ByteSize
  /-- The character stands there. -/
  get?_eq : (String.Pos.Raw.mk position).get? text = some c

/-- A character stands behind the bytes of those before it. -/
theorem startsAt_byteLength (before : List Char) (c : Char) (more : List Char) :
    StartsAt (String.ofList (before ++ c :: more)) c (byteLength before) := by
  refine ⟨String.Pos.Raw.isValid_iff_exists_append.mpr
    ⟨String.ofList before, String.ofList (c :: more), ?_, ?_⟩, ?_, ?_⟩
  · rw [String.ofList_append]
  · rw [String.rawEndPos_ofList, byteLength_eq_utf8Len]
  · rw [utf8ByteSize_ofList, byteLength_append]
    have hpos := c.utf8Size_pos
    simp only [byteLength, List.map_cons, List.sum_cons]
    omega
  · rw [byteLength_eq_utf8Len]
    exact String.get?_of_valid before (c :: more)

/-- The error names the position of a character in the text: for a fault of a count that of a digit,
and else that of the character which it names. -/
inductive PointsInto (text : String) : FormatError → Prop
  | repeatOverflow {position : Nat} {c : Char} (hstarts : StartsAt text c position)
      (hdigit : c.isDigit = true) : PointsInto text (.repeatOverflow position)
  | missingTypeChar {position : Nat} {c : Char} (hstarts : StartsAt text c position)
      (hdigit : c.isDigit = true) : PointsInto text (.missingTypeChar position)
  | invalidFormatChar {position : Nat} {c : Char} (hstarts : StartsAt text c position)
      (htype : isTypeChar c = false) : PointsInto text (.invalidFormatChar c position)

/-- A fault names the position of a character in the text. -/
theorem IsFault.pointsInto (h : IsFault (byteLength before) rest e) :
    PointsInto (String.ofList (before ++ rest)) e := by
  cases h with
  | @repeatOverflow digits after hdigits _ hlarge =>
    cases digits with
    | nil => exact absurd (Nat.zero_le _) (Nat.not_le.mpr hlarge)
    | cons c digits =>
      exact .repeatOverflow (startsAt_byteLength before c (digits ++ after))
        (hdigits c List.mem_cons_self)
  | missingTypeChar hdigits hsome _ =>
    obtain ⟨c, digits, rfl⟩ := List.exists_cons_of_ne_nil hsome
    exact .missingTypeChar (startsAt_byteLength before c digits) (hdigits c List.mem_cons_self)
  | @invalidFormatChar digits after c _ _ _ htype =>
    rw [← byteLength_append, ← List.append_assoc]
    exact .invalidFormatChar (startsAt_byteLength (before ++ digits) c after) htype

/-! ## Texts -/

/-- Every text begins with one longest spelling. It is a format exactly when nothing is left behind
that, and else the error is the fault of what is left, behind the bytes of the spelling. The error
names the position of a character in the text. -/
theorem parse_eq_error_iff (text : String) : ∃ (spelling : Spelling) (rest : List Char),
    IsLongest text spelling rest ∧
    (∀ other more, IsLongest text other more → other = spelling ∧ more = rest) ∧
    (∀ format, parse text = .ok format ↔ rest = [] ∧ format = spelling.format) ∧
    (∀ e, parse text = .error e ↔ IsFault spelling.text.utf8ByteSize rest e) ∧
    ∀ e, parse text = .error e → PointsInto text e := by
  obtain ⟨spelling, rest, rfl, hrest, hmarker⟩ := exists_spelling_append text
  have hlongest := hrest.isLongest hmarker
  refine ⟨spelling, rest, hlongest, fun _ _ h => hlongest.unique h, ?_⟩
  by_cases hnil : rest = []
  · subst hnil
    rw [String.ofList_nil, String.append_empty]
    simp only [parse_text]
    refine ⟨fun format => ?_, fun e => ?_, nofun⟩
    · simpa using eq_comm
    · simpa using fun h : IsFault _ [] e => h.ne_nil rfl
  · obtain ⟨fault, hisFault⟩ := hrest.exists_isFault hnil spelling.text.utf8ByteSize
    have hparse := hisFault.parse_eq hmarker
    refine ⟨fun format => ?_, fun e => ⟨fun h => ?_, fun h => h.parse_eq hmarker⟩, fun e h => ?_⟩
    · simp [hparse, hnil]
    · obtain rfl := Except.error.inj (hparse.symm.trans h)
      exact hisFault
    · obtain rfl := Except.error.inj (hparse.symm.trans h)
      rw [Spelling.text, utf8ByteSize_ofList] at hisFault
      rw [Spelling.text, ← String.ofList_append]
      exact hisFault.pointsInto

/-- A count that is too large hides what follows it, and a character of two bytes counts for two. -/
example : parse ">h99999999999999999999é" = .error (.repeatOverflow 2) ∧
    parse "2h7" = .error (.missingTypeChar 2) ∧
    parse "é" = .error (.invalidFormatChar 'é' 0) ∧
    parse "h12>" = .error (.invalidFormatChar '>' 3) := by
  decide +kernel

end BinaryRecord.Format
