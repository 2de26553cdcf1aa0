import BinaryRecord.Proofs.Format.Grammar
import BinaryRecord.Proofs.Outcome

/-!
# The parser accepts the grammar

`parse_eq_ok_iff_spelling` says that the parser accepts a text exactly when it has a spelling, and
gives what the spelling stands for.

The parser holds the digits of an unfinished token as a number, and refuses a number as soon as it
becomes too large. `Pends` relates that number to the digits; more digits never make it smaller, so
that the early refusal is that of the whole count.
-/

namespace BinaryRecord.Format

/-! ## Reading a token -/

/-- The number of bytes of characters in UTF-8. -/
def byteLength (text : List Char) : Nat :=
  (text.map Char.utf8Size).sum

/-- The bytes of characters and of those behind them add up. -/
theorem byteLength_append (text more : List Char) :
    byteLength (text ++ more) = byteLength text + byteLength more := by
  rw [byteLength, List.map_append, List.sum_append, byteLength, byteLength]

/-- The number of bytes is the sum that lengths of texts are computed by. -/
theorem byteLength_eq_utf8Len (text : List Char) : byteLength text = String.utf8Len text := by
  induction text with
  | nil => rfl
  | cons c text ih =>
    rw [String.utf8Len_cons, ← ih, byteLength, List.map_cons, List.sum_cons, byteLength,
      Nat.add_comm]

/-- The bytes of characters are those of their text. -/
theorem utf8ByteSize_ofList (text : List Char) :
    (String.ofList text).utf8ByteSize = byteLength text := by
  rw [byteLength_eq_utf8Len, String.utf8ByteSize_ofList]

/-- The count that is pending after some digits of a token: none before the first digit, and then
the number that the digits stand for. -/
structure Pends (digits : List Char) (pending : Option PendingCount) : Prop where
  isDigit_of_mem : ∀ c ∈ digits, c.isDigit = true
  decimalValue_le : decimalValue digits ≤ Size.maxSize
  map_value : pending.map (·.value) = if digits = [] then none else some (decimalValue digits)

/-- Nothing pends before the first digit. -/
theorem Pends.nil : Pends [] none :=
  ⟨by simp, by decide, rfl⟩

/-- Where nothing pends there is no digit. -/
theorem Pends.eq_nil {digits : List Char} (h : Pends digits none) : digits = [] := by
  have hvalue := h.map_value
  split at hvalue <;> rename_i hdigits
  · exact hdigits
  · simp at hvalue

/-- What pends is the number that the digits stand for. -/
theorem Pends.value_eq {digits : List Char} {count : PendingCount} (h : Pends digits (some count)) :
    count.value = decimalValue digits := by
  have hvalue := h.map_value
  split at hvalue
  · simp at hvalue
  · simpa using hvalue

/-- Taking another digit leaves it pending. -/
theorem Pends.concat {digits : List Char} {pending : Option PendingCount} {c : Char} {start : Nat}
    (hpending : Pends digits pending) (hc : c.isDigit = true)
    (hle : decimalValue (digits ++ [c]) ≤ Size.maxSize) :
    Pends (digits ++ [c]) (some ⟨start, decimalValue (digits ++ [c])⟩) := by
  refine ⟨?_, hle, by simp⟩
  intro d hd
  rcases List.mem_append.mp hd with hd | hd
  · exact hpending.isDigit_of_mem d hd
  · rw [List.mem_singleton.mp hd]
    exact hc

/-- Where the token starts that is being read: at its first digit, or right here before there is
one. -/
def tokenStart (pending : Option PendingCount) (position : Nat) : Nat :=
  (pending.map (·.start)).getD position

/-- Another digit is taken exactly when the number stays small enough. -/
theorem pushDigit_eq_ok_iff {digits : List Char} {pending : Option PendingCount} {c : Char}
    {count : PendingCount} (position : Nat) (hpending : Pends digits pending)
    (hc : c.isDigit = true) :
    pushDigit pending position (digitValue c) = .ok count ↔
      count = ⟨tokenStart pending position, decimalValue (digits ++ [c])⟩ ∧
        decimalValue (digits ++ [c]) ≤ Size.maxSize := by
  cases pending with
  | none =>
    -- The first digit is never too large.
    obtain rfl := hpending.eq_nil
    have hle := digitValue_le hc
    simp only [pushDigit, List.nil_append, decimalValue_singleton, Except.ok.injEq, hle, and_true]
    exact eq_comm
  | some before =>
    rw [decimalValue_concat, ← hpending.value_eq]
    simp only [pushDigit, tokenStart, Option.map_some, Option.getD_some]
    split <;> rename_i hle
    · simp only [Except.ok.injEq, hle, and_true]
      exact eq_comm
    · simp [hle]

/-- The count of a token whose digits have been read. -/
theorem Pends.getD_value {digits : List Char} {pending : Option PendingCount}
    (hpending : Pends digits pending) :
    (pending.map (·.value)).getD 1 = if digits = [] then 1 else decimalValue digits := by
  rw [hpending.map_value]
  split <;> rfl

/-- The parser reads digits as long as their number stays small enough. The token that they belong
to still starts where it did. -/
theorem parseRuns_digits {read digits : List Char} {pending : Option PendingCount}
    (position : Nat) (rest : List Char) (hpending : Pends read pending)
    (hdigits : ∀ c ∈ digits, c.isDigit = true)
    (hle : decimalValue (read ++ digits) ≤ Size.maxSize) :
    ∃ after, Pends (read ++ digits) after ∧
      tokenStart after (position + byteLength digits) = tokenStart pending position ∧
      parseRuns pending position (digits ++ rest) =
        parseRuns after (position + byteLength digits) rest := by
  induction digits generalizing read pending position with
  | nil => exact ⟨pending, by simpa using hpending, rfl, by simp [byteLength]⟩
  | cons c digits ih =>
    -- The number so far is no larger than that of all digits, so that this digit is taken.
    have hc : c.isDigit = true := hdigits c (by simp)
    have happend : read ++ c :: digits = read ++ [c] ++ digits := by simp
    have hposition : position + byteLength (c :: digits) =
        position + c.utf8Size + byteLength digits := by simp [byteLength, Nat.add_assoc]
    rw [happend] at hle ⊢
    have hfirst : decimalValue (read ++ [c]) ≤ Size.maxSize :=
      Nat.le_trans (decimalValue_le_append _ _) hle
    have hpush := (pushDigit_eq_ok_iff position hpending hc).mpr ⟨rfl, hfirst⟩
    have hnext : Pends (read ++ [c])
        (some ⟨tokenStart pending position, decimalValue (read ++ [c])⟩) :=
      hpending.concat hc hfirst
    obtain ⟨after, hafter, hstart, hrest⟩ := ih (position + c.utf8Size) hnext
      (fun d hd => hdigits d (by simp [hd])) hle
    rw [hposition, List.cons_append, parseRuns, if_pos hc, hpush]
    exact ⟨after, hafter, hstart, hrest⟩

/-- The parser reads a whole token and goes on behind it. -/
theorem parseRuns_token (token : Token) (position : Nat) (rest : List Char) :
    parseRuns none position (token.text ++ rest) =
      (parseRuns none (position + byteLength token.text) rest).map (token.run :: ·) := by
  obtain ⟨after, hafter, -, hdigits⟩ := parseRuns_digits position (token.typeChar :: rest)
    Pends.nil token.isDigit_of_mem token.decimalValue_le
  have hnot : ¬ token.typeChar.isDigit = true := by
    simp [isDigit_of_isTypeChar token.isTypeChar_typeChar]
  have hlength : byteLength token.text = byteLength token.digits + token.typeChar.utf8Size := by
    simp [byteLength, Token.text]
  rw [Token.text, List.append_assoc, List.singleton_append, hdigits, parseRuns, if_neg hnot,
    if_pos token.isTypeChar_typeChar, hafter.getD_value, ← Token.text, hlength, ← Nat.add_assoc]
  rfl

/-- Tokens one after the other are read as what they stand for. -/
theorem parseRuns_tokens (tokens : List Token) (position : Nat) :
    parseRuns none position (tokens.flatMap Token.text) = .ok (tokens.map Token.run) := by
  induction tokens generalizing position with
  | nil => rfl
  | cons token tokens ih => rw [List.flatMap_cons, parseRuns_token, ih, List.map_cons]; rfl

/-- What the parser accepts with some digits pending is the rest of a list of tokens. -/
theorem exists_tokens_of_parseRuns {read text : List Char} {pending : Option PendingCount}
    {position : Nat} {runs : List Run} (hpending : Pends read pending)
    (h : parseRuns pending position text = .ok runs) :
    ∃ tokens : List Token, tokens.flatMap Token.text = read ++ text ∧
      tokens.map Token.run = runs := by
  -- The characters read so far are the pending digits; a type character ends the token with them.
  induction text generalizing read pending position runs with
  | nil =>
    cases pending with
    | some count =>
      -- Digits with nothing behind them are refused.
      simp [parseRuns] at h
    | none =>
      obtain rfl := hpending.eq_nil
      obtain rfl : [] = runs := by simpa [parseRuns] using h
      exact ⟨[], rfl, rfl⟩
  | cons c text ih =>
    rw [parseRuns] at h
    by_cases hdigit : c.isDigit = true
    · rw [if_pos hdigit] at h
      obtain ⟨count, hpush, hrest⟩ := bind_eq_ok_iff.mp h
      obtain ⟨rfl, hle⟩ := (pushDigit_eq_ok_iff position hpending hdigit).mp hpush
      obtain ⟨tokens, htext, hruns⟩ := ih (hpending.concat hdigit hle) hrest
      exact ⟨tokens, by simpa using htext, hruns⟩
    · rw [if_neg hdigit] at h
      by_cases htype : isTypeChar c = true
      · rw [if_pos htype] at h
        obtain ⟨others, hrest, hruns⟩ := bind_eq_ok_iff.mp h
        obtain ⟨tokens, htext, rfl⟩ := ih Pends.nil hrest
        refine ⟨⟨read, c, hpending.isDigit_of_mem, hpending.decimalValue_le, htype⟩ :: tokens,
          ?_, ?_⟩
        · simpa [Token.text] using htext
        · rw [hpending.getD_value] at hruns
          simpa [Token.run, pure, Except.pure] using hruns
      · rw [if_neg htype] at h
        simp at h

/-- The type characters of runs are among the characters that they are read from. -/
theorem typeChar_mem_of_parseRuns {position : Nat} {text : List Char} {runs : List Run}
    (h : parseRuns none position text = .ok runs) {run : Run} (hrun : run ∈ runs) :
    run.typeChar ∈ text := by
  obtain ⟨tokens, htext, rfl⟩ := exists_tokens_of_parseRuns Pends.nil h
  obtain ⟨token, htoken, rfl⟩ := List.mem_map.mp hrun
  rw [List.nil_append] at htext
  rw [← htext]
  exact List.mem_flatMap.mpr ⟨token, htoken, by simp [Token.text, Token.run]⟩

/-! ## Whole formats -/

/-- A marker is split off where there is one, and otherwise nothing is. -/
theorem splitMarker_eq {marker : Option Char} {rest : List Char}
    (hmarker : ∀ c ∈ marker, c ∈ markers)
    (hrest : marker = none → ∀ c ∈ rest.head?, c ∉ markers) :
    splitMarker (marker.toList ++ rest) =
      ((marker.bind Mode.ofMarker?).getD .nativeAligned, byteLength marker.toList, rest) := by
  cases marker with
  | none =>
    cases rest with
    | nil => rfl
    | cons c rest =>
      have hnot : Mode.ofMarker? c = none := by
        have h := mt isMarker_iff.mp (hrest rfl c rfl)
        simpa [Mode.isMarker] using h
      simp only [Option.toList_none, List.nil_append, splitMarker, hnot]
      rfl
  | some c =>
    have hsome := isMarker_iff.mpr (hmarker c rfl)
    obtain ⟨mode, hmode⟩ := Option.isSome_iff_exists.mp hsome
    simp [splitMarker, hmode, byteLength]

/-- Every text is a marker, or none, and what follows it. -/
theorem exists_marker_append (chars : List Char) :
    ∃ (marker : Option Char) (rest : List Char), (∀ c ∈ marker, c ∈ markers) ∧
      (marker = none → ∀ c ∈ rest.head?, c ∉ markers) ∧ chars = marker.toList ++ rest := by
  by_cases hmarker : ∃ c ∈ chars.head?, c ∈ markers
  · obtain ⟨c, hc, hmem⟩ := hmarker
    obtain ⟨rest, rfl⟩ := List.head?_eq_some_iff.mp hc
    exact ⟨some c, rest, by simpa using hmem, nofun, rfl⟩
  · refine ⟨none, chars, nofun, fun _ c hc hmem => hmarker ⟨c, hc, hmem⟩, rfl⟩

/-- A spelling is read as what it stands for. -/
theorem parse_text (spelling : Spelling) : parse spelling.text = .ok spelling.format := by
  have hsplit := splitMarker_eq spelling.mem_markers
    fun _ => Spelling.not_mem_markers_of_head? spelling.tokens
  rw [parse, Spelling.text, String.toList_ofList, hsplit]
  simp only [parseRuns_tokens]
  rfl

example : parse ">2h010s" = .ok ⟨.big, [⟨'h', 2⟩, ⟨'s', 10⟩]⟩ := by
  decide +kernel

/-- What the parser accepts has a spelling. -/
theorem exists_spelling_of_parse {text : String} {format : Format}
    (h : parse text = .ok format) :
    ∃ spelling : Spelling, spelling.text = text ∧ spelling.format = format := by
  obtain ⟨marker, rest, hmarker, hrest, hchars⟩ := exists_marker_append text.toList
  rw [parse, hchars, splitMarker_eq hmarker hrest] at h
  obtain ⟨runs, hruns, hformat⟩ := bind_eq_ok_iff.mp h
  obtain ⟨tokens, htext, rfl⟩ := exists_tokens_of_parseRuns Pends.nil hruns
  refine ⟨⟨marker, tokens, hmarker⟩, ?_, ?_⟩
  · rw [Spelling.text, htext, List.nil_append, ← hchars, String.ofList_toList]
  · exact Except.ok.inj hformat

/-- The parser accepts exactly the texts that have a spelling, and gives what the spelling stands
for. No text has two spellings, every spelling is read as what it stands for, and every list of
runs with small enough counts has a spelling behind every marker and behind none. -/
theorem parse_eq_ok_iff_spelling :
    (∀ (text : String) (format : Format), parse text = .ok format ↔
      ∃ spelling : Spelling, spelling.text = text ∧ spelling.format = format) ∧
    (∀ s t : Spelling, s.text = t.text → s = t) ∧
    (∀ spelling : Spelling, parse spelling.text = .ok spelling.format) ∧
    ∀ (marker : Option Char) (runs : List Run), (∀ c ∈ marker, c ∈ markers) →
      (∀ run ∈ runs, isTypeChar run.typeChar = true ∧ run.count ≤ Size.maxSize) →
      ∃ spelling : Spelling, spelling.marker = marker ∧ spelling.format.runs = runs := by
  refine ⟨fun text format => ⟨exists_spelling_of_parse, ?_⟩, fun _ _ => Spelling.eq_of_text_eq,
    parse_text, fun _ _ => Spelling.exists_runs_eq⟩
  rintro ⟨spelling, rfl, rfl⟩
  exact parse_text spelling

end BinaryRecord.Format
