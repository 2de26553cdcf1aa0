import BinaryRecord.Format
import Mathlib

/-!
# The grammar of formats

A spelling is a text taken apart: an optional mode marker, then tokens, each some decimal digits and
a type character. `Spelling.text` puts it together again, and `Spelling.format` is what it stands
for. `Spelling.eq_of_text_eq` says that no text is taken apart in two ways: the digits of a token
end at its type character, which is no digit, and a marker is neither a digit nor a type character.
-/

namespace BinaryRecord.Format

/-! ## Tokens -/

/-- The number that decimal digits stand for. -/
def decimalValue (digits : List Char) : Nat :=
  Nat.ofDigitChars 10 digits 0

/-- One more digit multiplies the number by ten and adds the digit. -/
theorem decimalValue_concat (digits : List Char) (c : Char) :
    decimalValue (digits ++ [c]) = decimalValue digits * 10 + digitValue c := by
  rw [decimalValue, decimalValue, Nat.ofDigitChars_append, Nat.ofDigitChars_cons,
    Nat.ofDigitChars_nil, digitValue, Nat.mul_comm]

/-- More digits never make the number smaller. -/
theorem decimalValue_le_append (digits more : List Char) :
    decimalValue digits ≤ decimalValue (digits ++ more) := by
  have hpos : 0 < 10^more.length := Nat.pow_pos (by decide)
  have hvalue : decimalValue (digits ++ more) =
      10^more.length * decimalValue digits + decimalValue more := by
    rw [decimalValue, Nat.ofDigitChars_append, Nat.ofDigitChars_eq_ofDigitChars_zero]
    rfl
  rw [hvalue]
  exact Nat.le_add_right_of_le (Nat.le_mul_of_pos_left _ hpos)

/-- A digit alone stands for its value. -/
theorem decimalValue_singleton (c : Char) : decimalValue [c] = digitValue c := by
  simpa [decimalValue] using decimalValue_concat [] c

/-- A digit alone is small enough for a count. -/
theorem digitValue_le {c : Char} (h : c.isDigit = true) : digitValue c ≤ Size.maxSize := by
  have hc : c.toNat ≤ '9'.toNat := by
    simp only [Char.isDigit, Bool.and_eq_true, decide_eq_true_eq] at h
    exact h.2
  have hnine : '9'.toNat - '0'.toNat ≤ Size.maxSize := by decide
  exact Nat.le_trans (Nat.sub_le_sub_right hc _) hnine

/-- A type character is no digit. -/
theorem isDigit_of_isTypeChar {c : Char} (h : isTypeChar c = true) : c.isDigit = false := by
  have hall : typeChars.all (fun d => !d.isDigit) = true := by decide
  simpa using List.all_eq_true.mp hall c (List.contains_iff_mem.mp h)

/-- One token of a format. -/
@[ext]
structure Token where
  /-- The digits of the repeat count, none where there is no count. -/
  digits : List Char
  /-- The type character. -/
  typeChar : Char
  /-- The digits are decimal digits. -/
  isDigit_of_mem : ∀ c ∈ digits, c.isDigit = true
  /-- The count is not too large. -/
  decimalValue_le : decimalValue digits ≤ Size.maxSize
  /-- The type character may stand as one. -/
  isTypeChar_typeChar : isTypeChar typeChar = true

namespace Token

/-- The characters of a token. -/
def text (token : Token) : List Char :=
  token.digits ++ [token.typeChar]

/-- What a token stands for. Without digits the count is 1, and a count of 0 stays. -/
def run (token : Token) : Run :=
  ⟨token.typeChar, if token.digits = [] then 1 else decimalValue token.digits⟩

/-- The type character of a token ends its digits. -/
theorem takeWhile_text (token : Token) (rest : List Char) :
    (token.text ++ rest).takeWhile Char.isDigit = token.digits := by
  rw [text, List.append_assoc, List.takeWhile_append_of_pos token.isDigit_of_mem]
  simp [isDigit_of_isTypeChar token.isTypeChar_typeChar]

/-- Behind the digits of a token stands its type character. -/
theorem dropWhile_text (token : Token) (rest : List Char) :
    (token.text ++ rest).dropWhile Char.isDigit = token.typeChar :: rest := by
  rw [text, List.append_assoc, List.dropWhile_append_of_pos token.isDigit_of_mem]
  simp [isDigit_of_isTypeChar token.isTypeChar_typeChar]

/-- Where a text begins with a token, no other token begins it. -/
theorem text_append_inj {s t : Token} {rest rest' : List Char}
    (h : s.text ++ rest = t.text ++ rest') : s = t ∧ rest = rest' := by
  have hdigits : s.digits = t.digits := by rw [← takeWhile_text s rest, h, takeWhile_text]
  have hafter : s.typeChar :: rest = t.typeChar :: rest' := by
    rw [← dropWhile_text s rest, h, dropWhile_text]
  obtain ⟨htypeChar, hrest⟩ := List.cons.inj hafter
  exact ⟨Token.ext hdigits htypeChar, hrest⟩

/-- No text is made of tokens in two ways. -/
theorem eq_of_flatMap_text_eq {tokens tokens' : List Token}
    (h : tokens.flatMap text = tokens'.flatMap text) : tokens = tokens' := by
  induction tokens generalizing tokens' with
  | nil =>
    cases tokens' with
    | nil => rfl
    | cons token tokens' => simp [text] at h
  | cons token tokens ih =>
    cases tokens' with
    | nil => simp [text] at h
    | cons token' tokens' =>
      obtain ⟨rfl, hrest⟩ := text_append_inj h
      rw [ih hrest]

/-- A type character alone is a token, without a count. -/
def single (c : Char) (htype : isTypeChar c = true) : Token :=
  ⟨[], c, nofun, Nat.zero_le _, htype⟩

/-- A type character written several times is as many tokens. -/
theorem flatMap_text_replicate_single (n : Nat) {c : Char} (htype : isTypeChar c = true) :
    (List.replicate n (single c htype)).flatMap text = List.replicate n c := by
  rw [List.flatMap_replicate]
  exact List.flatten_replicate_singleton

/-- For every type character and every count that is not too large there is a token. -/
theorem exists_run_eq {run : Run} (htype : isTypeChar run.typeChar = true)
    (hcount : run.count ≤ Size.maxSize) : ∃ token : Token, token.run = run := by
  have hvalue : decimalValue (Nat.toDigits 10 run.count) = run.count :=
    Nat.ofDigitChars_ten_toDigits
  refine ⟨⟨Nat.toDigits 10 run.count, run.typeChar, ?_, by rwa [hvalue], htype⟩, ?_⟩
  · intro c hc
    exact Nat.isDigit_of_mem_toDigits (by decide) (by decide) hc
  · simp only [Token.run, if_neg Nat.toDigits_ne_nil, hvalue]

end Token

/-! ## Spellings -/

/-- The characters that select a mode. -/
def markers : List Char := ['@', '=', '<', '>', '!']

/-- The markers are the characters to which a mode belongs. -/
theorem isMarker_iff {c : Char} : Mode.isMarker c = true ↔ c ∈ markers := by
  constructor
  · unfold Mode.isMarker Mode.ofMarker?
    split <;> simp [markers]
  · have hall : markers.all Mode.isMarker = true := by decide
    exact List.all_eq_true.mp hall c

/-- A text taken apart. -/
@[ext]
structure Spelling where
  /-- The mode marker, if there is one. -/
  marker : Option Char
  /-- The tokens. -/
  tokens : List Token
  /-- The marker is one of the markers. -/
  mem_markers : ∀ c ∈ marker, c ∈ markers

namespace Spelling

/-- The text that is taken apart. -/
def text (spelling : Spelling) : String :=
  String.ofList (spelling.marker.toList ++ spelling.tokens.flatMap Token.text)

/-- The mode that the marker selects, which is the aligned one without a marker. -/
def mode (spelling : Spelling) : Mode :=
  (spelling.marker.bind Mode.ofMarker?).getD .nativeAligned

/-- What the text says. -/
def format (spelling : Spelling) : Format :=
  ⟨spelling.mode, spelling.tokens.map Token.run⟩

/-- No token begins with a marker. -/
theorem not_mem_markers_of_tokens {tokens : List Token} {c : Char} {rest : List Char}
    (h : tokens.flatMap Token.text = c :: rest) : c ∉ markers := by
  have hall : markers.all (fun d => !d.isDigit && !isTypeChar d) = true := by decide
  intro hc
  obtain ⟨hdigit, htype⟩ : c.isDigit = false ∧ isTypeChar c = false := by
    simpa using List.all_eq_true.mp hall c hc
  cases tokens with
  | nil => simp at h
  | cons token tokens =>
    -- The first character is a digit of the first token or, if that has none, its type character.
    cases hdigits : token.digits with
    | nil =>
      have hfirst : token.typeChar = c := by simp_all [Token.text]
      have := token.isTypeChar_typeChar
      simp_all
    | cons d digits =>
      have hfirst : d = c := by simp_all [Token.text]
      have := token.isDigit_of_mem d (by simp [hdigits])
      simp_all

/-- What stands first in tokens is no marker. -/
theorem not_mem_markers_of_head? (tokens : List Token) :
    ∀ c ∈ (tokens.flatMap Token.text).head?, c ∉ markers := by
  intro c hc
  obtain ⟨rest, hrest⟩ := List.head?_eq_some_iff.mp hc
  exact not_mem_markers_of_tokens hrest

/-- No text is taken apart in two ways. -/
theorem eq_of_text_eq {s t : Spelling} (h : s.text = t.text) : s = t := by
  have hchars : s.marker.toList ++ s.tokens.flatMap Token.text =
      t.marker.toList ++ t.tokens.flatMap Token.text := by
    simpa [text] using congrArg String.toList h
  -- The first character tells whether there is a marker.
  have hmarker : s.marker = t.marker ∧
      s.tokens.flatMap Token.text = t.tokens.flatMap Token.text := by
    cases hs : s.marker with
    | none =>
      cases ht : t.marker with
      | none => simpa [hs, ht] using hchars
      | some c =>
        rw [hs, ht] at hchars
        exact absurd (t.mem_markers c ht) (not_mem_markers_of_tokens hchars)
    | some c =>
      cases ht : t.marker with
      | none =>
        rw [hs, ht] at hchars
        exact absurd (s.mem_markers c hs) (not_mem_markers_of_tokens hchars.symm)
      | some d => simpa [hs, ht] using hchars
  exact Spelling.ext hmarker.1 (Token.eq_of_flatMap_text_eq hmarker.2)

/-- Every list of runs, behind any marker or none, has a spelling. -/
theorem exists_runs_eq {marker : Option Char} {runs : List Run}
    (hmarker : ∀ c ∈ marker, c ∈ markers)
    (hruns : ∀ run ∈ runs, isTypeChar run.typeChar = true ∧ run.count ≤ Size.maxSize) :
    ∃ spelling : Spelling, spelling.marker = marker ∧ spelling.format.runs = runs := by
  induction runs with
  | nil => exact ⟨⟨marker, [], hmarker⟩, rfl, rfl⟩
  | cons run runs ih =>
    obtain ⟨htype, hcount⟩ := hruns run (by simp)
    obtain ⟨token, rfl⟩ := Token.exists_run_eq htype hcount
    obtain ⟨spelling, -, rfl⟩ := ih (fun other hother => hruns other (by simp [hother]))
    exact ⟨⟨marker, token :: spelling.tokens, hmarker⟩, rfl, rfl⟩

end Spelling

end BinaryRecord.Format
