import BinaryRecord.Proofs.Schema.RecordCursor

/-!
# Cursors over records are list cursors

`Iteration` says what can be asked of an iterator, which may be copied on the way, and runs requests
to several of them: one step function runs cursors over records (`RecordCursor.step`) and another
one runs lists (`Iteration.listStep`), of which the first element is the next one. `IsListCursor`
says that the two give the same answers, whatever the requests are, where the list is that of the
results of unpacking the records of the buffer one by one (`Schema.results`).

A list is recovered from a cursor as what is still to come (`RecordCursor.rest`). This commutes with
every step of a cursor that stands between records (`RecordCursor.listStep_rest`), and so with runs
of any number of copies (`Iteration.run_map`).
-/

namespace BinaryRecord

/-! ## Iteration -/

namespace Iteration

/-- What can be asked of an iterator. -/
inductive Call where
  /-- The next item. -/
  | next
  /-- The item after `n` others. -/
  | nth (n : Nat)
  /-- The number of items still to come. -/
  | length
  /-- Bounds on that number. -/
  | sizeHint

/-- What an iterator answers. -/
inductive Answer (α : Type) where
  /-- An item, or none. -/
  | item (item : Option α)
  /-- A number of items. -/
  | count (n : Nat)
  /-- A least number of items and, if it is known, a largest one. -/
  | bounds (least : Nat) (most : Option Nat)

/-- A request to one of several iterators, of which the first has index 0. -/
inductive Request where
  /-- A call to the iterator of the index. -/
  | call (index : Nat) (call : Call)
  /-- A copy of the iterator of the index, which becomes the last of the iterators. -/
  | clone (index : Nat)

variable {α σ τ : Type}

/-- One call to a list as an iterator. The items are its elements, first to last. -/
def listStep (items : List α) : Call → Answer α × List α
  | .next => (.item items.head?, items.tail)
  | .nth n => (.item items[n]?, items.drop (n + 1))
  | .length => (.count items.length, items)
  | .sizeHint => (.bounds items.length (some items.length), items)

/-- A call to one of several iterators, given what it does to one. There is no answer where there is
no iterator of the index. -/
def callAt (step : σ → Call → Answer α × σ) (iterators : List σ) (index : Nat) (call : Call) :
    Option (Answer α) × List σ :=
  match iterators[index]? with
  | some iterator => (some (step iterator call).1, iterators.set index (step iterator call).2)
  | none => (none, iterators)

/-- One request to several iterators. There is no answer to a copy. -/
def perform (step : σ → Call → Answer α × σ) (iterators : List σ) :
    Request → Option (Answer α) × List σ
  | .call index call => callAt step iterators index call
  | .clone index => (none, iterators ++ iterators[index]?.toList)

/-- The answers to the requests, first to last. -/
def answers (step : σ → Call → Answer α × σ) (iterators : List σ) :
    List Request → List (Option (Answer α))
  | [] => []
  | request :: requests =>
    (perform step iterators request).1 :: answers step (perform step iterators request).2 requests

/-- The iterators after the requests. -/
def after (step : σ → Call → Answer α × σ) (iterators : List σ) (requests : List Request) :
    List σ :=
  requests.foldl (fun iterators request => (perform step iterators request).2) iterators

variable {step : σ → Call → Answer α × σ} {other : τ → Call → Answer α × τ} {iterators : List σ}
  {f : σ → τ} {P : σ → Prop}

/-- A call to one iterator changes no other. -/
theorem getElem?_callAt_of_ne (step : σ → Call → Answer α × σ) (iterators : List σ)
    {index j : Nat} (call : Call) (h : index ≠ j) :
    (callAt step iterators index call).2[j]? = iterators[j]? := by
  unfold callAt
  split
  · exact List.getElem?_set_ne h
  · rfl

/-- What every call keeps of an iterator is kept of all iterators by a request. -/
theorem forall_mem_perform (hkeep : ∀ iterator, P iterator → ∀ call, P (step iterator call).2)
    (h : ∀ iterator ∈ iterators, P iterator) (request : Request) :
    ∀ iterator ∈ (perform step iterators request).2, P iterator := by
  intro iterator hmem
  cases request with
  | call index call =>
    change iterator ∈ (callAt step iterators index call).2 at hmem
    unfold callAt at hmem
    split at hmem
    case h_1 moved hmoved =>
      rcases List.mem_or_eq_of_mem_set hmem with hmem | rfl
      · exact h iterator hmem
      · exact hkeep moved (h moved (List.mem_of_getElem? hmoved)) call
    case h_2 => exact h iterator hmem
  | clone index =>
    rcases List.mem_append.mp hmem with hmem | hmem
    · exact h iterator hmem
    · exact h iterator (List.mem_of_getElem? (Option.mem_toList.mp hmem))

/-- Where one step function does to the images of iterators what another does to the iterators, a
request has the same answer and the images of its results. -/
theorem perform_map (hstep : ∀ iterator, P iterator → ∀ call,
      other (f iterator) call = ((step iterator call).1, f (step iterator call).2))
    (h : ∀ iterator ∈ iterators, P iterator) (request : Request) :
    perform other (iterators.map f) request =
      ((perform step iterators request).1, (perform step iterators request).2.map f) := by
  cases request with
  | call index call =>
    show callAt other (iterators.map f) index call =
      ((callAt step iterators index call).1, (callAt step iterators index call).2.map f)
    unfold callAt
    rw [List.getElem?_map]
    cases hiterator : iterators[index]? with
    | none => rfl
    | some iterator =>
      have hsame := hstep iterator (h iterator (List.mem_of_getElem? hiterator)) call
      simp only [Option.map_some, hsame, List.map_set]
  | clone index =>
    show (none, iterators.map f ++ (iterators.map f)[index]?.toList) =
      (none, (iterators ++ iterators[index]?.toList).map f)
    rw [List.map_append, List.getElem?_map]
    cases iterators[index]? <;> rfl

/-- So do any requests, where calls keep what this depends on. -/
theorem run_map (hkeep : ∀ iterator, P iterator → ∀ call, P (step iterator call).2)
    (hstep : ∀ iterator, P iterator → ∀ call,
      other (f iterator) call = ((step iterator call).1, f (step iterator call).2))
    (h : ∀ iterator ∈ iterators, P iterator) (requests : List Request) :
    answers other (iterators.map f) requests = answers step iterators requests ∧
      after other (iterators.map f) requests = (after step iterators requests).map f ∧
      ∀ iterator ∈ after step iterators requests, P iterator := by
  induction requests generalizing iterators with
  | nil => exact ⟨rfl, rfl, h⟩
  | cons request requests ih =>
    obtain ⟨hanswers, hafter, hall⟩ := ih (forall_mem_perform hkeep h request)
    have hrequest := perform_map hstep h request
    refine ⟨?_, ?_, hall⟩
    · unfold answers
      rw [hrequest, hanswers]
    · show after other (perform other (iterators.map f) request).2 requests = _
      rw [hrequest]
      exact hafter

end Iteration

/-! ## The results of a buffer -/

namespace Schema

variable {schema : Schema} {bytes : List UInt8}

/-- The results of unpacking the records of a buffer, first to last. -/
def results (schema : Schema) (bytes : List UInt8) : List (Except PackError (List Value)) :=
  (List.range (bytes.length / schema.size)).map fun i => schema.unpack (schema.recordAt bytes i)

/-- There is a result for every record. -/
theorem length_results (schema : Schema) (bytes : List UInt8) :
    (schema.results bytes).length = bytes.length / schema.size := by
  unfold results
  rw [List.length_map, List.length_range]

/-- The result at an index is that of unpacking the record there. -/
theorem getElem_results {i : Nat} (hi : i < (schema.results bytes).length) :
    (schema.results bytes)[i] = schema.unpack (schema.recordAt bytes i) := by
  simp only [results, List.getElem_map, List.getElem_range]

/-- Unpacking a record gives the same as unpacking at its offset in the buffer. -/
theorem unpackFrom_eq_unpack_recordAt {i : Nat} (hi : i < bytes.length / schema.size) :
    schema.unpackFrom bytes (i * schema.size) = schema.unpack (schema.recordAt bytes i) := by
  have hend : (i + 1) * schema.size ≤ bytes.length :=
    (Nat.mul_le_mul_right _ hi).trans (Nat.div_mul_le_self _ _)
  rw [Nat.succ_mul] at hend
  unfold unpackFrom recordEnd
  rw [if_pos hend]
  show schema.unpack (bytes.extract (i * schema.size) (i * schema.size + schema.size)) = _
  rw [extract_eq_slice]
  rfl

end Schema

/-! ## Cursors -/

namespace RecordCursor

open Iteration (Call Answer listStep)

variable {cursor : RecordCursor}

/-- One call to a cursor as an iterator. -/
def step (cursor : RecordCursor) : Call → Answer (Except PackError (List Value)) × RecordCursor
  | .next => (.item cursor.next.1, cursor.next.2)
  | .nth n => (.item (cursor.nth n).1, (cursor.nth n).2)
  | .length => (.count cursor.length, cursor)
  | .sizeHint => (.bounds cursor.sizeHint.1 cursor.sizeHint.2, cursor)

/-- The results of the records still to come. -/
def rest (cursor : RecordCursor) : List (Except PackError (List Value)) :=
  (cursor.schema.results cursor.bytes.toList).drop (cursor.position / cursor.schema.size)

namespace Aligned

/-- A record that stands at the cursor is the first of the rest. -/
theorem rest_eq_cons (h : cursor.Aligned) (hnext : cursor.hasNext = true) :
    cursor.rest = cursor.current :: cursor.advance.rest := by
  have hpos := cursor.size_pos
  have hend := hasNext_eq_true_iff.mp hnext
  obtain ⟨i, hposition⟩ := h.size_dvd_position
  rw [Nat.mul_comm] at hposition
  have hindex : cursor.position / cursor.schema.size = i := by
    rw [hposition, Nat.mul_div_cancel _ hpos]
  have hadvance : cursor.advance.position / cursor.advance.schema.size = i + 1 := by
    show (cursor.position + cursor.schema.size) / cursor.schema.size = i + 1
    rw [Nat.add_div_right _ hpos, hindex]
  have hi : i < (cursor.schema.results cursor.bytes.toList).length := by
    rw [Schema.length_results, Array.length_toList, ← Nat.succ_le_iff, Nat.le_div_iff_mul_le hpos,
      Nat.succ_mul, ← hposition]
    exact hend
  have hcurrent : (cursor.schema.results cursor.bytes.toList)[i] = cursor.current := by
    rw [Schema.getElem_results, current, Array.toList_extract, extract_eq_slice, hposition]
    rfl
  unfold rest
  rw [hindex, hadvance, List.drop_eq_getElem_cons hi, hcurrent]
  rfl

/-- At the end there is no rest. -/
theorem rest_eq_nil (h : cursor.Aligned) (hnext : ¬ cursor.hasNext = true) : cursor.rest = [] := by
  have hposition : cursor.bytes.size ≤ cursor.position :=
    Nat.not_lt.mp (h.hasNext_iff.not.mp hnext)
  unfold rest
  apply List.drop_of_length_le
  rw [Schema.length_results, Array.length_toList]
  exact Nat.div_le_div_right hposition

/-- The rest has as many results as there are records still to come. -/
theorem length_rest (h : cursor.Aligned) : cursor.rest.length = cursor.length := by
  obtain ⟨i, hposition⟩ := h.size_dvd_position
  unfold rest length
  rw [List.length_drop, Schema.length_results, Array.length_toList, hposition,
    Nat.mul_div_cancel_left _ cursor.size_pos, Nat.sub_mul_div]

/-- The next record is the first of the rest, and the others are the rest from then on. -/
theorem next_eq (h : cursor.Aligned) :
    cursor.next.1 = cursor.rest.head? ∧ cursor.next.2.rest = cursor.rest.tail := by
  unfold RecordCursor.next
  by_cases hnext : cursor.hasNext = true
  · rw [if_pos hnext, h.rest_eq_cons hnext]
    exact ⟨rfl, rfl⟩
  · rw [if_neg hnext]
    show none = cursor.rest.head? ∧ cursor.rest = cursor.rest.tail
    rw [h.rest_eq_nil hnext]
    exact ⟨rfl, rfl⟩

/-- Going past `n` records to the next one leaves all of them out of the rest. -/
theorem nth_eq (h : cursor.Aligned) (n : Nat) :
    (cursor.nth n).1 = cursor.rest[n]? ∧ (cursor.nth n).2.rest = cursor.rest.drop (n + 1) := by
  induction n generalizing cursor with
  | zero =>
    obtain ⟨hitem, hrest⟩ := h.next_eq
    exact ⟨hitem.trans List.head?_eq_getElem?, hrest.trans List.drop_one.symm⟩
  | succ n ih =>
    unfold RecordCursor.nth RecordCursor.next
    by_cases hnext : cursor.hasNext = true
    · rw [if_pos hnext, h.rest_eq_cons hnext]
      exact ih (h.advance hnext)
    · rw [if_neg hnext]
      show none = cursor.rest[n + 1]? ∧ cursor.rest = cursor.rest.drop (n + 1 + 1)
      rw [h.rest_eq_nil hnext]
      exact ⟨rfl, rfl⟩

end Aligned

/-- A cursor on the buffer, which stands between its records. -/
structure IsOn (cursor : RecordCursor) (schema : Schema) (bytes : List UInt8) : Prop where
  /-- The records are of the schema. -/
  schema_eq : cursor.schema = schema
  /-- The buffer is that of the bytes. -/
  bytes_eq : cursor.bytes = bytes.toArray
  /-- The cursor stands between two records or at one of the ends. -/
  aligned : cursor.Aligned

namespace IsOn

variable {schema : Schema} {bytes : List UInt8}

/-- Past the next record, the cursor is on the buffer. -/
theorem next (h : cursor.IsOn schema bytes) : cursor.next.2.IsOn schema bytes := by
  obtain ⟨hschema, hbytes⟩ := cursor.schema_bytes_after 1
  exact ⟨hschema.trans h.schema_eq, hbytes.trans h.bytes_eq, h.aligned.next⟩

/-- Past any number of records, the cursor is on the buffer. -/
theorem nth (h : cursor.IsOn schema bytes) (n : Nat) : (cursor.nth n).2.IsOn schema bytes := by
  induction n generalizing cursor with
  | zero => exact h.next
  | succ n ih =>
    have hmoved := h.next
    unfold RecordCursor.nth
    split
    case h_1 moved heq =>
      rw [heq] at hmoved
      exact ih hmoved
    case h_2 moved heq =>
      rw [heq] at hmoved
      exact hmoved

/-- Every call leaves the cursor on the buffer. -/
theorem step (h : cursor.IsOn schema bytes) (call : Call) :
    (cursor.step call).2.IsOn schema bytes := by
  cases call with
  | next => exact h.next
  | nth n => exact h.nth n
  | length => exact h
  | sizeHint => exact h

/-- A call to a cursor is one to the list of what is still to come. -/
theorem listStep_rest (h : cursor.IsOn schema bytes) (call : Call) :
    listStep cursor.rest call = ((cursor.step call).1, (cursor.step call).2.rest) := by
  have hlength := h.aligned.length_rest
  cases call with
  | next =>
    obtain ⟨hitem, hrest⟩ := h.aligned.next_eq
    show (Answer.item cursor.rest.head?, cursor.rest.tail) =
      (.item cursor.next.1, cursor.next.2.rest)
    rw [hitem, hrest]
  | nth n =>
    obtain ⟨hitem, hrest⟩ := h.aligned.nth_eq n
    show (Answer.item cursor.rest[n]?, cursor.rest.drop (n + 1)) =
      (.item (cursor.nth n).1, (cursor.nth n).2.rest)
    rw [hitem, hrest]
  | length =>
    show (Answer.count cursor.rest.length, cursor.rest) = (.count cursor.length, cursor.rest)
    rw [hlength]
  | sizeHint =>
    show (Answer.bounds cursor.rest.length (some cursor.rest.length), cursor.rest) =
      (.bounds cursor.length (some cursor.length), cursor.rest)
    rw [hlength]

end IsOn

end RecordCursor

/-! ## List cursors -/

namespace Schema

open Iteration (answers after callAt listStep)

variable {schema : Schema} {bytes : List UInt8}

/-- A cursor over the records of the buffer, with all copies of it, is one over the list of their
results. -/
structure IsListCursor (schema : Schema) (bytes : List UInt8) : Prop where
  /-- There is a cursor exactly when the buffer is a whole number of records. -/
  cursor_iff : (∃ cursor, schema.cursor bytes = .ok cursor) ↔ schema.size ∣ bytes.length
  /-- Any other buffer is refused for its length. -/
  cursor_of_not_dvd : ¬ schema.size ∣ bytes.length →
    schema.cursor bytes = .error (.raggedBuffer schema.size bytes.length)
  /-- The list has a result for each record. -/
  length_results : (schema.results bytes).length = bytes.length / schema.size
  /-- It is that of unpacking the bytes of the record, which is the same as unpacking at the offset
  of the record in the buffer. -/
  getElem?_results : ∀ i < bytes.length / schema.size,
    (schema.results bytes)[i]? =
        some (schema.unpack (slice bytes (i * schema.size) schema.size)) ∧
      schema.unpackFrom bytes (i * schema.size) =
        schema.unpack (slice bytes (i * schema.size) schema.size)
  /-- Whatever is asked of the cursor and its copies, the answers are those of the list. -/
  answers_eq : ∀ cursor, schema.cursor bytes = .ok cursor → ∀ requests,
    answers RecordCursor.step [cursor] requests = answers listStep [schema.results bytes] requests
  /-- What is still to come is what is left of the lists, for the cursor and for each copy. -/
  rest_eq : ∀ cursor, schema.cursor bytes = .ok cursor → ∀ requests,
    (after RecordCursor.step [cursor] requests).map RecordCursor.rest =
      after listStep [schema.results bytes] requests
  /-- All of them stand on the buffer, a whole number of records behind its start. -/
  position_of_mem : ∀ cursor, schema.cursor bytes = .ok cursor → ∀ requests,
    ∀ moved ∈ after RecordCursor.step [cursor] requests,
      moved.schema = schema ∧ moved.bytes = bytes.toArray ∧ schema.size ∣ moved.position ∧
        moved.position ≤ bytes.length
  /-- No position is too large for the next step, where the buffer takes less than half of what
  sizes can say. -/
  position_add_size_le : bytes.length < 2^63 → schema.size ≤ Size.maxSize →
    ∀ cursor, schema.cursor bytes = .ok cursor → ∀ requests,
      ∀ moved ∈ after RecordCursor.step [cursor] requests,
        moved.position + schema.size ≤ Size.maxSize
  /-- A call to one of several cursors moves none of the others. -/
  getElem?_callAt : ∀ (cursors : List RecordCursor) (index j : Nat) (call : Iteration.Call),
    index ≠ j → (callAt RecordCursor.step cursors index call).2[j]? = cursors[j]?

/-- A new cursor is on the buffer, and all results are still to come. -/
theorem isOn_of_cursor {cursor : RecordCursor} (h : schema.cursor bytes = .ok cursor) :
    cursor.IsOn schema bytes ∧ cursor.rest = schema.results bytes := by
  have haligned := aligned_of_cursor h
  obtain ⟨-, rfl, hbytes, hposition⟩ := cursor_eq_ok_iff.mp h
  refine ⟨⟨rfl, hbytes, haligned⟩, ?_⟩
  unfold RecordCursor.rest
  rw [hbytes, hposition, Nat.zero_div, List.drop_zero]

/-- The cursors that come of a new one are all on the buffer, and are images of lists. -/
theorem run_cursor {cursor : RecordCursor} (h : schema.cursor bytes = .ok cursor)
    (requests : List Iteration.Request) :
    answers listStep [schema.results bytes] requests =
        answers RecordCursor.step [cursor] requests ∧
      after listStep [schema.results bytes] requests =
        (after RecordCursor.step [cursor] requests).map RecordCursor.rest ∧
      ∀ moved ∈ after RecordCursor.step [cursor] requests, moved.IsOn schema bytes := by
  obtain ⟨hon, hrest⟩ := isOn_of_cursor h
  rw [← hrest]
  exact Iteration.run_map (P := fun cursor : RecordCursor => cursor.IsOn schema bytes)
    (fun cursor hcursor => hcursor.step) (fun cursor hcursor => hcursor.listStep_rest)
    (fun moved hmoved => List.mem_singleton.mp hmoved ▸ hon) requests

/-- Cursors over records of at least one byte are list cursors. -/
theorem isListCursor (hsize : 0 < schema.size) (bytes : List UInt8) :
    schema.IsListCursor bytes := by
  constructor
  case cursor_iff =>
    constructor
    · rintro ⟨cursor, hcursor⟩
      exact (cursor_eq_ok_iff.mp hcursor).1
    · intro hdvd
      exact ⟨⟨schema, bytes.toArray, 0, hsize⟩, cursor_eq_ok_iff.mpr ⟨hdvd, rfl, rfl, rfl⟩⟩
  case cursor_of_not_dvd =>
    intro hdvd
    unfold Schema.cursor
    rw [dif_neg hsize.ne', if_neg (fun hmod => hdvd (Nat.dvd_of_mod_eq_zero hmod))]
  case length_results => exact schema.length_results bytes
  case getElem?_results =>
    intro i hi
    have hlength := schema.length_results bytes
    constructor
    · rw [List.getElem?_eq_getElem (by omega), getElem_results]
      rfl
    · exact unpackFrom_eq_unpack_recordAt hi
  case answers_eq =>
    intro cursor hcursor requests
    exact (run_cursor hcursor requests).1.symm
  case rest_eq =>
    intro cursor hcursor requests
    exact (run_cursor hcursor requests).2.1.symm
  case position_of_mem =>
    intro cursor hcursor requests moved hmoved
    have hon := (run_cursor hcursor requests).2.2 moved hmoved
    obtain ⟨hschema, hbytes, haligned⟩ := hon
    refine ⟨hschema, hbytes, hschema ▸ haligned.size_dvd_position, ?_⟩
    have hle := haligned.position_le
    rwa [hbytes] at hle
  case position_add_size_le =>
    intro hbytes hmax cursor hcursor requests moved hmoved
    have hon := (run_cursor hcursor requests).2.2 moved hmoved
    have hle := hon.aligned.position_add_size_le (by rw [hon.bytes_eq]; exact hbytes)
      (by rw [hon.schema_eq]; exact hmax)
    rwa [hon.schema_eq] at hle
  case getElem?_callAt =>
    intro cursors index j call hne
    exact Iteration.getElem?_callAt_of_ne _ cursors call hne

/-- Records of two bytes. -/
theorem isListCursor_two_bytes : ∃ schema, compile .generous "<H" = .ok schema ∧ 0 < schema.size ∧
    schema.IsListCursor [1, 0, 2, 0, 3, 0] := by
  have hcompile : compile .generous "<H" =
      .ok ⟨"<H", .little, [⟨'H', .unsigned, 2, 2⟩], ⟨[0], 2⟩, 1⟩ := by
    decide +kernel
  have hsize : 0 < size ⟨"<H", .little, [⟨'H', .unsigned, 2, 2⟩], ⟨[0], 2⟩, 1⟩ := by decide
  exact ⟨_, hcompile, hsize, isListCursor hsize _⟩

end Schema

end BinaryRecord
