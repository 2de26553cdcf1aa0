import BinaryRecord.Proofs.Outcome
import BinaryRecord.Stream.Source

/-!
# Sources that deliver bytes

A source delivers bytes when its calls hand them out in order, in pieces of any sizes, however often
it interrupts a call (`Delivers`). `Delivers.read` says what one call to such a source does, and
`Delivers.fill` what comes of calling it until a number of bytes is there: these are the next bytes,
as many as were asked for if there are so many, whatever the pieces are and wherever the
interruptions fall.
-/

namespace BinaryRecord.Source

variable {source : Source} {bytes : List UInt8}

/-- The source hands out the bytes in pieces and then has ended. As long as there are bytes left, a
call gets at least one of them, and from then on it gets none. Any call may be interrupted, before
the last byte and after it. -/
inductive Delivers : Source → List UInt8 → Prop
  | nil : Delivers ⟨[]⟩ []
  | ended {script : List SourceEvent} (hrest : Delivers ⟨script⟩ []) :
      Delivers ⟨.ended :: script⟩ []
  | piece {script : List SourceEvent} {bytes : List UInt8} (first : UInt8) (more : List UInt8)
      (hrest : Delivers ⟨script⟩ bytes) :
      Delivers ⟨.data first more :: script⟩ (first :: more ++ bytes)
  | interrupted {script : List SourceEvent} {bytes : List UInt8} {error : StreamError}
      (hkind : error.kind = .interrupted) (hrest : Delivers ⟨script⟩ bytes) :
      Delivers ⟨.failure error :: script⟩ bytes

/-- What is put back in front of the bytes of a source is delivered before them. -/
theorem Delivers.deliver (h : source.Delivers bytes) (front : List UInt8) :
    (deliver front source).Delivers (front ++ bytes) := by
  cases front with
  | nil => exact h
  | cons first more => exact .piece first more h

/-! ## One call -/

variable {after : Source} {limit : Nat}

/-- A call that gets a piece gets the next bytes, at most as many as were asked for, and the bytes
after them are still to come. The piece is empty only when there are no bytes left. -/
theorem Delivers.read_ok {piece : List UInt8} (h : source.Delivers bytes) (hlimit : 0 < limit)
    (hread : source.read limit = (.ok piece, after)) :
    ∃ rest, piece ++ rest = bytes ∧ piece.length ≤ limit ∧ (piece = [] → bytes = []) ∧
      after.Delivers rest := by
  cases h with
  | nil =>
    obtain ⟨hpiece, rfl⟩ := Prod.mk.inj hread
    obtain rfl := Except.ok.inj hpiece
    exact ⟨[], rfl, Nat.zero_le _, fun _ => rfl, .nil⟩
  | ended hrest =>
    obtain ⟨hpiece, rfl⟩ := Prod.mk.inj hread
    obtain rfl := Except.ok.inj hpiece
    exact ⟨[], rfl, Nat.zero_le _, fun _ => rfl, hrest⟩
  | @piece _ bytes first more hrest =>
    obtain ⟨hpiece, rfl⟩ := Prod.mk.inj hread
    obtain rfl := Except.ok.inj hpiece
    -- What was not asked for stays in front of the other bytes.
    refine ⟨(first :: more).drop limit ++ bytes, ?_, ?_, ?_, hrest.deliver _⟩
    · rw [← List.append_assoc, List.take_append_drop]
    · rw [List.length_take]
      exact Nat.min_le_left _ _
    · intro hempty
      obtain ⟨n, rfl⟩ := Nat.exists_eq_succ_of_ne_zero hlimit.ne'
      simp at hempty
  | interrupted => simp [Source.read] at hread

/-- A call that fails was interrupted, and the same bytes are still to come. -/
theorem Delivers.read_error {error : StreamError} (h : source.Delivers bytes)
    (hread : source.read limit = (.error error, after)) :
    error.kind = .interrupted ∧ after.Delivers bytes := by
  cases h with
  | interrupted hkind hrest =>
    obtain ⟨herror, rfl⟩ := Prod.mk.inj hread
    obtain rfl := Except.error.inj herror
    exact ⟨hkind, hrest⟩
  | _ => simp [Source.read] at hread

/-! ## Calls until a number of bytes is there -/

variable {missing : Nat} {filled : List UInt8}

/-- Where no bytes are missing, no call is made. -/
theorem fill_zero (source : Source) (filled : List UInt8) :
    source.fill 0 filled = (.complete filled, source) := by
  rw [fill, if_pos rfl]

/-- A call that gets nothing is the end. -/
theorem fill_of_read_nil (hmissing : missing ≠ 0) (h : source.read missing = (.ok [], after)) :
    source.fill missing filled = (.ended filled, after) := by
  rw [fill, if_neg hmissing]
  split <;> simp_all

/-- A call that gets a piece is followed by calls for what is missing then. -/
theorem fill_of_read_piece {piece : List UInt8} (hmissing : missing ≠ 0) (hpiece : piece ≠ [])
    (h : source.read missing = (.ok piece, after)) :
    source.fill missing filled = after.fill (missing - piece.length) (filled ++ piece) := by
  obtain ⟨first, more, rfl⟩ := List.exists_cons_of_ne_nil hpiece
  rw [fill, if_neg hmissing]
  split <;> simp_all

/-- A call that is interrupted is made again. -/
theorem fill_of_interrupted {error : StreamError} (hmissing : missing ≠ 0)
    (h : source.read missing = (.error error, after)) (hkind : error.kind = .interrupted) :
    source.fill missing filled = after.fill missing filled := by
  rw [fill, if_neg hmissing]
  split <;> simp_all

/-- A call that fails is the last. -/
theorem fill_of_failed {error : StreamError} (hmissing : missing ≠ 0)
    (h : source.read missing = (.error error, after)) (hkind : error.kind ≠ .interrupted) :
    source.fill missing filled = (.failed error, after) := by
  rw [fill, if_neg hmissing]
  split <;> simp_all

/-- Calling a source until `missing` more bytes are there gives the next bytes that it delivers, as
many as are missing. If it has fewer, it ends after all of them. -/
theorem Delivers.fill (h : source.Delivers bytes) (missing : Nat) (filled : List UInt8) :
    ∃ after, source.fill missing filled =
        (if missing ≤ bytes.length then .complete (filled ++ bytes.take missing)
          else .ended (filled ++ bytes), after) ∧
      after.Delivers (bytes.drop missing) := by
  -- Every call gets some of the missing bytes or uses up an event of the script.
  induction source, missing, filled using fill.induct generalizing bytes with
  | case1 source filled =>
    rw [fill_zero]
    exact ⟨source, by simp, h⟩
  | case2 source missing filled hmissing after hread =>
    obtain ⟨rest, rfl, -, hempty, hrest⟩ := h.read_ok (Nat.pos_of_ne_zero hmissing) hread
    obtain rfl : rest = [] := hempty rfl
    rw [fill_of_read_nil hmissing hread]
    exact ⟨after, by simp [hmissing], by simpa using hrest⟩
  | case3 source missing filled hmissing first more after hread ih =>
    obtain ⟨rest, rfl, hle, -, hrest⟩ := h.read_ok (Nat.pos_of_ne_zero hmissing) hread
    obtain ⟨last, hfill, hlast⟩ := ih hrest
    -- The piece is the first of the bytes, and none of it goes beyond what is missing.
    have henough : missing - (first :: more).length ≤ rest.length ↔
        missing ≤ (first :: more ++ rest).length := by
      rw [List.length_append, Nat.sub_le_iff_le_add']
    refine ⟨last, ?_, ?_⟩
    · rw [fill_of_read_piece hmissing (List.cons_ne_nil _ _) hread, hfill, List.take_append,
        List.take_of_length_le hle, List.append_assoc, List.append_assoc]
      simp only [henough]
    · rwa [List.drop_append, List.drop_of_length_le hle]
  | case4 source missing filled hmissing error after hread hkind ih =>
    obtain ⟨-, hrest⟩ := h.read_error hread
    rw [fill_of_interrupted hmissing hread hkind]
    exact ih hrest
  | case5 source missing filled hmissing error after hread hkind =>
    exact absurd (h.read_error hread).1 hkind

end BinaryRecord.Source
