import BinaryRecord.Stream.Error

/-!
# Sinks for bytes

A sink takes bytes in calls to `write`, of which each takes as many as the sink's limits allow, and
keeps them. It may interrupt its first calls, and when it can take nothing it either fails or takes
no bytes. `Sink.writeAll` calls `write` until all bytes are taken. It makes an interrupted call
again, and gives up when a call takes nothing.
-/

namespace BinaryRecord

/-- A sink for bytes. -/
structure Sink where
  /-- The number of bytes that it can hold, if that is limited. -/
  capacity : Option Nat
  /-- The largest number of bytes that it takes in one call, if that is limited. -/
  chunk : Option Nat
  /-- The number of calls to come that are interrupted. -/
  interrupts : Nat
  /-- The text with which a call fails that can take nothing, if it fails. -/
  fullError : Option String
  /-- The text with which it fails to flush, if it does. -/
  flushError : Option String
  /-- The bytes taken so far. -/
  held : List UInt8
  deriving DecidableEq, Repr

namespace Sink

/-- How many of `length` bytes the sink takes in one call. -/
def room (sink : Sink) (length : Nat) : Nat :=
  let taken := match sink.chunk with
    | some chunk => min length chunk
    | none => length
  match sink.capacity with
  | some capacity => min taken (capacity - sink.held.length)
  | none => taken

/-- One call with the bytes, which gives the number that were taken. -/
def write (sink : Sink) (bytes : List UInt8) : Except StreamError Nat × Sink :=
  if 0 < sink.interrupts then
    (.error ⟨.interrupted, "interrupted"⟩, { sink with interrupts := sink.interrupts - 1 })
  else
    match sink.room bytes.length, sink.fullError with
    | 0, some text => (.error ⟨.other, text⟩, sink)
    | taken, _ => (.ok taken, { sink with held := sink.held ++ bytes.take taken })

/-- An interrupted call is one less to come. -/
theorem interrupts_write_lt {sink after : Sink} {bytes : List UInt8} {error : StreamError}
    (h : sink.write bytes = (.error error, after)) (hkind : error.kind = .interrupted) :
    after.interrupts < sink.interrupts := by
  unfold write at h
  split at h
  · simp only [Prod.mk.injEq] at h
    rw [← h.2]
    simp only
    omega
  · split at h <;> simp only [Prod.mk.injEq, Except.error.injEq, reduceCtorEq, false_and] at h
    rw [← h.1] at hkind
    cases hkind

/-- A call that takes bytes is none of the interrupted ones. -/
theorem interrupts_write_eq {sink after : Sink} {bytes : List UInt8} {taken : Nat}
    (h : sink.write bytes = (.ok taken, after)) : after.interrupts = sink.interrupts := by
  unfold write at h
  split at h
  · simp at h
  · split at h <;> simp only [Prod.mk.injEq, reduceCtorEq, false_and] at h
    rw [← h.2]

/-- Calls the sink until it has taken all the bytes. -/
def writeAll (sink : Sink) (bytes : List UInt8) : Except StreamError Unit × Sink :=
  if bytes = [] then (.ok (), sink)
  else
    match h : sink.write bytes with
    | (.ok 0, sink) => (.error .writeZero, sink)
    | (.ok (taken + 1), sink) => sink.writeAll (bytes.drop (taken + 1))
    | (.error error, sink) =>
      if error.kind = .interrupted then sink.writeAll bytes else (.error error, sink)
termination_by bytes.length + sink.interrupts
decreasing_by
  · have := interrupts_write_eq h
    have := List.length_pos_iff.2 ‹bytes ≠ []›
    simp only [List.length_drop]
    omega
  · have := interrupts_write_lt h ‹_›
    omega

/-- Flushes the sink. -/
def flush (sink : Sink) : Except StreamError Unit :=
  match sink.flushError with
  | some text => .error ⟨.other, text⟩
  | none => .ok ()

end Sink

end BinaryRecord
