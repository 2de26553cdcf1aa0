import BinaryRecord.Stream.Error

/-!
# Sources of bytes

A source plays a script, one event for each call to `read`: it delivers some bytes, fails, or gives
none, which says that it has ended. After the script it has ended for good. `Source.fill` calls
`read` until a number of bytes is there, and asks each time for what is still missing. It makes an
interrupted call again, and stops at any other failure and at an end.
-/

namespace BinaryRecord

/-- What a source does in one call. -/
inductive SourceEvent where
  /-- It has at least one byte to deliver. -/
  | data (first : UInt8) (rest : List UInt8)
  /-- It fails. -/
  | failure (error : StreamError)
  /-- It gives no bytes. -/
  | ended
  deriving DecidableEq, Repr

/-- A source of bytes. -/
structure Source where
  /-- What it does in the calls to come. -/
  script : List SourceEvent
  deriving DecidableEq, Repr

/-- How an attempt to read a number of bytes comes out. -/
inductive Filling where
  /-- All the bytes are there. -/
  | complete (bytes : List UInt8)
  /-- The source ended after these bytes. -/
  | ended (bytes : List UInt8)
  /-- The source failed. -/
  | failed (error : StreamError)
  deriving DecidableEq, Repr

namespace Source

/-- The source whose next call delivers the bytes, if there are any. -/
def deliver (bytes : List UInt8) (source : Source) : Source :=
  match bytes with
  | [] => source
  | first :: rest => ⟨.data first rest :: source.script⟩

/-- One call for up to `limit` bytes. Bytes of a delivery beyond the limit stay for the next call.
-/
def read (source : Source) (limit : Nat) : Except StreamError (List UInt8) × Source :=
  match source.script with
  | [] => (.ok [], source)
  | .ended :: script => (.ok [], ⟨script⟩)
  | .failure error :: script => (.error error, ⟨script⟩)
  | .data first rest :: script =>
    (.ok ((first :: rest).take limit), deliver ((first :: rest).drop limit) ⟨script⟩)

/-- Bytes that are left over from a delivery take at most one event of the script. -/
theorem length_script_deliver_le (bytes : List UInt8) (source : Source) :
    (deliver bytes source).script.length ≤ source.script.length + 1 := by
  unfold deliver
  split <;> simp

/-- A call never makes the script longer. -/
theorem length_script_read_le {source after : Source} {limit : Nat}
    {result : Except StreamError (List UInt8)} (h : source.read limit = (result, after)) :
    after.script.length ≤ source.script.length := by
  unfold read at h
  split at h <;> rename_i heq <;> obtain ⟨-, rfl⟩ := Prod.mk.inj h
  · exact Nat.le_refl _
  · simp [heq]
  · simp [heq]
  · rw [heq]
    exact length_script_deliver_le _ _

/-- A call that fails uses up an event of the script. -/
theorem length_script_read_lt {source after : Source} {limit : Nat} {error : StreamError}
    (h : source.read limit = (.error error, after)) :
    after.script.length < source.script.length := by
  unfold read at h
  split at h <;> simp only [Prod.mk.injEq, reduceCtorEq, false_and] at h
  rename_i heq
  simp [heq, ← h.2]

/-- Calls the source until `missing` more bytes are there, in addition to those that are. -/
def fill (source : Source) (missing : Nat) (bytes : List UInt8) : Filling × Source :=
  if missing = 0 then (.complete bytes, source)
  else
    match _h : source.read missing with
    | (.ok [], source) => (.ended bytes, source)
    | (.ok (first :: rest), source) =>
      source.fill (missing - (first :: rest).length) (bytes ++ first :: rest)
    | (.error error, source) =>
      if error.kind = .interrupted then source.fill missing bytes else (.failed error, source)
termination_by missing + source.script.length
decreasing_by
  · have := length_script_read_le ‹_›
    simp only [List.length_cons]
    omega
  · have := length_script_read_lt ‹_›
    omega

end Source

end BinaryRecord
