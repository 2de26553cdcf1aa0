import BinaryRecord.Proofs.Outcome
import BinaryRecord.Stream.Source

/-!
# Calls to a source

A run of calls to a source is the list of them, each with what it asks for and what it gets. `Plays`
says that a source answers the calls one after the other. Whatever they ask for, the bytes that they
get are the first of those that the source holds, and it holds the others after them
(`Plays.bytes_eq`): none is left out, and none is delivered twice.
-/

namespace BinaryRecord

/-- One call to a source. -/
structure SourceCall where
  /-- The number of bytes that it asks for. -/
  limit : Nat
  /-- What it gets. -/
  result : Except StreamError (List UInt8)

/-- The bytes that are delivered in a call. -/
def SourceCall.bytes (call : SourceCall) : List UInt8 :=
  match call.result with
  | .ok bytes => bytes
  | .error _ => []

/-- The bytes that are delivered in calls, in order. -/
def delivered (calls : List SourceCall) : List UInt8 :=
  calls.flatMap SourceCall.bytes

/-- The bytes of the first call are delivered first. -/
theorem delivered_cons (call : SourceCall) (calls : List SourceCall) :
    delivered (call :: calls) = call.bytes ++ delivered calls :=
  List.flatMap_cons

/-! ## What calls ask for -/

/-- Each of the calls asks for those of the `missing` bytes that the calls before it did not get. -/
def AskForRest (missing : Nat) (calls : List SourceCall) : Prop :=
  ∀ earlier call later, calls = earlier ++ call :: later →
    call.limit + (delivered earlier).length = missing

/-- Where there are no calls, none asks for anything else. -/
theorem AskForRest.nil (missing : Nat) : AskForRest missing [] := by
  intro earlier call later h
  simp at h

/-- The first call asks for all that is missing, and the others for what is missing after it. -/
theorem AskForRest.cons {call : SourceCall} {calls : List SourceCall}
    (hbytes : call.bytes.length ≤ call.limit)
    (h : AskForRest (call.limit - call.bytes.length) calls) :
    AskForRest call.limit (call :: calls) := by
  intro earlier other later hcalls
  cases earlier with
  | nil =>
    obtain ⟨rfl, -⟩ := List.cons.inj hcalls
    rfl
  | cons first earlier =>
    obtain ⟨rfl, hrest⟩ := List.cons.inj hcalls
    have hother := h earlier other later hrest
    rw [delivered_cons, List.length_append]
    omega

/-! ## What calls get -/

/-- The bytes that a source has for one event. -/
def SourceEvent.bytes : SourceEvent → List UInt8
  | .data first rest => first :: rest
  | .failure _ => []
  | .ended => []

namespace Source

variable {source after : Source} {limit : Nat}

/-- All the bytes that a source holds. -/
def bytes (source : Source) : List UInt8 :=
  source.script.flatMap SourceEvent.bytes

/-- What is put back in front of the bytes of a source is held in front of them. -/
theorem bytes_deliver (front : List UInt8) (source : Source) :
    (deliver front source).bytes = front ++ source.bytes := by
  cases front with
  | nil => rfl
  | cons first rest => exact List.flatMap_cons

/-- A call gets the first of the bytes that the source holds, and leaves the others. -/
theorem bytes_read {result : Except StreamError (List UInt8)}
    (h : source.read limit = (result, after)) :
    source.bytes = SourceCall.bytes ⟨limit, result⟩ ++ after.bytes := by
  obtain ⟨script⟩ := source
  unfold read at h
  split at h <;> rename_i hscript <;> obtain ⟨rfl, rfl⟩ := Prod.mk.inj h <;> cases hscript
  case h_1 => rfl
  case h_2 => rfl
  case h_3 => rfl
  case h_4 first rest script =>
    rw [bytes_deliver]
    show first :: rest ++ _ = _ ++ (_ ++ _)
    rw [← List.append_assoc, SourceCall.bytes, List.take_append_drop]
    rfl

/-- A call gets no more bytes than it asks for. -/
theorem length_bytes_read_le {result : Except StreamError (List UInt8)}
    (h : source.read limit = (result, after)) :
    (SourceCall.bytes ⟨limit, result⟩).length ≤ limit := by
  unfold read at h
  split at h <;> obtain ⟨rfl, -⟩ := Prod.mk.inj h
  case h_4 => exact List.length_take_le _ _
  all_goals exact Nat.zero_le _

/-- The source answers the calls one after the other, and then is as `after` says. -/
inductive Plays : Source → List SourceCall → Source → Prop
  | nil (source : Source) : Plays source [] source
  | cons {source next after : Source} {call : SourceCall} {calls : List SourceCall}
      (hread : source.read call.limit = (call.result, next)) (hrest : Plays next calls after) :
      Plays source (call :: calls) after

/-- More calls are answered by the source that the first ones have left. -/
theorem Plays.append {next : Source} {calls more : List SourceCall} (h : source.Plays calls next)
    (hmore : next.Plays more after) : source.Plays (calls ++ more) after := by
  induction h with
  | nil => exact hmore
  | cons hread _ ih => exact .cons hread (ih hmore)

/-- The calls get the first of the bytes that the source holds, and leave the others. -/
theorem Plays.bytes_eq {calls : List SourceCall} (h : source.Plays calls after) :
    source.bytes = delivered calls ++ after.bytes := by
  induction h with
  | nil => rfl
  | cons hread _ ih => rw [delivered_cons, List.append_assoc, ← ih, bytes_read hread]

end Source

end BinaryRecord
