import BinaryRecord.Proofs.Outcome
import BinaryRecord.Stream.Sink

/-!
# Writing to a sink until it is full

`write_outcome` says what one call to a sink does: it is interrupted, takes some of the bytes, or
finds that there is no room, now and ever after (`Full`). Writing all of some bytes therefore has
two outcomes (`writeAll_outcome`): either the sink holds them all, or it holds some of the first but
not all, and is full. A sink without a limit is never full, so that it takes them all
(`Unlimited.writeAll`).
-/

namespace BinaryRecord.Sink

variable {sink after : Sink} {bytes : List UInt8}

/-! ## One call -/

/-- The sink takes no more bytes: no call is interrupted any more, and there is no room in any. -/
structure Full (sink : Sink) : Prop where
  /-- No calls to come are interrupted. -/
  interrupts_eq : sink.interrupts = 0
  /-- There is no room, however many bytes are offered. -/
  room_eq_zero : ∀ length, sink.room length = 0

/-- Where there is no room for some bytes, there is none for any others. -/
theorem room_eq_zero_of_pos {length : Nat} (hpos : 0 < length) (h : sink.room length = 0)
    (other : Nat) : sink.room other = 0 := by
  unfold room at h ⊢
  cases hchunk : sink.chunk <;> cases hcapacity : sink.capacity <;>
    simp only [hchunk, hcapacity] at h ⊢ <;> omega

/-- What may come of one call with some bytes. -/
inductive CallOutcome (sink : Sink) (bytes : List UInt8) : Except StreamError Nat × Sink → Prop
  | interrupted {error : StreamError} (hinterrupts : 0 < sink.interrupts)
      (hkind : error.kind = .interrupted) :
      CallOutcome sink bytes (.error error, { sink with interrupts := sink.interrupts - 1 })
  | taken {taken : Nat} (hroom : sink.room bytes.length = taken + 1) :
      CallOutcome sink bytes
        (.ok (taken + 1), { sink with held := sink.held ++ bytes.take (taken + 1) })
  | nothing (hfull : sink.Full) : CallOutcome sink bytes (.ok 0, sink)
  | failed {error : StreamError} (hfull : sink.Full) (hkind : error.kind ≠ .interrupted) :
      CallOutcome sink bytes (.error error, sink)

/-- A call with some bytes comes to one of these outcomes: only a full sink takes none of them. -/
theorem write_outcome (sink : Sink) (hbytes : bytes ≠ []) :
    CallOutcome sink bytes (sink.write bytes) := by
  unfold write
  split
  case isTrue hinterrupts => exact .interrupted hinterrupts rfl
  case isFalse hinterrupts =>
    cases hroom : sink.room bytes.length with
    | succ taken => exact .taken hroom
    | zero =>
      have hfull : sink.Full :=
        ⟨by omega, room_eq_zero_of_pos (List.length_pos_iff.mpr hbytes) hroom⟩
      split
      case h_1 text hnone htext => exact .failed hfull (by simp)
      case h_2 taken _ hother =>
        have hsame : { sink with held := sink.held ++ bytes.take 0 } = sink := by
          rw [List.take_zero, List.append_nil]
        rw [hsame]
        exact .nothing hfull

/-- What a call with some bytes has come to is one of these outcomes. -/
theorem callOutcome_of_write {outcome : Except StreamError Nat × Sink} (hbytes : bytes ≠ [])
    (h : sink.write bytes = outcome) : CallOutcome sink bytes outcome :=
  h ▸ sink.write_outcome hbytes

/-- Where interruptions are to come, a call leaves its mark on the sink. -/
theorem write_ne_self (hinterrupts : 0 < sink.interrupts) (bytes : List UInt8) :
    (sink.write bytes).2 ≠ sink := by
  intro h
  have hless := congrArg interrupts h
  rw [write, if_pos hinterrupts] at hless
  simp only at hless
  omega

/-! ## All bytes -/

/-- Where there are no bytes, no call is made. -/
theorem writeAll_nil (sink : Sink) : sink.writeAll [] = (.ok (), sink) := by
  rw [writeAll, if_pos rfl]

/-- A call that takes some of the bytes is followed by calls for the others. -/
theorem writeAll_of_taken {taken : Nat} (hbytes : bytes ≠ [])
    (h : sink.write bytes = (.ok (taken + 1), after)) :
    sink.writeAll bytes = after.writeAll (bytes.drop (taken + 1)) := by
  rw [writeAll, if_neg hbytes]
  split <;> simp_all

/-- A call that is interrupted is made again. -/
theorem writeAll_of_interrupted {error : StreamError} (hbytes : bytes ≠ [])
    (h : sink.write bytes = (.error error, after)) (hkind : error.kind = .interrupted) :
    sink.writeAll bytes = after.writeAll bytes := by
  rw [writeAll, if_neg hbytes]
  split <;> simp_all

/-- A call that takes none of the bytes is the last. -/
theorem writeAll_of_nothing (hbytes : bytes ≠ []) (h : sink.write bytes = (.ok 0, after)) :
    sink.writeAll bytes = (.error .writeZero, after) := by
  rw [writeAll, if_neg hbytes]
  split <;> simp_all

/-- A call that fails is the last. -/
theorem writeAll_of_failed {error : StreamError} (hbytes : bytes ≠ [])
    (h : sink.write bytes = (.error error, after)) (hkind : error.kind ≠ .interrupted) :
    sink.writeAll bytes = (.error error, after) := by
  rw [writeAll, if_neg hbytes]
  split <;> simp_all

/-- A full sink is left as it is. -/
theorem Full.writeAll (h : sink.Full) (hbytes : bytes ≠ []) :
    ∃ error, sink.writeAll bytes = (.error error, sink) := by
  generalize hwrite : sink.write bytes = result
  cases callOutcome_of_write hbytes hwrite with
  | interrupted hinterrupts => exact absurd h.interrupts_eq hinterrupts.ne'
  | taken hroom => simp [h.room_eq_zero] at hroom
  | nothing => exact ⟨_, writeAll_of_nothing hbytes hwrite⟩
  | failed _ hkind => exact ⟨_, writeAll_of_failed hbytes hwrite hkind⟩

/-- What may come of writing bytes: either the sink holds all of them, or it holds some of the first
but not all, and is full. -/
inductive WriteOutcome (sink : Sink) (bytes : List UInt8) : Except StreamError Unit × Sink → Prop
  | whole {after : Sink} (hheld : after.held = sink.held ++ bytes) :
      WriteOutcome sink bytes (.ok (), after)
  | torn {after : Sink} {error : StreamError} {taken : List UInt8} (hstarts : taken <+: bytes)
      (hless : taken.length < bytes.length) (hheld : after.held = sink.held ++ taken)
      (hfull : after.Full) :
      WriteOutcome sink bytes (.error error, after)

/-- Bytes that were taken before are a part of what was written. -/
theorem WriteOutcome.of_drop (taken : Nat) {outcome : Except StreamError Unit × Sink}
    (hheld : after.held = sink.held ++ bytes.take taken)
    (h : WriteOutcome after (bytes.drop taken) outcome) : WriteOutcome sink bytes outcome := by
  have hbytes := List.take_append_drop taken bytes
  cases h with
  | whole hlast =>
    refine .whole ?_
    rw [hlast, hheld, List.append_assoc, hbytes]
  | @torn _ _ more hstarts hless hlast hfull =>
    have hmore : bytes.take taken ++ more <+: bytes := by
      conv_rhs => rw [← hbytes]
      exact (List.prefix_append_right_inj _).mpr hstarts
    refine .torn hmore ?_ ?_ hfull
    · have hlength := congrArg List.length hbytes
      rw [List.length_append] at hlength ⊢
      omega
    · rw [hlast, hheld, List.append_assoc]

/-- Writing all of some bytes comes to one of the two outcomes. -/
theorem writeAll_outcome (sink : Sink) (bytes : List UInt8) :
    WriteOutcome sink bytes (sink.writeAll bytes) := by
  -- Every call uses up an interruption, takes some of the bytes, or finds the sink full.
  induction sink, bytes using writeAll.induct with
  | case1 sink =>
    rw [writeAll_nil]
    exact .whole (List.append_nil _).symm
  | case2 sink bytes hbytes after hwrite =>
    rw [writeAll_of_nothing hbytes hwrite]
    cases callOutcome_of_write hbytes hwrite with
    | nothing hfull =>
      exact .torn List.nil_prefix (List.length_pos_iff.mpr hbytes) (List.append_nil _).symm hfull
  | case3 sink bytes hbytes taken after hwrite ih =>
    rw [writeAll_of_taken hbytes hwrite]
    cases callOutcome_of_write hbytes hwrite with
    | taken => exact .of_drop (taken + 1) rfl ih
  | case4 sink bytes hbytes error after hwrite hkind ih =>
    rw [writeAll_of_interrupted hbytes hwrite hkind]
    cases callOutcome_of_write hbytes hwrite with
    | interrupted =>
      refine .of_drop 0 ?_ ih
      exact (List.append_nil _).symm
    | failed _ hother => exact absurd hkind hother
  | case5 sink bytes hbytes error after hwrite hkind =>
    rw [writeAll_of_failed hbytes hwrite hkind]
    cases callOutcome_of_write hbytes hwrite with
    | interrupted _ hinterrupted => exact absurd hinterrupted hkind
    | failed hfull =>
      exact .torn List.nil_prefix (List.length_pos_iff.mpr hbytes) (List.append_nil _).symm hfull

/-! ## Sinks without a limit -/

/-- The sink takes some of the bytes in every call that is not interrupted. -/
structure Unlimited (sink : Sink) : Prop where
  /-- It can hold any number of bytes. -/
  capacity_eq : sink.capacity = none
  /-- It takes at least one byte in a call. -/
  chunk_ne : sink.chunk ≠ some 0

/-- There is always room for a byte. -/
theorem Unlimited.not_full (h : sink.Unlimited) : ¬ sink.Full := by
  intro hfull
  have hroom := hfull.room_eq_zero 1
  have hchunk := h.chunk_ne
  unfold room at hroom
  rw [h.capacity_eq] at hroom
  cases hlimit : sink.chunk with
  | none => simp [hlimit] at hroom
  | some chunk =>
    rw [hlimit] at hchunk hroom
    obtain ⟨n, rfl⟩ := Nat.exists_eq_succ_of_ne_zero fun hzero => hchunk (congrArg some hzero)
    simp at hroom

/-- A call does not change the limits of a sink. -/
theorem limits_write (sink : Sink) (bytes : List UInt8) :
    (sink.write bytes).2.capacity = sink.capacity ∧ (sink.write bytes).2.chunk = sink.chunk := by
  unfold write
  split
  · exact ⟨rfl, rfl⟩
  · split <;> exact ⟨rfl, rfl⟩

/-- What has no limit has none after a call. -/
theorem Unlimited.write {result : Except StreamError Nat} (h : sink.Unlimited)
    (hwrite : sink.write bytes = (result, after)) : after.Unlimited := by
  obtain ⟨hcapacity, hchunk⟩ := sink.limits_write bytes
  rw [hwrite] at hcapacity hchunk
  exact ⟨hcapacity.trans h.capacity_eq, hchunk ▸ h.chunk_ne⟩

/-- What has no limit has none after some bytes were written. -/
theorem Unlimited.after_writeAll (h : sink.Unlimited) (bytes : List UInt8) :
    (sink.writeAll bytes).2.Unlimited := by
  induction sink, bytes using writeAll.induct with
  | case1 sink =>
    rw [writeAll_nil]
    exact h
  | case2 sink bytes hbytes after hwrite =>
    rw [writeAll_of_nothing hbytes hwrite]
    exact h.write hwrite
  | case3 sink bytes hbytes taken after hwrite ih =>
    rw [writeAll_of_taken hbytes hwrite]
    exact ih (h.write hwrite)
  | case4 sink bytes hbytes error after hwrite hkind ih =>
    rw [writeAll_of_interrupted hbytes hwrite hkind]
    exact ih (h.write hwrite)
  | case5 sink bytes hbytes error after hwrite hkind =>
    rw [writeAll_of_failed hbytes hwrite hkind]
    exact h.write hwrite

/-- What has no limit takes all bytes. -/
theorem Unlimited.writeAll (h : sink.Unlimited) (bytes : List UInt8) : ∃ after,
    sink.writeAll bytes = (.ok (), after) ∧ after.Unlimited := by
  have houtcome := sink.writeAll_outcome bytes
  have hunlimited := h.after_writeAll bytes
  generalize sink.writeAll bytes = result at houtcome hunlimited ⊢
  cases houtcome with
  | whole => exact ⟨_, rfl, hunlimited⟩
  | torn _ _ _ hfull => exact absurd hfull hunlimited.not_full

end BinaryRecord.Sink
