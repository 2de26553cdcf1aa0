import BinaryRecord.Proofs.Schema.PackInto
import BinaryRecord.Proofs.Window.Memory
import BinaryRecord.Session

/-!
# The buffer of a session is a byte memory

Whatever is asked of a session, each byte of its buffer is the one of the last record that was
packed over it, or the one that was there at first (`isByteMemory`). A packing that fails leaves no
trace, and records may overlap. A record that none has been packed over since can be unpacked.

What one request does to the buffer is said by `perform_cases`, what this means for a single byte by
`getElem?_perform_of_covers` and `getElem?_perform_of_not_covers`, and runs follow by induction on
the requests.
-/

namespace BinaryRecord.Session

open Schema (Written)

/-! ## Runs -/

/-- A packing of arguments into the buffer at an offset. -/
structure Packing where
  /-- Where the record starts. -/
  offset : Nat
  /-- What the record is of. -/
  arguments : List Value
  deriving DecidableEq

/-- The byte at `i` is one of the record's, which has `size` bytes. -/
def Packing.covers (packing : Packing) (size i : Nat) : Bool :=
  packing.offset ≤ i && i < packing.offset + size

/-- The record shares a byte with the one at `offset`, where both have `size` bytes. -/
def Packing.meets (packing : Packing) (size offset : Nat) : Bool :=
  packing.offset < offset + size && offset < packing.offset + size

/-- The packing into the buffer that the request comes to, if it is one and succeeds. -/
def packed? (session : Session) (request : Request) : Option Packing :=
  match request, (session.perform request).1 with
  | .packInto offset arguments, .ok _ => some ⟨offset, arguments⟩
  | _, _ => none

/-- The session after the requests. -/
def after (session : Session) : List Request → Session
  | [] => session
  | request :: requests => (session.perform request).2.after requests

/-- The successful packings into the buffer among the requests, first to last. -/
def packings (session : Session) : List Request → List Packing
  | [] => []
  | request :: requests =>
    (session.packed? request).toList ++ (session.perform request).2.packings requests

/-- The last successful packing into the buffer that is as asked for. -/
def lastPacking (session : Session) (requests : List Request) (q : Packing → Bool) :
    Option Packing :=
  (session.packings requests).reverse.find? q

variable {session : Session} {request : Request} {requests : List Request} {packing : Packing}
  {i offset : Nat}

/-- The bytes of a record are those from its offset on. -/
theorem Packing.covers_iff {size : Nat} : packing.covers size i = true ↔
    packing.offset ≤ i ∧ i < packing.offset + size := by
  simp [covers]

/-- Records of one size share a byte when each starts before the other ends. -/
theorem Packing.meets_iff {size : Nat} : packing.meets size offset = true ↔
    packing.offset < offset + size ∧ offset < packing.offset + size := by
  simp [meets]

/-- The last packing of a run is that of the requests after the first, if there is one, and else
that of the first. -/
theorem lastPacking_cons (session : Session) (request : Request) (requests : List Request)
    (q : Packing → Bool) :
    session.lastPacking (request :: requests) q =
      ((session.perform request).2.lastPacking requests q).or
        ((session.packed? request).filter q) := by
  rw [lastPacking, packings, List.reverse_append, List.find?_append, lastPacking]
  congr 1
  cases session.packed? request with
  | none => rfl
  | some packing => cases hq : q packing <;> simp [Option.filter, hq]

/-- The last packing of a kind is of that kind. -/
theorem of_lastPacking {q : Packing → Bool} (h : session.lastPacking requests q = some packing) :
    q packing = true :=
  List.find?_some h

/-- The last packing of a kind is the last of any narrower kind that it is of, too. -/
theorem lastPacking_of_imp {q r : Packing → Bool}
    (hlast : session.lastPacking requests q = some packing)
    (himp : ∀ other, r other = true → q other = true) (hpacking : r packing = true) :
    session.lastPacking requests r = some packing :=
  find?_of_imp hlast himp hpacking

/-! ## One request -/

/-- A request either packs a record into the buffer, or it changes nothing. -/
theorem perform_cases (session : Session) (request : Request) :
    (session.packed? request = none ∧ (session.perform request).2 = session) ∨
      ∃ packing record buffer, session.packed? request = some packing ∧
        session.schema.pack packing.arguments = .ok record ∧
        Written record packing.offset session.buffer buffer ∧
        (session.perform request).2 = { session with buffer } := by
  cases request with
  | packInto offset arguments =>
    cases hbuffer : session.schema.packInto session.buffer offset arguments with
    | error e =>
      left
      constructor <;> simp only [packed?, perform, hbuffer]
    | ok buffer =>
      obtain ⟨record, hpack, hwritten⟩ := Schema.packInto_eq_ok_iff.mp hbuffer
      refine .inr ⟨⟨offset, arguments⟩, record, buffer, ?_, hpack, hwritten, ?_⟩ <;>
        simp only [packed?, perform, hbuffer]
  | _ => exact .inl ⟨rfl, rfl⟩

/-- The schema is never changed. -/
theorem schema_perform (session : Session) (request : Request) :
    (session.perform request).2.schema = session.schema := by
  rcases session.perform_cases request with ⟨-, hafter⟩ | ⟨_, _, _, -, -, -, hafter⟩
  · rw [hafter]
  · rw [hafter]

/-- A successful packing into the buffer writes the record. -/
theorem perform_of_packed (h : session.packed? request = some packing) :
    ∃ record, session.schema.pack packing.arguments = .ok record ∧
      Written record packing.offset session.buffer (session.perform request).2.buffer := by
  rcases session.perform_cases request with
    ⟨hnone, -⟩ | ⟨other, record, buffer, hother, hpack, hwritten, hafter⟩
  · rw [h] at hnone
    contradiction
  · obtain rfl := Option.some.inj (h.symm.trans hother)
    rw [hafter]
    exact ⟨record, hpack, hwritten⟩

/-- A request that packs nothing into the buffer changes nothing. -/
theorem perform_of_not_packed (h : session.packed? request = none) :
    (session.perform request).2 = session := by
  rcases session.perform_cases request with ⟨-, hafter⟩ | ⟨_, _, _, hsome, -⟩
  · exact hafter
  · rw [h] at hsome
    contradiction

/-- A request that fails packs nothing into the buffer. -/
theorem packed?_of_error {e : PackError} (h : (session.perform request).1 = .error e) :
    session.packed? request = none := by
  unfold packed?
  rw [h]
  cases request <;> rfl

/-- A record is packed into the buffer when it ends within it and can be made. -/
theorem perform_packInto_iff (session : Session) (offset : Nat) (arguments : List Value) :
    (session.perform (.packInto offset arguments)).1 = .ok .done ↔
      offset + session.schema.size ≤ session.buffer.length ∧
        ∃ record, session.schema.pack arguments = .ok record := by
  by_cases hroom : offset + session.schema.size ≤ session.buffer.length
  · cases hpack : session.schema.pack arguments <;>
      simp [perform, Schema.packInto_of_room hroom, hpack, hroom, Except.map]
  · simp [perform, Schema.packInto_of_no_room (Nat.not_le.mp hroom), hroom]

/-- The length of the buffer is never changed. -/
theorem length_buffer_perform (session : Session) (request : Request) :
    (session.perform request).2.buffer.length = session.buffer.length := by
  cases h : session.packed? request with
  | none => rw [perform_of_not_packed h]
  | some packing =>
    obtain ⟨record, -, hwritten⟩ := perform_of_packed h
    exact hwritten.length_eq

/-- A byte over which a record is packed becomes that of the record. -/
theorem getElem?_perform_of_covers (h : session.packed? request = some packing)
    (hcovers : packing.covers session.schema.size i = true) :
    ∃ record byte, session.schema.pack packing.arguments = .ok record ∧
      record[i - packing.offset]? = some byte ∧
      (session.perform request).2.buffer[i]? = some byte := by
  obtain ⟨hfirst, hlast⟩ := Packing.covers_iff.mp hcovers
  obtain ⟨record, hpack, hwritten⟩ := perform_of_packed h
  have hlength := Schema.length_of_pack hpack
  have hi : i - packing.offset < record.length := by omega
  refine ⟨record, record[i - packing.offset], hpack, List.getElem?_eq_getElem hi, ?_⟩
  rw [hwritten.getElem?_of_inside hfirst (by omega), List.getElem?_eq_getElem hi]

/-- A byte over which no record is packed stays as it is. -/
theorem getElem?_perform_of_not_covers
    (h : (session.packed? request).filter (·.covers session.schema.size i) = none) :
    (session.perform request).2.buffer[i]? = session.buffer[i]? := by
  cases hpacked : session.packed? request with
  | none => rw [perform_of_not_packed hpacked]
  | some packing =>
    obtain ⟨record, hpack, hwritten⟩ := perform_of_packed hpacked
    have hlength := Schema.length_of_pack hpack
    rw [hpacked, Option.filter_eq_none_iff] at h
    have hcovers := Packing.covers_iff.not.mp (h packing rfl)
    exact hwritten.getElem?_of_outside (by omega)

/-! ## Many requests -/

/-- The schema and the length of the buffer are the same after any requests. -/
theorem schema_length_after (session : Session) (requests : List Request) :
    (session.after requests).schema = session.schema ∧
      (session.after requests).buffer.length = session.buffer.length := by
  induction requests generalizing session with
  | nil => exact ⟨rfl, rfl⟩
  | cons request requests ih =>
    obtain ⟨hschema, hlength⟩ := ih (session.perform request).2
    exact ⟨hschema.trans (session.schema_perform request),
      hlength.trans (session.length_buffer_perform request)⟩

/-- A byte over which no record was packed is the one that was there at first. -/
theorem getElem?_after_of_none
    (h : session.lastPacking requests (·.covers session.schema.size i) = none) :
    (session.after requests).buffer[i]? = session.buffer[i]? := by
  induction requests generalizing session with
  | nil => rfl
  | cons request requests ih =>
    rw [lastPacking_cons, Option.or_eq_none_iff] at h
    obtain ⟨hlater, hfirst⟩ := h
    rw [← session.schema_perform request] at hlater
    exact (ih hlater).trans (getElem?_perform_of_not_covers hfirst)

/-- A byte over which records were packed is the one of the last of them. -/
theorem getElem?_after_of_some
    (h : session.lastPacking requests (·.covers session.schema.size i) = some packing) :
    ∃ record byte, session.schema.pack packing.arguments = .ok record ∧
      record[i - packing.offset]? = some byte ∧
      (session.after requests).buffer[i]? = some byte := by
  induction requests generalizing session with
  | nil => cases h
  | cons request requests ih =>
    have hschema := session.schema_perform request
    rw [lastPacking_cons, Option.or_eq_some_iff] at h
    rcases h with hlater | ⟨hlater, hfirst⟩
    · -- Whatever the first request did, the byte has been written over since.
      rw [← hschema] at hlater
      simpa only [hschema, after] using ih hlater
    · -- Nothing has been packed over the byte since the first request.
      obtain ⟨hpacked, hcovers⟩ := Option.filter_eq_some_iff.mp hfirst
      rw [← hschema] at hlater
      have hkept := getElem?_after_of_none hlater
      obtain ⟨record, byte, hpack, hrecord, hbyte⟩ := getElem?_perform_of_covers hpacked hcovers
      exact ⟨record, byte, hpack, hrecord, hkept.trans hbyte⟩

/-- The record at an offset is still there if it is the last that was packed over any of its
bytes. -/
theorem slice_after (hlast : session.lastPacking requests (·.meets session.schema.size offset) =
      some packing) (hoffset : packing.offset = offset) :
    ∃ record, session.schema.pack packing.arguments = .ok record ∧
      offset + session.schema.size ≤ (session.after requests).buffer.length ∧
      slice (session.after requests).buffer offset session.schema.size = record := by
  subst hoffset
  have hmeets : packing.offset < packing.offset + session.schema.size :=
    (Packing.meets_iff.mp (of_lastPacking hlast)).1
  -- What covers a byte of the record meets the record, so that this packing is the last there, too.
  have hbyte : ∀ k < session.schema.size, ∃ record byte,
      session.schema.pack packing.arguments = .ok record ∧ record[k]? = some byte ∧
        (session.after requests).buffer[packing.offset + k]? = some byte := by
    intro k hk
    have hcovers : session.lastPacking requests
        (·.covers session.schema.size (packing.offset + k)) = some packing := by
      refine lastPacking_of_imp hlast (fun other hother => ?_) (Packing.covers_iff.mpr ?_)
      · have hother := Packing.covers_iff.mp hother
        exact Packing.meets_iff.mpr (by omega)
      · omega
    simpa only [Nat.add_sub_cancel_left] using getElem?_after_of_some hcovers
  obtain ⟨record, -, hpack, -⟩ := hbyte 0 (by omega)
  have hlength := Schema.length_of_pack hpack
  refine ⟨record, hpack, ?_, List.ext_getElem? fun k => ?_⟩
  · -- The last byte of the record is one of the buffer.
    obtain ⟨_, _, _, _, hend⟩ := hbyte (session.schema.size - 1) (by omega)
    have hinside := (List.getElem?_eq_some_iff.mp hend).1
    omega
  · rw [getElem?_slice]
    split
    case isTrue hk =>
      obtain ⟨other, byte, hother, hrecord, hbuffer⟩ := hbyte k hk
      obtain rfl := Except.ok.inj (hpack.symm.trans hother)
      rw [hbuffer, hrecord]
    case isFalse hk => exact (List.getElem?_eq_none (by omega)).symm

/-! ## Byte memory -/

/-- After the requests, the buffer of the session is what a byte memory would be. -/
structure IsByteMemory (session : Session) (requests : List Request) : Prop where
  /-- The records are of the same schema. -/
  schema_eq : (session.after requests).schema = session.schema
  /-- The buffer is as long as at first. -/
  length_eq : (session.after requests).buffer.length = session.buffer.length
  /-- In a buffer in memory, the ends of records are those that are computed with sizes. -/
  recordEnd_eq : session.buffer.length ≤ Size.maxSize → ∀ offset,
    (session.after requests).schema.recordEnd (session.after requests).buffer.length offset =
      match Size.checkedAdd offset session.schema.size with
      | some stop =>
        if stop ≤ session.buffer.length then .ok stop
        else .error (.bufferTooSmall (Size.saturatingAdd offset session.schema.size)
          session.buffer.length)
      | none => .error (.bufferTooSmall (Size.saturatingAdd offset session.schema.size)
          session.buffer.length)
  /-- A record can be packed into the buffer exactly when it ends within it and can be made. -/
  packInto_iff : ∀ offset arguments,
    ((session.after requests).perform (.packInto offset arguments)).1 = .ok .done ↔
      offset + session.schema.size ≤ session.buffer.length ∧
        ∃ record, session.schema.pack arguments = .ok record
  /-- A record that would end behind the buffer is refused, whatever its arguments are. -/
  packInto_of_no_room : ∀ offset arguments,
    session.buffer.length < offset + session.schema.size →
      ((session.after requests).perform (.packInto offset arguments)).1 =
        .error (.bufferTooSmall (min (offset + session.schema.size) Size.maxSize)
          session.buffer.length)
  /-- Else a record that cannot be made is refused as it is without a buffer. -/
  packInto_of_refused : ∀ offset arguments e,
    offset + session.schema.size ≤ session.buffer.length →
      session.schema.pack arguments = .error e →
        ((session.after requests).perform (.packInto offset arguments)).1 = .error e
  /-- A request that fails changes nothing. -/
  perform_of_error : ∀ request e, ((session.after requests).perform request).1 = .error e →
    ((session.after requests).perform request).2 = session.after requests
  /-- A byte over which records were packed is the one of the last of them. -/
  byte_of_last : ∀ i packing,
    session.lastPacking requests (·.covers session.schema.size i) = some packing →
      ∃ record byte, session.schema.pack packing.arguments = .ok record ∧
        record[i - packing.offset]? = some byte ∧
        (session.after requests).buffer[i]? = some byte
  /-- All other bytes are those that were there at first. -/
  byte_of_none : ∀ i, session.lastPacking requests (·.covers session.schema.size i) = none →
    (session.after requests).buffer[i]? = session.buffer[i]?
  /-- The arguments are got back from where the last record that shares a byte with those unpacked
  was packed to just there. -/
  unpackFrom_of_last : ∀ offset packing,
    session.lastPacking requests (·.meets session.schema.size offset) = some packing →
      packing.offset = offset →
        ∃ values, ((session.after requests).perform (.unpackFrom offset)).1 =
            .ok (.record values) ∧
          Field.CanonicalForms session.schema.argumentFields packing.arguments values

/-- The buffer of a session with a compiled schema is a byte memory, whatever is asked of the
session. The fields, which are a list in memory, are no more than a size can say. -/
theorem isByteMemory {text : String} (requests : List Request)
    (hcompile : Schema.compile allocator text = .ok session.schema)
    (hfields : session.schema.fields.length ≤ Size.maxSize) : session.IsByteMemory requests := by
  have hwellFormed := Schema.wellFormed_of_compile hcompile
  have hplaces := Schema.argumentCount_eq hcompile hfields
  obtain ⟨hschema, hlength⟩ := session.schema_length_after requests
  exact {
    schema_eq := hschema
    length_eq := hlength
    recordEnd_eq := fun hmemory offset => by
      rw [hschema, hlength]
      exact Schema.recordEnd_eq_checkedAdd hmemory session.schema offset
    packInto_iff := fun offset arguments => by
      rw [perform_packInto_iff, hschema, hlength]
    packInto_of_no_room := fun offset arguments hroom => by
      rw [← hlength] at hroom
      simp only [perform, hschema, Schema.packInto_of_no_room hroom, hlength]
    packInto_of_refused := fun offset arguments e hroom hpack => by
      rw [← hlength] at hroom
      simp only [perform, hschema, Schema.packInto_of_room hroom, hpack, Except.map]
    perform_of_error := fun request e h => perform_of_not_packed (packed?_of_error h)
    byte_of_last := fun i packing => getElem?_after_of_some
    byte_of_none := fun i => getElem?_after_of_none
    unpackFrom_of_last := fun offset packing hlast hoffset => by
      obtain ⟨record, hpack, hroom, hslice⟩ := slice_after hlast hoffset
      have hvalues := hwellFormed.unpackFrom_eq hroom
      rw [hslice] at hvalues
      refine ⟨session.schema.values record, ?_, hwellFormed.canonicalForms_of_pack hplaces hpack⟩
      simp only [perform, hschema, hvalues, Except.map] }

/-- Two records that overlap, of which the second stands where it was packed, one that would end
behind the buffer, and one that cannot be made. -/
theorem isByteMemory_overlapping_records : ∃ (session : Session) (requests : List Request),
    Schema.compile .generous ">HB" = .ok session.schema ∧
    session.schema.fields.length ≤ Size.maxSize ∧
    session.buffer = [9, 9, 9, 9, 9] ∧
    requests = [.packInto 2 [.int 258, .uint 3], .packInto 1 [.int 1029, .uint 6],
      .packInto 3 [], .unpackFrom 1, .packInto 0 [.int 70000, .uint 1]] ∧
    session.packings requests = [⟨2, [.int 258, .uint 3]⟩, ⟨1, [.int 1029, .uint 6]⟩] ∧
    (session.after requests).buffer = [9, 4, 5, 6, 3] ∧ session.IsByteMemory requests := by
  have hcompile : Schema.compile .generous ">HB" = .ok
      ⟨">HB", .big, [⟨'H', .unsigned, 2, 2⟩, ⟨'B', .unsigned, 1, 1⟩], ⟨[0, 2], 3⟩, 2⟩ := by
    decide +kernel
  have hfields : 2 ≤ Size.maxSize := by decide
  refine ⟨⟨_, [9, 9, 9, 9, 9]⟩, _, hcompile, hfields, rfl, rfl, ?_, ?_, ?_⟩
  · decide +kernel
  · decide +kernel
  · exact isByteMemory _ hcompile hfields

end BinaryRecord.Session
