import BinaryRecord.Proofs.Window.Slice
import BinaryRecord.Proofs.Word
import BinaryRecord.Size
import Mathlib

/-!
# Buffers behind windows are byte memories

Windows of any byte order are put on one buffer, and words, raw bytes and zeros are written through
them. A call succeeds exactly when its offset and its length are, in exact arithmetic, no more than
the buffer together, and changes nothing otherwise. After any calls each byte is the one that the
last successful call over it put there, or the one that was there at first, and a word that has not
been written over since is loaded as it was stored (`isMemory`).

A call is one `overwrite` or none (`Call.perform_eq`), so that a single byte is followed through a
run by induction on the calls, from the last one back (`getElem?_after`).
-/

namespace BinaryRecord

/-- The first of a kind is the first of any narrower kind that it is of, too. -/
theorem find?_of_imp {α : Type} {list : List α} {a : α} {q r : α → Bool}
    (hfirst : list.find? q = some a) (himp : ∀ b, r b = true → q b = true) (ha : r a = true) :
    list.find? r = some a := by
  obtain ⟨-, front, rest, hlist, hfront⟩ := List.find?_eq_some_iff_append.mp hfirst
  refine List.find?_eq_some_iff_append.mpr ⟨ha, front, rest, hlist, fun b hb => ?_⟩
  have hnot : ¬ q b = true := by simpa using hfront b hb
  simpa using fun hr => hnot (himp b hr)

namespace Window

/-! ## The check -/

/-- The check comes to the same when the end of an access is computed with sizes: where the sum is
not one of 64 bits, it is beyond the end of any window. -/
theorem check_eq_checkedAdd {window : Window} (h : window.length ≤ Size.maxSize)
    (offset len : Nat) : window.check offset len =
      match Size.checkedAdd offset len with
      | some stop =>
        if stop ≤ window.length then .ok () else .error (.outOfBounds offset len window.length)
      | none => .error (.outOfBounds offset len window.length) := by
  unfold check
  by_cases hsum : offset + len ≤ Size.maxSize
  · rw [Size.checkedAdd_of_le hsum]
  · rw [Size.checkedAdd_of_lt (Nat.lt_of_not_le hsum), if_neg (by omega)]

/-! ## Calls -/

/-- What is written through a window. -/
inductive Write where
  /-- A word of any number of bytes, in the order of the window. -/
  | store {w : Nat} (offset : Nat) (word : Word w)
  /-- Bytes as they are. -/
  | storeBytes (offset : Nat) (bytes : List UInt8)
  /-- Zeros. -/
  | zero (offset len : Nat)

/-- The window after the writing. -/
def Write.through (write : Write) (window : Window) : Except AccessError Window :=
  match write with
  | store offset word => window.store offset word
  | storeBytes offset bytes => window.storeBytes offset bytes
  | zero offset len => window.zero offset len

/-- A call that writes through a window of the given order. -/
structure Call where
  /-- The order of the window. -/
  order : ByteOrder
  /-- What is written. -/
  write : Write

namespace Call

/-- The call to a window on the buffer, with the buffer after it. -/
def perform (call : Call) (buffer : Array UInt8) : Except AccessError Unit × Array UInt8 :=
  match call.write.through ⟨buffer, call.order⟩ with
  | .ok window => (.ok (), window.bytes)
  | .error e => (.error e, buffer)

/-- Where the call writes. -/
def offset (call : Call) : Nat :=
  match call.write with
  | .store offset _ | .storeBytes offset _ | .zero offset _ => offset

/-- How many bytes the call writes. -/
def length (call : Call) : Nat :=
  match call.write with
  | .store (w := w) _ _ => w
  | .storeBytes _ bytes => bytes.length
  | .zero _ len => len

/-- The byte that the call puts `i` bytes behind its offset. For a word it is the one that the order
has there. -/
def byte (call : Call) (i : Nat) : UInt8 :=
  match call.write with
  | .store (w := w) _ word => word.byte (call.order.significance w i)
  | .storeBytes _ bytes => bytes.getD i 0
  | .zero _ _ => 0

/-- The byte at `i` is one that the call writes. -/
def covers (call : Call) (i : Nat) : Bool :=
  call.offset ≤ i && i < call.offset + call.length

/-- One of the `len` bytes from `start` on is one that the call writes. -/
def meets (call : Call) (start len : Nat) : Bool :=
  max call.offset start < min (call.offset + call.length) (start + len)

/-- The bytes that the call writes. -/
def bytes (call : Call) : List UInt8 :=
  match call.write with
  | .store _ word => word.toBytes call.order
  | .storeBytes _ bytes => bytes
  | .zero _ len => List.replicate len 0

variable {call : Call} {i start len : Nat}

/-- The bytes that a call writes are those from its offset on. -/
theorem covers_iff :
    call.covers i = true ↔ call.offset ≤ i ∧ i < call.offset + call.length := by
  simp [covers]

/-- A call that writes a byte meets the bytes among which it is. -/
theorem meets_of_covers (h : call.covers i = true) (hfirst : start ≤ i) (hlast : i < start + len) :
    call.meets start len = true := by
  obtain ⟨hstart, hstop⟩ := covers_iff.mp h
  simp only [meets, decide_eq_true_eq]
  omega

/-- There are as many bytes as the length says, each in its place. -/
theorem getElem?_bytes (call : Call) (i : Nat) :
    call.bytes[i]? = if i < call.length then some (call.byte i) else none := by
  unfold bytes length byte
  split
  · exact Word.getElem?_toBytes _ _ _
  · split
    case isTrue hi => rw [List.getElem?_eq_getElem hi, List.getD_eq_getElem _ _ hi]
    case isFalse hi => exact List.getElem?_eq_none (by omega)
  · exact List.getElem?_replicate

/-- There are as many bytes as the length says. -/
theorem length_bytes (call : Call) : call.bytes.length = call.length := by
  unfold bytes length
  split
  · exact Word.length_toBytes _ _
  · rfl
  · exact List.length_replicate

/-- Every call stores its bytes as they are. -/
theorem through_eq (call : Call) (buffer : Array UInt8) :
    call.write.through ⟨buffer, call.order⟩ =
      storeBytes ⟨buffer, call.order⟩ call.offset call.bytes := by
  obtain ⟨order, write⟩ := call
  cases write with
  | store offset word => rfl
  | storeBytes offset bytes => rfl
  | zero offset len =>
    show Window.zero ⟨buffer, order⟩ offset len =
      storeBytes ⟨buffer, order⟩ offset (List.replicate len 0)
    unfold Window.zero storeBytes
    rw [List.length_replicate]

/-- A call that fits writes its bytes over the buffer, and any other changes nothing. -/
theorem perform_eq (call : Call) (buffer : Array UInt8) : call.perform buffer =
    if call.offset + call.length ≤ buffer.size then
      (.ok (), overwrite buffer call.offset call.bytes)
    else (.error (.outOfBounds call.offset call.length buffer.size), buffer) := by
  unfold perform
  rw [through_eq]
  by_cases h : call.offset + call.length ≤ buffer.size
  · have hstored : storeBytes ⟨buffer, call.order⟩ call.offset call.bytes =
        .ok ⟨overwrite buffer call.offset call.bytes, call.order⟩ :=
      storeBytes_eq_ok_iff.mpr ⟨by rw [length_bytes]; exact h, rfl⟩
    rw [hstored, if_pos h]
  · have hrefused : storeBytes ⟨buffer, call.order⟩ call.offset call.bytes =
        .error (.outOfBounds call.offset call.length buffer.size) := by
      unfold storeBytes check
      rw [length_bytes, if_neg (show ¬ _ ≤ Window.length ⟨buffer, call.order⟩ from h)]
      rfl
    rw [hrefused, if_neg h]

/-- No call changes the number of bytes. -/
theorem size_perform (call : Call) (buffer : Array UInt8) :
    (call.perform buffer).2.size = buffer.size := by
  rw [perform_eq]
  split
  · exact size_overwrite _ _ _
  · rfl

/-- A byte after a call is the one that the call writes there, and else the one that was there. -/
theorem getElem?_perform (call : Call) (buffer : Array UInt8) (i : Nat) :
    (call.perform buffer).2[i]? =
      if call.offset + call.length ≤ buffer.size ∧ call.covers i = true then
        some (call.byte (i - call.offset))
      else buffer[i]? := by
  rw [perform_eq]
  by_cases hroom : call.offset + call.length ≤ buffer.size
  · rw [if_pos hroom]
    have hbytes : call.offset + call.bytes.length ≤ buffer.size := by rwa [length_bytes]
    rw [← Array.getElem?_toList, ← Array.getElem?_toList]
    by_cases hcovers : call.covers i = true
    · obtain ⟨hfirst, hlast⟩ := covers_iff.mp hcovers
      have hinside : i - call.offset < call.length := by omega
      -- What is written is the slice of the buffer from the offset on.
      have hbyte := congrArg (·[i - call.offset]?) (slice_overwrite hbytes)
      simp only [getElem?_slice, length_bytes, getElem?_bytes, if_pos hinside,
        Nat.add_sub_cancel' hfirst] at hbyte
      rw [if_pos ⟨hroom, hcovers⟩, hbyte]
    · have houtside := covers_iff.not.mp hcovers
      rw [if_neg (fun h => hcovers h.2)]
      exact getElem?_overwrite_of_outside hbytes (by rw [length_bytes]; omega)
  · rw [if_neg hroom, if_neg (fun h => hroom h.1)]

end Call

/-! ## Runs -/

/-- The buffer after the calls. -/
def after (buffer : Array UInt8) (calls : List Call) : Array UInt8 :=
  calls.foldl (fun buffer call => (call.perform buffer).2) buffer

/-- The calls that succeed, first to last. -/
def successes (buffer : Array UInt8) : List Call → List Call
  | [] => []
  | call :: calls =>
    match call.perform buffer with
    | (.ok _, buffer) => call :: successes buffer calls
    | (.error _, buffer) => successes buffer calls

/-- The last successful call that is as asked for. -/
def last? (buffer : Array UInt8) (calls : List Call) (q : Call → Bool) : Option Call :=
  (successes buffer calls).reverse.find? q

variable {buffer : Array UInt8} {calls : List Call} {call : Call} {q : Call → Bool}

/-- The buffer after one more call. -/
theorem after_concat (buffer : Array UInt8) (calls : List Call) (call : Call) :
    after buffer (calls ++ [call]) = (call.perform (after buffer calls)).2 := by
  unfold after
  rw [List.foldl_concat]

/-- The number of bytes is the same after any calls. -/
theorem size_after (buffer : Array UInt8) (calls : List Call) :
    (after buffer calls).size = buffer.size := by
  induction calls using List.reverseRecOn with
  | nil => rfl
  | append_singleton calls call ih => rw [after_concat, Call.size_perform, ih]

/-- The calls that succeed are those that fit. -/
theorem successes_eq_filter (buffer : Array UInt8) (calls : List Call) :
    successes buffer calls = calls.filter fun call => call.offset + call.length ≤ buffer.size := by
  induction calls generalizing buffer with
  | nil => rfl
  | cons call calls ih =>
    unfold successes
    rw [Call.perform_eq]
    by_cases h : call.offset + call.length ≤ buffer.size
    · rw [if_pos h, List.filter_cons_of_pos (by simpa using h)]
      show call :: successes (overwrite buffer call.offset call.bytes) calls = _
      rw [ih, size_overwrite]
    · rw [if_neg h, List.filter_cons_of_neg (by simpa using h)]
      exact ih buffer

/-- The last of the calls is the one asked for, where it fits and is so, and else it is among the
others. -/
theorem last?_concat (buffer : Array UInt8) (calls : List Call) (call : Call) (q : Call → Bool) :
    last? buffer (calls ++ [call]) q =
      if call.offset + call.length ≤ buffer.size ∧ q call = true then some call
      else last? buffer calls q := by
  unfold last?
  rw [successes_eq_filter, successes_eq_filter, List.filter_append, List.reverse_append]
  by_cases h : call.offset + call.length ≤ buffer.size
  · rw [List.filter_cons_of_pos (by simpa using h)]
    show (call :: (calls.filter _).reverse).find? q = _
    rw [List.find?_cons]
    by_cases hq : q call = true
    · rw [if_pos ⟨h, hq⟩, hq]
    · rw [if_neg (fun both => hq both.2), Bool.eq_false_iff.mpr hq]
  · rw [List.filter_cons_of_neg (by simpa using h), if_neg (fun both => h both.1)]
    rfl

/-- A byte after the calls is the one that the last successful call over it put there, and else the
one that was there at first. -/
theorem getElem?_after (buffer : Array UInt8) (calls : List Call) (i : Nat) :
    (after buffer calls)[i]? =
      match last? buffer calls (·.covers i) with
      | some call => some (call.byte (i - call.offset))
      | none => buffer[i]? := by
  -- The last call decides, unless it fails or writes elsewhere; then it is up to those before.
  induction calls using List.reverseRecOn with
  | nil => rfl
  | append_singleton calls call ih =>
    rw [after_concat, Call.getElem?_perform, size_after, last?_concat]
    split
    case isTrue => rfl
    case isFalse => exact ih

/-- The last successful call of a kind fits and is of that kind. -/
theorem of_last? (h : last? buffer calls q = some call) :
    call.offset + call.length ≤ buffer.size ∧ q call = true := by
  unfold last? at h
  rw [successes_eq_filter] at h
  have hmem := List.mem_reverse.mp (List.mem_of_find?_eq_some h)
  obtain ⟨-, hfits⟩ := List.mem_filter.mp hmem
  exact ⟨by simpa using hfits, List.find?_some h⟩

/-- A word is loaded from where it was stored, in an order of the same direction as it was, or with
its bytes reversed, if no call has written over any of it since. -/
theorem load_after {w offset : Nat} {word : Word w} {order : ByteOrder}
    (hlast : last? buffer calls (·.meets offset w) = some ⟨order, .store offset word⟩)
    (other : ByteOrder) :
    load ⟨after buffer calls, other⟩ w offset =
      .ok (Word.ofBytes other w (word.toBytes order)) := by
  obtain ⟨hroom, -⟩ := of_last? hlast
  have hslice : slice (after buffer calls).toList offset w = word.toBytes order := by
    apply List.ext_getElem?
    intro k
    rw [getElem?_slice, Word.getElem?_toBytes]
    split
    case isFalse => rfl
    case isTrue hk =>
      -- What covers a byte of the word meets the word, so that the store is the last there, too.
      have hbyte : last? buffer calls (·.covers (offset + k)) =
          some ⟨order, .store offset word⟩ := by
        apply find?_of_imp hlast
        · intro call hcovers
          exact Call.meets_of_covers hcovers (Nat.le_add_right _ _) (by omega)
        · apply Call.covers_iff.mpr
          show offset ≤ offset + k ∧ offset + k < offset + w
          omega
      rw [Array.getElem?_toList, getElem?_after, hbyte]
      show some (word.byte (order.significance w (offset + k - offset))) = _
      rw [Nat.add_sub_cancel_left]
  have hbytes : loadBytes ⟨after buffer calls, other⟩ offset w = .ok (word.toBytes order) := by
    apply loadBytes_eq_ok_iff.mpr
    constructor
    · show offset + w ≤ (after buffer calls).size
      rw [size_after]
      exact hroom
    · exact hslice
  exact bind_eq_ok_iff.mpr ⟨_, hbytes, rfl⟩

/-! ## Byte memory -/

/-- Behind windows, the buffer is what a byte memory would be after the calls. -/
structure IsMemory (buffer : Array UInt8) (calls : List Call) : Prop where
  /-- The buffer is as long as at first. -/
  size_eq : (after buffer calls).size = buffer.size
  /-- A call succeeds exactly when what it writes ends within the buffer. -/
  perform_iff : ∀ call : Call, (call.perform (after buffer calls)).1 = .ok () ↔
    call.offset + call.length ≤ buffer.size
  /-- Any other call is out of bounds and changes nothing. -/
  perform_of_no_room : ∀ call : Call, buffer.size < call.offset + call.length →
    call.perform (after buffer calls) =
      (.error (.outOfBounds call.offset call.length buffer.size), after buffer calls)
  /-- What is out of bounds is told in the same way when the end of an access is computed with
  sizes, although the sum of an offset and a length may not be one. -/
  check_eq : buffer.size ≤ Size.maxSize → ∀ (order : ByteOrder) (offset len : Nat),
    check ⟨after buffer calls, order⟩ offset len =
      match Size.checkedAdd offset len with
      | some stop =>
        if stop ≤ buffer.size then .ok () else .error (.outOfBounds offset len buffer.size)
      | none => .error (.outOfBounds offset len buffer.size)
  /-- A byte that was written is the one of the last successful call over it. -/
  byte_of_last : ∀ (i : Nat) (call : Call), last? buffer calls (·.covers i) = some call →
    (after buffer calls)[i]? = some (call.byte (i - call.offset))
  /-- All other bytes are those that were there at first. -/
  byte_of_none : ∀ i : Nat, last? buffer calls (·.covers i) = none →
    (after buffer calls)[i]? = buffer[i]?
  /-- A word over which nothing was written since it was stored is loaded as it is in an order of
  the same direction. -/
  load_of_same : ∀ (w offset : Nat) (word : Word w) (order other : ByteOrder),
    last? buffer calls (·.meets offset w) = some ⟨order, .store offset word⟩ →
      other.resolve = order.resolve → load ⟨after buffer calls, other⟩ w offset = .ok word
  /-- In an order of the opposite direction, it is loaded with its bytes reversed. -/
  load_of_opposite : ∀ (w offset : Nat) (word : Word w) (order other : ByteOrder),
    last? buffer calls (·.meets offset w) = some ⟨order, .store offset word⟩ →
      other.resolve ≠ order.resolve →
        ∃ loaded, load ⟨after buffer calls, other⟩ w offset = .ok loaded ∧
          ∀ i < w, loaded.byte i = word.byte (w - 1 - i)

/-- Whatever is written to a buffer through windows, it is a byte memory. -/
theorem isMemory (buffer : Array UInt8) (calls : List Call) : IsMemory buffer calls := by
  have hsize := size_after buffer calls
  constructor
  case size_eq => exact hsize
  case perform_iff =>
    intro call
    rw [Call.perform_eq, hsize]
    by_cases h : call.offset + call.length ≤ buffer.size
    · simp [h]
    · simp [h]
  case perform_of_no_room =>
    intro call h
    rw [Call.perform_eq, hsize, if_neg (Nat.not_le.mpr h)]
  case check_eq =>
    intro hmax order offset len
    have hlength : length ⟨after buffer calls, order⟩ = buffer.size := hsize
    rw [check_eq_checkedAdd (by rwa [hlength]), hlength]
  case byte_of_last =>
    intro i call hlast
    rw [getElem?_after, hlast]
  case byte_of_none =>
    intro i hlast
    rw [getElem?_after, hlast]
  case load_of_same =>
    intro w offset word order other hlast hsame
    rw [load_after hlast, Word.ofBytes_toBytes_of_same hsame]
  case load_of_opposite =>
    intro w offset word order other hlast hopposite
    exact ⟨_, load_after hlast other,
      fun i hi => Word.byte_ofBytes_toBytes_of_opposite hopposite word hi⟩

/-- Writes that overlap, one that ends behind the buffer, and one of no bytes at its end. -/
example : after #[9, 9, 9, 9] [⟨.big, .store (w := 2) 0 258#16⟩, ⟨.little, .storeBytes 1 [7, 8]⟩,
    ⟨.native, .store (w := 2) 3 1#16⟩, ⟨.little, .zero 2 1⟩, ⟨.big, .zero 4 0⟩] =
      #[1, 7, 0, 9] := by
  decide +kernel

end Window

end BinaryRecord
