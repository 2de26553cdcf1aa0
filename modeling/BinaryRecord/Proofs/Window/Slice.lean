import BinaryRecord.Window
import BinaryRecord.Proofs.Outcome

/-!
# Slices of bytes

A slice is what an access to a window reads or writes. Writing puts its bytes into the slice that it
names (`slice_overwrite`) and leaves every other byte as it was (`getElem?_overwrite_of_outside`). A
slice depends on nothing but its own bytes (`slice_congr`). Parts of one length that are put
together are the slices at the multiples of it (`slice_flatten`).
-/

namespace BinaryRecord

/-- The `len` bytes from `offset` on. -/
def slice (bytes : List UInt8) (offset len : Nat) : List UInt8 :=
  (bytes.drop offset).take len

variable {bytes other head tail : List UInt8} {offset len : Nat}

/-- The bytes of a slice are those that it names. -/
theorem getElem?_slice (i : Nat) :
    (slice bytes offset len)[i]? = if i < len then bytes[offset + i]? else none := by
  rw [slice, List.getElem?_take, List.getElem?_drop]

/-- A slice is what is extracted up to its end. -/
theorem extract_eq_slice : bytes.extract offset (offset + len) = slice bytes offset len := by
  rw [List.extract_eq_take_drop, Nat.add_sub_cancel_left, slice]

/-- A slice is as long as asked for where there are as many bytes. -/
theorem length_slice (h : offset + len ≤ bytes.length) : (slice bytes offset len).length = len := by
  rw [slice, List.length_take, List.length_drop]
  omega

/-- A slice depends on nothing but its own bytes. -/
theorem slice_congr (h : ∀ i, offset ≤ i → i < offset + len → bytes[i]? = other[i]?) :
    slice bytes offset len = slice other offset len := by
  apply List.ext_getElem?
  intro i
  rw [getElem?_slice, getElem?_slice]
  split
  case isTrue hi => exact h (offset + i) (by omega) (by omega)
  case isFalse => rfl

/-- The bytes from a cursor on are those in front of a slice, the slice, and those behind it. -/
theorem drop_eq_append_slice {cursor : Nat} (h : cursor ≤ offset) :
    bytes.drop cursor = slice bytes cursor (offset - cursor) ++
      (slice bytes offset len ++ bytes.drop (offset + len)) := by
  have hbehind : (bytes.drop cursor).drop (offset - cursor) = bytes.drop offset := by
    rw [List.drop_drop, Nat.add_sub_cancel' h]
  rw [← List.drop_drop, slice, slice, List.take_append_drop, ← hbehind, List.take_append_drop]

/-- A slice of the first bytes has no part in those behind them. -/
theorem slice_append_left (h : offset + len ≤ head.length) :
    slice (head ++ tail) offset len = slice head offset len := by
  rw [slice, slice, List.drop_append_of_le_length (by omega), List.take_append_of_le_length]
  rw [List.length_drop]
  omega

/-- A slice behind the first bytes is one of the others. -/
theorem slice_append_right : slice (head ++ tail) (head.length + offset) len =
    slice tail offset len := by
  rw [slice, slice, List.drop_append, List.drop_of_length_le (by omega), Nat.add_sub_cancel_left,
    List.nil_append]

/-- Of parts of one length, put together, each is the slice at its own index. -/
theorem slice_flatten {parts : List (List UInt8)} (hparts : ∀ part ∈ parts, part.length = len)
    {i : Nat} (hi : i < parts.length) : slice parts.flatten (i * len) len = parts[i] := by
  induction parts generalizing i with
  | nil => exact absurd hi (Nat.not_lt_zero i)
  | cons first parts ih =>
    obtain ⟨hfirst, hrest⟩ := List.forall_mem_cons.mp hparts
    rw [List.flatten_cons]
    cases i with
    | zero =>
      rw [Nat.zero_mul, slice_append_left (by omega), slice, List.drop_zero,
        List.take_of_length_le (Nat.le_of_eq hfirst)]
      rfl
    | succ i =>
      rw [Nat.succ_mul, Nat.add_comm, ← hfirst, slice_append_right, hfirst,
        ih hrest (Nat.lt_of_succ_lt_succ hi)]
      rfl

/-- Parts of one length, put together, are as long as all of them. -/
theorem length_flatten_of_length_eq {parts : List (List UInt8)}
    (hparts : ∀ part ∈ parts, part.length = len) : parts.flatten.length = parts.length * len := by
  rw [List.length_flatten, List.map_congr_left hparts, List.map_const', List.sum_replicate,
    smul_eq_mul]

namespace Window

variable {target : Array UInt8}

/-- As many bytes as the offset says stand in front of it. -/
theorem length_take_toList (h : offset ≤ target.size) :
    (target.toList.take offset).length = offset := by
  rw [List.length_take, Array.length_toList]
  exact Nat.min_eq_left h

/-- Writing puts the bytes where they belong. -/
theorem slice_overwrite (h : offset + bytes.length ≤ target.size) :
    slice (overwrite target offset bytes).toList offset bytes.length = bytes := by
  have hbefore := length_take_toList (Nat.le_of_add_right_le h)
  rw [slice, toList_overwrite h, List.append_assoc]
  conv_lhs =>
    enter [2, 1]
    rw [← hbefore]
  rw [List.drop_left, List.take_left]

/-- Writing changes no other byte. -/
theorem getElem?_overwrite_of_outside (h : offset + bytes.length ≤ target.size) {i : Nat}
    (hi : i < offset ∨ offset + bytes.length ≤ i) :
    (overwrite target offset bytes).toList[i]? = target.toList[i]? := by
  have hbefore := length_take_toList (Nat.le_of_add_right_le h)
  rw [toList_overwrite h]
  rcases hi with hi | hi
  · -- In front of what is written.
    rw [List.append_assoc, List.getElem?_append_left (by omega), List.getElem?_take, if_pos hi]
  · -- Behind it, where as many bytes have been dropped as were written over.
    have hboth : (target.toList.take offset ++ bytes).length = offset + bytes.length := by
      rw [List.length_append, hbefore]
    rw [List.getElem?_append_right (by omega), hboth, List.getElem?_drop]
    congr 1
    omega

end Window

end BinaryRecord
