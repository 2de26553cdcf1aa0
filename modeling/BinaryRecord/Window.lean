import BinaryRecord.Word

/-!
# Windows on bytes

A window is a run of bytes with the byte order of the words in it. Every access names an offset and
a length, and succeeds exactly when the bytes from the offset on are at least that many; otherwise
it is an `AccessError` and nothing is written. Loads and stores of words of any number of bytes, and
of raw bytes, are checked by the one function `check`, and every write goes through `overwrite`,
which `toList_overwrite` describes on the bytes as a list.
-/

namespace BinaryRecord

/-- Why an access to a window is refused. -/
inductive AccessError where
  /-- The `len` bytes from `offset` on do not all lie among the `available` ones. -/
  | outOfBounds (offset len available : Nat)
  deriving DecidableEq, Repr

/-- The text of the error. -/
def AccessError.message : AccessError → String
  | outOfBounds offset len available =>
    s!"access of {len} bytes at offset {offset} exceeds buffer of {available} bytes"

/-- Bytes in memory, and the order of the words among them. -/
structure Window where
  /-- The bytes. -/
  bytes : Array UInt8
  /-- The order in which words are loaded and stored. -/
  order : ByteOrder
  deriving DecidableEq

namespace Window

/-! ## The bytes as a whole -/

/-- A window on `size` bytes that are all zero. -/
def zeroed (size : Nat) (order : ByteOrder) : Window :=
  ⟨Array.replicate size 0, order⟩

/-- A window on the given bytes. -/
def ofList (bytes : List UInt8) (order : ByteOrder) : Window :=
  ⟨bytes.toArray, order⟩

/-- The bytes of the window, first to last. -/
def toList (window : Window) : List UInt8 :=
  window.bytes.toList

/-- The number of bytes. -/
def length (window : Window) : Nat :=
  window.bytes.size

/-- Whether there are no bytes. -/
def isEmpty (window : Window) : Bool :=
  window.bytes.isEmpty

/-- The length of a window is that of its bytes. -/
@[simp] theorem length_toList (window : Window) : window.toList.length = window.length := by
  simp [toList, length]

/-- A window on the given bytes holds them. -/
@[simp] theorem toList_ofList (bytes : List UInt8) (order : ByteOrder) :
    (ofList bytes order).toList = bytes := by
  simp [toList, ofList]

/-! ## Writing -/

/-- The array with the bytes written over it from `offset` on; what would lie beyond its end is
dropped. -/
def overwrite (target : Array UInt8) (offset : Nat) : List UInt8 → Array UInt8
  | [] => target
  | b :: bytes => overwrite (target.setIfInBounds offset b) (offset + 1) bytes

/-- Writing over an array keeps its size. -/
@[simp] theorem size_overwrite (target : Array UInt8) (offset : Nat) (bytes : List UInt8) :
    (overwrite target offset bytes).size = target.size := by
  induction bytes generalizing target offset with
  | nil => rfl
  | cons b bytes ih => simp [overwrite, ih]

/-- Writing within an array replaces the bytes from `offset` on and keeps those before and after. -/
theorem toList_overwrite {target : Array UInt8} {offset : Nat} {bytes : List UInt8}
    (h : offset + bytes.length ≤ target.size) :
    (overwrite target offset bytes).toList =
      target.toList.take offset ++ bytes ++ target.toList.drop (offset + bytes.length) := by
  induction bytes generalizing target offset with
  | nil => simp [overwrite]
  | cons b bytes ih =>
    rw [List.length_cons] at h
    have hoffset : offset < target.toList.length := by simp; omega
    have hroom : offset + 1 + bytes.length ≤ (target.setIfInBounds offset b).size := by
      rw [Array.size_setIfInBounds]
      omega
    rw [overwrite, ih hroom, Array.toList_setIfInBounds]
    have hmin : min offset target.size = offset := by omega
    have htake : (target.toList.set offset b).take (offset + 1) =
        target.toList.take offset ++ [b] := by
      rw [List.take_set, List.take_succ_eq_append_getElem hoffset,
        List.set_append_right _ _ (by simp [hmin])]
      simp [hmin]
    rw [htake, List.drop_set_of_lt (by omega), List.length_cons]
    simp [Nat.add_assoc, Nat.add_comm 1]

/-! ## Access -/

/-- Whether the `len` bytes from `offset` on lie in the window, as a step that fails when they do
not. -/
def check (window : Window) (offset len : Nat) : Except AccessError Unit :=
  if offset + len ≤ window.length then .ok ()
  else .error (.outOfBounds offset len window.length)

/-- The `len` bytes from `offset` on. -/
def loadBytes (window : Window) (offset len : Nat) : Except AccessError (List UInt8) := do
  window.check offset len
  return (window.bytes.extract offset (offset + len)).toList

/-- The window with the bytes written from `offset` on. -/
def storeBytes (window : Window) (offset : Nat) (bytes : List UInt8) :
    Except AccessError Window := do
  window.check offset bytes.length
  return { window with bytes := overwrite window.bytes offset bytes }

/-- The window with `len` zero bytes written from `offset` on. -/
def zero (window : Window) (offset len : Nat) : Except AccessError Window := do
  -- The check comes first, so that no zeros are made for a length that does not fit.
  window.check offset len
  return { window with bytes := overwrite window.bytes offset (List.replicate len 0) }

/-- The word of `w` bytes that stands at `offset` in the window's order. -/
def load (window : Window) (w offset : Nat) : Except AccessError (Word w) := do
  let bytes ← window.loadBytes offset w
  return Word.ofBytes window.order w bytes

/-- The window with the word written at `offset` in the window's order. -/
def store {w : Nat} (window : Window) (offset : Nat) (word : Word w) :
    Except AccessError Window :=
  window.storeBytes offset (word.toBytes window.order)

/-- Bytes can be loaded exactly where they all lie in the window. -/
theorem loadBytes_eq_ok_iff {window : Window} {offset len : Nat} {bytes : List UInt8} :
    window.loadBytes offset len = .ok bytes ↔
      offset + len ≤ window.length ∧ (window.toList.drop offset).take len = bytes := by
  unfold loadBytes check
  split <;> rename_i h
  · simp only [bind, Except.bind, pure, Except.pure, Except.ok.injEq, Array.toList_extract,
      List.extract_eq_take_drop, Nat.add_sub_cancel_left, h, true_and, toList]
  · simp [bind, Except.bind, h]

/-- Bytes can be stored exactly where they all fit in the window. -/
theorem storeBytes_eq_ok_iff {window after : Window} {offset : Nat} {bytes : List UInt8} :
    window.storeBytes offset bytes = .ok after ↔
      offset + bytes.length ≤ window.length ∧
        { window with bytes := overwrite window.bytes offset bytes } = after := by
  unfold storeBytes check
  split <;> rename_i h
  · simp [bind, Except.bind, pure, Except.pure, h]
  · simp [bind, Except.bind, h]

end Window

end BinaryRecord
