import BinaryRecord.Field

/-!
# Layouts

A layout gives each field of a record its offset, and the record its size. `Layout.compute` places
the fields one after the other, in an aligned mode each at the next multiple of its unit size, and
checks every step against the largest size. `Layout.paddingBefore` reads the gap in front of a field
off the offsets. It takes any offsets, whether or not they were computed for those fields, and stops
where the numbers break what it relies on without a check.
-/

namespace BinaryRecord

/-- Where the fields of a record stand. -/
structure Layout where
  /-- The offset of each field. -/
  offsets : List Nat
  /-- The number of bytes of the record. -/
  size : Nat
  deriving DecidableEq, Repr

namespace Layout

/-- The least multiple of `unit` at or after `offset`. -/
def alignUp (offset unit : Nat) : Except FormatError Nat :=
  if offset % unit = 0 then .ok offset
  else
    match Size.checkedAdd offset (unit - offset % unit) with
    | some aligned => .ok aligned
    | none => .error .sizeOverflow

/-- Where a field starts when the fields before it end at `cursor`. -/
def start (mode : Mode) (cursor : Nat) (field : Field) : Except FormatError Nat :=
  if mode.aligned && decide (1 < field.unitSize) then alignUp cursor field.unitSize else .ok cursor

/-- The layout of fields that follow `cursor` bytes. -/
def computeFrom (mode : Mode) (cursor : Nat) : List Field → Except FormatError Layout
  | [] => .ok ⟨[], cursor⟩
  | field :: fields => do
    let offset ← start mode cursor field
    match Size.checkedAdd offset field.totalSize with
    | none => .error .sizeOverflow
    | some cursor =>
      let layout ← computeFrom mode cursor fields
      return ⟨offset :: layout.offsets, layout.size⟩

/-- The layout of the fields of a record. -/
def compute (mode : Mode) (fields : List Field) : Except FormatError Layout :=
  computeFrom mode 0 fields

/-- The offsets of the fields of a record. -/
def offsetsOf (mode : Mode) (fields : List Field) : Except FormatError (List Nat) :=
  (compute mode fields).map (·.offsets)

/-- Where the reading of a padding stops, because it comes to what it takes to be impossible. -/
inductive Unmeasurable where
  /-- The field at `index`, which is before one with an offset, has none. -/
  | noOffset (index : Nat)
  /-- The exact end of the field before is larger than any size. -/
  | endTooLarge (stop : Nat)
  deriving DecidableEq, Repr

/-- The number of bytes between the field at `index` and the end of the field before it. There is
none without such a field or without a field before it to measure from, and none when the two
overlap. -/
def paddingBefore (layout : Layout) (fields : List Field) (index : Nat) :
    Except Unmeasurable (Option Nat) :=
  match layout.offsets[index]? with
  | none => .ok none
  | some offset =>
    match index with
    | 0 => .ok (some offset)
    | previous + 1 =>
      match layout.offsets[previous]? with
      | none => .error (.noOffset previous)
      | some start =>
        match fields[previous]? with
        | none => .ok none
        | some field =>
          match Size.checkedAdd start field.totalSize with
          | none => .error (.endTooLarge (start + field.totalSize))
          | some stop => .ok (if stop ≤ offset then some (offset - stop) else none)

/-- The number of bytes of the record that a format describes. -/
def sizeOfFormat (allocator : Allocator) (text : String) : Except FormatError Nat := do
  let format ← Format.parse text
  let fields ← Field.ofRuns allocator format.mode format.runs
  let layout ← compute format.mode fields
  return layout.size

end Layout

end BinaryRecord
