import BinaryRecord.Allocator
import BinaryRecord.Format

/-!
# Fields

A field is one typed place in a record. `Field.ofRuns` expands the runs of a format into its fields:
a string or padding becomes one field, of as many units as the run repeats, and any other run
becomes one field for each repetition, for which an allocator must grant memory. The first run that
has no type, or that is too large, decides the error.
-/

namespace BinaryRecord

/-- One typed place in a record. -/
structure Field where
  /-- The type character. -/
  typeChar : Char
  /-- What the field holds. -/
  kind : Kind
  /-- The number of bytes of one unit of the type, to which the field is aligned. -/
  unitSize : Nat
  /-- The number of bytes of the field. -/
  totalSize : Nat
  deriving DecidableEq, Repr

namespace Field

/-- Whether the field is padding. -/
def isPad (field : Field) : Bool :=
  field.kind == .pad

/-- Whether the field holds a value. -/
def takesArgument (field : Field) : Bool :=
  !field.isPad

/-- Whether values of the field's kind have a form in units of its size: one, two, four or eight
bytes for an integer, a half, single or double for a float, one byte for a truth value or a
character. -/
def isStorable (field : Field) : Bool :=
  match field.kind with
  | .signed | .unsigned => [1, 2, 4, 8].contains field.unitSize
  | .float => [2, 4, 8].contains field.unitSize
  | .bool | .char => field.unitSize == 1
  | .pad | .bytes => true

/-- The fields of a run, for which memory is asked when `held` fields are there. -/
def ofRun (allocator : Allocator) (mode : Mode) (held : Nat) (run : Run) :
    Except FormatError (List Field) := do
  let code ← TypeCode.find run.typeChar
  let unitSize := code.size mode
  match Size.checkedMul unitSize run.count with
  | none => .error .sizeOverflow
  | some totalSize =>
    match code.kind with
    | .bytes | .pad => return [⟨run.typeChar, code.kind, unitSize, totalSize⟩]
    | kind =>
      if allocator.grants held run.count then
        return List.replicate run.count ⟨run.typeChar, kind, unitSize, unitSize⟩
      else .error .sizeOverflow

/-- The fields of runs that follow `held` fields. -/
def ofRunsFrom (allocator : Allocator) (mode : Mode) (held : Nat) :
    List Run → Except FormatError (List Field)
  | [] => .ok []
  | run :: runs => do
    let fields ← ofRun allocator mode held run
    let others ← ofRunsFrom allocator mode (held + fields.length) runs
    return fields ++ others

/-- The fields of the runs, in order. -/
def ofRuns (allocator : Allocator) (mode : Mode) (runs : List Run) :
    Except FormatError (List Field) :=
  ofRunsFrom allocator mode 0 runs

end Field

end BinaryRecord
