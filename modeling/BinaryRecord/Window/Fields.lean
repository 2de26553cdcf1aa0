import BinaryRecord.Field.Codec
import BinaryRecord.Window

/-!
# Fields in windows

A place is a field with the offset at which it stands. `Window.storeFields` writes the images of
arguments at the places of a record, one after the other: padding takes no argument and is left as
it is, and the first argument that is refused ends the work. `Window.loadFields` reads the values at
the places back.
-/

namespace BinaryRecord.Window

/-- Writes the image of an argument at a field's place. The index tells the argument in an error. -/
def storeField (window : Window) (field : Field) (offset index : Nat) (value : Value) :
    Except PackError Window := do
  let image ← (field.encode window.order value).mapError (·.toError index field value)
  (window.storeBytes offset image).mapError .access

/-- Writes arguments at the places that take one, the first of them as the argument of the given
index. Places for which there is no argument are left as they are. -/
def storeFields (window : Window) (index : Nat) :
    List (Field × Nat) → List Value → Except PackError Window
  | [], _ => .ok window
  | (field, offset) :: places, values =>
    if field.takesArgument then
      match values with
      | [] => .ok window
      | value :: values => do
        let window ← window.storeField field offset index value
        window.storeFields (index + 1) places values
    else window.storeFields index places values

/-- The value at a field's place. -/
def loadField (window : Window) (field : Field) (offset : Nat) : Except PackError Value := do
  let image ← (window.loadBytes offset field.totalSize).mapError .access
  return field.decode window.order image

/-- The values at the places that hold one. -/
def loadFields (window : Window) : List (Field × Nat) → Except PackError (List Value)
  | [] => .ok []
  | (field, offset) :: places =>
    if field.takesArgument then do
      let value ← window.loadField field offset
      let values ← window.loadFields places
      return value :: values
    else window.loadFields places

end BinaryRecord.Window
