import BinaryRecord.ByteOrder

/-!
# Modes

A format is read under a mode: the byte order of its words, whether its fields are aligned, and
whether its sizes are the host's. Five modes have a marker, a character that selects the mode at the
start of a format.
-/

namespace BinaryRecord

/-- How the fields of a record are sized, placed and ordered. -/
structure Mode where
  /-- The character that selects the mode. -/
  marker : Char
  /-- The order of the bytes in a word. -/
  byteOrder : ByteOrder
  /-- Whether a field starts at a multiple of its unit size. -/
  aligned : Bool
  /-- Whether a type has the size it has on the host, and not its standard size. -/
  nativeSizes : Bool
  deriving DecidableEq, Repr

namespace Mode

/-- The host's order and sizes, with alignment. -/
def nativeAligned : Mode := ⟨'@', .native, true, true⟩

/-- The host's order with standard sizes and no alignment. -/
def nativeStandard : Mode := ⟨'=', .native, false, false⟩

/-- The least significant byte first, with standard sizes and no alignment. -/
def little : Mode := ⟨'<', .little, false, false⟩

/-- The most significant byte first, with standard sizes and no alignment. -/
def big : Mode := ⟨'>', .big, false, false⟩

/-- The order of network protocols, which is that of `big`. -/
def network : Mode := ⟨'!', .big, false, false⟩

/-- A format without a marker is in the host's aligned mode. -/
instance : Inhabited Mode := ⟨nativeAligned⟩

/-- The mode that a marker selects. -/
def ofMarker? : Char → Option Mode
  | '@' => some nativeAligned
  | '=' => some nativeStandard
  | '<' => some little
  | '>' => some big
  | '!' => some network
  | _ => none

/-- Whether the character selects a mode. -/
def isMarker (c : Char) : Bool :=
  (ofMarker? c).isSome

/-- A mode carries the marker that selects it. -/
theorem marker_of_ofMarker? {c : Char} {mode : Mode} (h : ofMarker? c = some mode) :
    mode.marker = c := by
  unfold ofMarker? at h
  split at h <;> simp only [Option.some.injEq, reduceCtorEq] at h <;> subst h <;> rfl

end Mode

end BinaryRecord
