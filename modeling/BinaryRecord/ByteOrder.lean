/-!
# Byte orders

A byte order is given outright or left to the host. The host keeps the least significant byte first,
so of the three orders only `big` needs its words reversed.
-/

namespace BinaryRecord

/-- The order in which the bytes of a word stand in memory. -/
inductive ByteOrder where
  /-- The host's own order. -/
  | native
  /-- The least significant byte first. -/
  | little
  /-- The most significant byte first. -/
  | big
  deriving DecidableEq, Repr

namespace ByteOrder

/-- The order in which the host keeps its words. -/
def host : ByteOrder := little

/-- The order that is meant, with `native` standing for the host's. -/
def resolve : ByteOrder → ByteOrder
  | native => host
  | order => order

/-- Whether the bytes of a word in the host's order must be reversed to stand in this order. -/
def needsSwap (order : ByteOrder) : Bool :=
  order.resolve != host

/-- The bytes of a word in the host's order, brought into this order; or the other way round. -/
def arrange (order : ByteOrder) (bytes : List UInt8) : List UInt8 :=
  if order.needsSwap then bytes.reverse else bytes

/-- Arranging keeps the number of bytes. -/
@[simp] theorem length_arrange (order : ByteOrder) (bytes : List UInt8) :
    (order.arrange bytes).length = bytes.length := by
  unfold arrange
  split <;> simp

/-- Arranging twice changes nothing, so one function serves for writing and for reading. -/
@[simp] theorem arrange_arrange (order : ByteOrder) (bytes : List UInt8) :
    order.arrange (order.arrange bytes) = bytes := by
  unfold arrange
  split <;> simp

end ByteOrder

end BinaryRecord
