import AccessTrace.Text.Hex

/-!
# Limits

Addresses, offsets and sizes are below `wordLimit`, and one allocation may take at most
`allocationLimit` bytes. What does not fit is an error, never a wrapped number.
-/

namespace AccessTrace

/-- The first number that is no machine word. -/
def wordLimit : Nat := UInt64.size

/-- The bytes that one allocation may take at most. -/
def allocationLimit : Nat := wordLimit / 2 - 1

/-- What a trace cannot be faithful without, and could not be had. -/
inductive ResourceError where
  /-- A thread buffer of so many bytes could not be allocated. -/
  | buffer (bytes : Nat)
  /-- A buffer of so many slots would be filled by its header. -/
  | bufferTooSmall (capacity : Nat)
  /-- The plans of a block could not be allocated. -/
  | blockPlans
  /-- A store at a byte offset, or a pointer there, lies outside the buffer. -/
  | overflow (offset capacity : Nat)
  /-- The thread is running already. -/
  | threadSlot (tid : UInt64)
  deriving DecidableEq

/-- The text of an error. -/
def ResourceError.message : ResourceError → String
  | buffer bytes => s!"Unable to allocate trace buffer of {bytes} bytes"
  | bufferTooSmall capacity => s!"Trace buffer of {capacity} entries has no room past its header"
  | blockPlans => "Unable to allocate block bookkeeping"
  | overflow offset capacity =>
    s!"Trace buffer overflow: store at {hex offset} past capacity {hex capacity}"
  | threadSlot tid => s!"No buffer slot for thread {tid}"

end AccessTrace
