import AccessTrace.Entry.Layout
import AccessTrace.Resource

/-!
# The buffer of a thread

A buffer holds `capacity` slots of one record each. Slot 0 is kept for the thread header, which is
written when the buffer is sent; the pointer is the byte offset behind the last entry. It never
lies inside the header slot nor past the end, and the slots fit one allocation: `header_le_ptr`,
`ptr_le` and `fits` are part of the type.
-/

namespace AccessTrace

/-- Where a buffer is in its life. -/
inductive Phase where
  | uninitialized
  | active
  | draining
  | freed
  deriving DecidableEq

namespace Phase

/-- The only phase that may follow. -/
def next? : Phase → Option Phase
  | uninitialized => some active
  | active => some draining
  | draining => some freed
  | freed => none

/-- The word for a phase. -/
def word : Phase → String
  | uninitialized => "Uninitialized"
  | active => "Active"
  | draining => "Draining"
  | freed => "Freed"

end Phase

/-- A step that breaks the rules of a buffer's life. It is the caller's mistake and ends the
buffer. -/
inductive Misuse where
  /-- The phase does not follow the one the buffer is in. -/
  | transition (tid : UInt64) (current target : Phase)
  /-- The thread was registered before. -/
  | registeredTwice (tid : UInt64)
  deriving DecidableEq

/-- The text of a mistake. -/
def Misuse.message : Misuse → String
  | transition tid current target =>
    s!"Invalid buffer transition for thread {tid}: {current.word} -> {target.word}"
  | registeredTwice tid => s!"Thread {tid} registered twice"

/-- The bytes of the slot that is kept for the thread header. -/
def headerBytes : Nat := Entry.byteSize

/-- The buffer of thread `tid`. -/
structure Buffer where
  tid : UInt64
  /-- The number of slots. -/
  capacity : Nat
  /-- The slots, one after the other. -/
  bytes : Array UInt8
  /-- The byte offset of the first free slot. -/
  ptr : Nat := headerBytes
  /-- The entries sent so far, headers of payloads included. They are counted as a number, which
  is a machine word as long as a trace that long could be recorded; a count that a caller brings
  beyond is followed where deliveries are told step by step. -/
  refs : Nat := 0
  /-- Whether the thread's registration was sent. -/
  registered : Bool := false
  phase : Phase := .uninitialized
  /-- Whether a tracer handed the buffer out and counts its thread as running. -/
  attached : Bool := false
  two_le_capacity : 2 ≤ capacity
  size_bytes : bytes.size = capacity * Entry.byteSize
  fits : capacity * Entry.byteSize ≤ allocationLimit
  header_le_ptr : headerBytes ≤ ptr
  ptr_le : ptr ≤ capacity * Entry.byteSize

namespace Buffer

/-- The slots of a buffer unless told otherwise. -/
def defaultCapacity : Nat := 4096

/-- The bytes of slots that hold nothing yet. -/
def emptyBytes (capacity : Nat) : Array UInt8 := Array.replicate (capacity * Entry.byteSize) 0

theorem size_emptyBytes (capacity : Nat) :
    (emptyBytes capacity).size = capacity * Entry.byteSize := Array.size_replicate

theorem headerBytes_le {capacity : Nat} (h : 2 ≤ capacity) :
    headerBytes ≤ capacity * Entry.byteSize :=
  Nat.le_mul_of_pos_left _ (Nat.lt_of_lt_of_le (by decide) h)

/-- An empty buffer of `capacity` slots, all bytes zero. There has to be a slot past the header,
and the bytes have to fit one allocation. -/
def new (tid : UInt64) (capacity : Nat) : Except ResourceError Buffer :=
  if h : 2 ≤ capacity then
    if wordLimit ≤ capacity * Entry.byteSize then .error (.buffer (wordLimit - 1))
    else if fits : capacity * Entry.byteSize ≤ allocationLimit then .ok
      { tid, capacity, fits, bytes := emptyBytes capacity
        two_le_capacity := h
        size_bytes := size_emptyBytes capacity
        header_le_ptr := Nat.le_refl headerBytes
        ptr_le := headerBytes_le h }
    else .error (.buffer (capacity * Entry.byteSize))
  else .error (.bufferTooSmall capacity)

/-- The bytes of all slots. -/
def byteCapacity (b : Buffer) : Nat := b.capacity * Entry.byteSize

/-- The occupied slots, the header slot included. -/
def occupied (b : Buffer) : Nat := b.ptr / Entry.byteSize

/-- The occupied slots past the header slot. -/
def pendingCount (b : Buffer) : Nat := b.occupied - 1

/-- The bytes from the header slot up to the pointer. -/
def occupiedBytes (b : Buffer) : List UInt8 := (b.bytes.extract 0 b.ptr).toList

/-- The bytes from the first slot past the header up to the pointer. -/
def pendingBytes (b : Buffer) : List UInt8 := (b.bytes.extract headerBytes b.ptr).toList

/-- What the occupied slots past the header slot hold: an entry each, or the reason why the bytes
are none. -/
def pending (b : Buffer) : List (Except StreamError Entry) :=
  (groups Entry.byteSize ((b.ptr - headerBytes) / Entry.byteSize) b.pendingBytes).map Entry.ofBytes

/-- The thread header that a payload begins with. -/
def header (b : Buffer) : Entry := Entry.thread b.tid

/-- Empties the buffer: the pointer goes back behind the header slot. -/
def reset (b : Buffer) : Buffer :=
  { b with
    ptr := headerBytes
    header_le_ptr := Nat.le_refl _
    ptr_le := Nat.le_trans b.header_le_ptr b.ptr_le }

/-- Counts `count` more entries as sent. -/
def addRefs (b : Buffer) (count : Nat) : Buffer := { b with refs := b.refs + count }

/-- Moves to the phase `target`, which has to be the one that follows. -/
def transition (b : Buffer) (target : Phase) : Except Misuse Unit × Buffer :=
  if b.phase.next? = some target then (.ok (), { b with phase := target })
  else (.error (.transition b.tid b.phase target), b)

/-- Marks the thread as registered, which may happen once. -/
def markRegistered (b : Buffer) : Except Misuse Unit × Buffer :=
  if b.registered then (.error (.registeredTwice b.tid), b)
  else (.ok (), { b with registered := true })

end Buffer

end AccessTrace
