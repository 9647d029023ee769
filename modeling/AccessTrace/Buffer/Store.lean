import AccessTrace.Buffer.Basic

/-!
# Storing into a buffer

A store succeeds exactly when its bytes fit, and then changes these alone; whatever fails leaves
the buffer as it was. `push` is what a thread does that appends whole entries, the stores and
`setPtr` what one does that lays entries down word by word.
-/

namespace AccessTrace.Buffer

/-- Replaces the bytes from `offset` on. -/
def overwrite (b : Buffer) (offset : Nat) (bs : List UInt8) : Buffer :=
  { b with
    bytes := writeAt b.bytes offset bs
    size_bytes := by rw [size_writeAt, b.size_bytes] }

/-- Stores bytes at `offset`. -/
def store (b : Buffer) (offset : Nat) (bs : List UInt8) : Except ResourceError Unit × Buffer :=
  if offset + bs.length ≤ b.byteCapacity then (.ok (), b.overwrite offset bs)
  else (.error (.overflow offset b.byteCapacity), b)

/-- Stores a word of two bytes at `offset`. -/
def store16 (b : Buffer) (offset : Nat) (value : UInt16) : Except ResourceError Unit × Buffer :=
  b.store offset (toLittleEndian 2 value.toNat)

/-- Stores a word of eight bytes at `offset`. -/
def store64 (b : Buffer) (offset : Nat) (value : UInt64) : Except ResourceError Unit × Buffer :=
  b.store offset (toLittleEndian 8 value.toNat)

/-- Moves the pointer, which has to stay behind the header slot and within the buffer. -/
def setPtr (b : Buffer) (ptr : Nat) : Except ResourceError Unit × Buffer :=
  if h : headerBytes ≤ ptr ∧ ptr ≤ b.byteCapacity then
    (.ok (), { b with ptr, header_le_ptr := h.1, ptr_le := h.2 })
  else (.error (.overflow ptr b.byteCapacity), b)

/-- Appends an entry at the pointer and moves the pointer behind it. -/
def push (b : Buffer) (e : Entry) : Except ResourceError Unit × Buffer :=
  if h : b.ptr + Entry.byteSize ≤ b.byteCapacity then
    (.ok (),
      { b with
        bytes := writeAt b.bytes b.ptr e.toBytes
        ptr := b.ptr + Entry.byteSize
        size_bytes := by rw [size_writeAt, b.size_bytes]
        header_le_ptr := Nat.le_trans b.header_le_ptr (Nat.le_add_right _ _)
        ptr_le := h })
  else (.error (.overflow b.ptr b.byteCapacity), b)

/-- Appends an entry, the same moved on by `stride`, and so on, `times` in all or until one does
not fit. -/
def pushSeries (b : Buffer) (e : Entry) (stride : UInt64) :
    (times : Nat) → Except ResourceError Unit × Buffer
  | 0 => (.ok (), b)
  | times + 1 =>
    match b.push e with
    | (.ok (), b) => pushSeries b { e with addr := e.addr + stride } stride times
    | (.error error, b) => (.error error, b)

/-- Writes the thread header into its slot. -/
def writeHeader (b : Buffer) : Buffer := b.overwrite 0 b.header.toBytes

end AccessTrace.Buffer
