import AccessTrace.Bytes
import AccessTrace.Entry.Basic
import AccessTrace.SystemError

/-!
# The record of an entry

In buffers and in the stream an entry is a record of sixteen bytes, all words little-endian:

| offset | bytes | field                    |
|--------|-------|--------------------------|
| 0      | 2     | kind                     |
| 2      | 2     | size                     |
| 4      | 2     | opcode, of fetches alone |
| 6      | 2     | zero                     |
| 8      | 8     | address or identifier    |
-/

namespace AccessTrace

/-- What a stream of records can be rejected for. -/
inductive StreamError where
  /-- The kind of a record has no meaning. -/
  | unknownKind (code : UInt16)
  /-- The stream broke off inside a record. -/
  | truncated (cause : SystemError)
  /-- The record at `index` belongs to no thread. -/
  | orphan (index : Nat)
  /-- The first message of a thread was not its registration. -/
  | unregistered (tid : UInt64)
  /-- A thread registered twice. -/
  | reregistered (tid : UInt64)
  deriving DecidableEq

namespace StreamError

/-- The text of an error. -/
def message : StreamError → String
  | unknownKind code => s!"Unknown entry type {code}"
  | truncated _ => "Truncated entry"
  | orphan index => s!"Entry #{index} precedes any thread header"
  | unregistered tid => s!"Thread {tid} didn't register before sending entries"
  | reregistered tid => s!"Thread {tid} registered more than once"

/-- The texts of what led to an error, outermost first. -/
def causes : StreamError → List String
  | truncated cause => [cause.text]
  | _ => []

end StreamError

namespace Entry

/-- The bytes of a record. -/
def byteSize : Nat := 16

/-- Where a record holds the kind. -/
def kindOffset : Nat := 0

/-- Where a record holds the size. -/
def sizeOffset : Nat := 2

/-- Where a record holds the opcode. -/
def opcodeOffset : Nat := 4

/-- Where a record holds the address. -/
def addrOffset : Nat := 8

/-- The record of an entry. -/
def toBytes (e : Entry) : List UInt8 :=
  toLittleEndian 2 e.kind.code.toNat ++ toLittleEndian 2 e.size.toNat ++
    toLittleEndian 2 e.opcode.toNat ++ [0, 0] ++ toLittleEndian 8 e.addr.toNat

@[simp] theorem length_toBytes (e : Entry) : e.toBytes.length = byteSize := by
  simp [toBytes, byteSize]

/-- The word of `width` bytes at `offset`. -/
def wordAt (bytes : List UInt8) (offset width : Nat) : Nat :=
  ofLittleEndian ((bytes.drop offset).take width)

/-- The entry of a record. The opcode of anything but a fetch is left over from whatever the
record held before and is not read. -/
def ofBytes (bytes : List UInt8) : Except StreamError Entry :=
  let code := UInt16.ofNat (wordAt bytes kindOffset 2)
  match Kind.ofCode? code with
  | none => .error (.unknownKind code)
  | some kind =>
    let opcode := if kind = .fetch then UInt16.ofNat (wordAt bytes opcodeOffset 2) else 0
    .ok { kind, opcode, size := UInt16.ofNat (wordAt bytes sizeOffset 2),
          addr := UInt64.ofNat (wordAt bytes addrOffset 8) }

/-- The entry of the record at the front of `bytes`, or `none` where there is no whole record. -/
def read? (bytes : List UInt8) : Option (Except StreamError Entry) :=
  if bytes.length < byteSize then none else some (ofBytes bytes)

/-- Lays the record of an entry over the front of `bytes`, or `none` where it does not fit. -/
def encodeOver? (e : Entry) (bytes : List UInt8) : Option (List UInt8) :=
  if bytes.length < byteSize then none else some (e.toBytes ++ bytes.drop byteSize)

/-- An entry as it can be read back: without an opcode unless it is a fetch. -/
def normal (e : Entry) : Entry :=
  { e with opcode := if e.kind = .fetch then e.opcode else 0 }

end Entry

end AccessTrace
