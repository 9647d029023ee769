import AccessTrace.Text.Hex

/-!
# Trace entries

An entry is one event of a thread (a memory read, a memory write, an instruction fetch) or one
of the two headers of the stream: the thread header, which says whose entries follow, and the
process header, which completes a thread's registration.
-/

namespace AccessTrace

/-- What an entry stands for. -/
inductive Entry.Kind where
  | read
  | write
  | fetch
  | thread
  | process
  deriving DecidableEq

namespace Entry.Kind

/-- The number that stands for a kind in the stream. -/
def code : Kind → UInt16
  | read => 0
  | write => 1
  | fetch => 2
  | thread => 3
  | process => 4

/-- The kind with a given number, if there is one. -/
def ofCode? : UInt16 → Option Kind
  | 0 => some read
  | 1 => some write
  | 2 => some fetch
  | 3 => some thread
  | 4 => some process
  | _ => none

@[simp] theorem ofCode?_code (k : Kind) : ofCode? k.code = some k := by cases k <;> rfl

/-- Whether a kind is a memory access. -/
def isAccess : Kind → Bool
  | read | write => true
  | fetch | thread | process => false

/-- Whether a kind is an event of a thread and no header. -/
def isEvent : Kind → Bool
  | read | write | fetch => true
  | thread | process => false

/-- The word for a kind. -/
def word : Kind → String
  | read => "read"
  | write => "write"
  | fetch => "ifetch"
  | thread => "thread"
  | process => "pid"

end Entry.Kind

/-- One entry: `size` is the width of the access, of the instruction or of the identifier,
`addr` the address or the identifier. Only a fetch has an opcode. -/
structure Entry where
  kind : Entry.Kind
  size : UInt16
  opcode : UInt16 := 0
  addr : UInt64
  deriving DecidableEq

namespace Entry

/-- The header of thread `tid`. -/
def thread (tid : UInt64) : Entry := { kind := .thread, size := 8, addr := tid }

/-- The header that names the process. -/
def process (pid : UInt32) : Entry := { kind := .process, size := 4, addr := pid.toUInt64 }

/-- A read of `size` bytes at `addr`. -/
def read (size : UInt16) (addr : UInt64) : Entry := { kind := .read, size, addr }

/-- A write of `size` bytes at `addr`. -/
def write (size : UInt16) (addr : UInt64) : Entry := { kind := .write, size, addr }

/-- The fetch of the instruction of `length` bytes at `pc`. -/
def fetch (opcode length : UInt16) (pc : UInt64) : Entry :=
  { kind := .fetch, size := length, opcode, addr := pc }

/-- The text of an entry: identifiers in decimal, addresses in hexadecimal. -/
def text (e : Entry) : String :=
  match e.kind with
  | .thread | .process => s!"{e.kind.word}({e.addr})"
  | .fetch => s!"{e.kind.word}({e.opcode}, {e.size}, {hex e.addr.toNat})"
  | .read | .write => s!"{e.kind.word}({e.size}, {hex e.addr.toNat})"

end Entry

end AccessTrace
