import AccessTrace.Code.Operand
import AccessTrace.Entry.Basic

/-!
# Instructions

What is known of an instruction of the observed program, and which entries its execution calls
for. That is said here without regard to how the entries are written.
-/

namespace AccessTrace

/-- An instruction at `pc`. -/
structure Instruction where
  pc : UInt64
  opcode : UInt16 := 0
  /-- The bytes of the instruction. -/
  length : UInt16
  /-- Whether it was put in by rewriting and is not the program's own. -/
  inserted : Bool := false
  sources : List Operand := []
  destinations : List Operand := []
  /-- Whether it executes only under a condition. -/
  predicated : Bool := false
  /-- Whether it is the store of an exclusive pair of a load and a store. -/
  exclusiveStore : Bool := false
  deriving DecidableEq

namespace Instruction

/-- Whether the instruction is the program's own. -/
def isOwn (i : Instruction) : Bool := !i.inserted

/-- The references read, in order. -/
def reads (i : Instruction) : List MemoryOperand := i.sources.filterMap Operand.memory?

/-- The references written, in order. -/
def writes (i : Instruction) : List MemoryOperand := i.destinations.filterMap Operand.memory?

/-- All accesses of the instruction: the reads, then the writes. -/
def accesses (i : Instruction) : List (Entry.Kind × MemoryOperand) :=
  i.reads.map (.read, ·) ++ i.writes.map (.write, ·)

/-- Whether the instruction is traced: one of the program's own that accesses memory. -/
def isTraced (i : Instruction) : Bool := i.isOwn && !i.accesses.isEmpty

/-- The entries that an execution calls for, given what the registers hold before it: with
`fetches` one for the instruction itself, then one for each access. -/
def entries (i : Instruction) (fetches : Bool) (value : Register → UInt64) : List Entry :=
  if i.isTraced then
    (if fetches then [Entry.fetch i.opcode i.length i.pc] else []) ++
      i.accesses.map fun (kind, m) => { kind, size := m.size, addr := m.address value }
  else []

end Instruction

end AccessTrace
