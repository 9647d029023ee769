import AccessTrace.Code.Instruction
import AccessTrace.Code.Operation
import AccessTrace.Resource

/-!
# Instrumentation

Which operations are inserted before an instruction. The two scratch registers of the architecture
are saved once, each entry is laid down behind the buffer pointer, the pointer is moved once, and
the registers are restored. A block gets one check for a delivery, behind the first instruction
that writes entries and before which a call may stand.
-/

namespace AccessTrace

/-- The architecture of the observed program. -/
inductive Architecture where
  | x86
  | arm
  deriving DecidableEq

namespace Architecture

/-- The register that holds the buffer pointer. -/
def pointerRegister : Architecture → Register
  | x86 => 1
  | arm => 1

/-- The register that holds the values to be stored. -/
def valueRegister : Architecture → Register
  | x86 => 3
  | arm => 2

/-- Whether a check for a delivery may be inserted before an instruction. On ARM it may not stand
before a conditional instruction nor between an exclusive load and its store. -/
def flushAllowed : Architecture → Instruction → Bool
  | x86, _ => true
  | arm, i => !i.predicated && !i.exclusiveStore

end Architecture

/-- How a program is instrumented. -/
structure Instrumentation where
  architecture : Architecture
  /-- Whether instructions get an entry of their own. -/
  fetches : Bool := false
  deriving DecidableEq

namespace Instrumentation

/-- The operations that lay down the entry of an instruction at `disp`. -/
def fetchOperations (s : Instrumentation) (i : Instruction) (disp : Nat) : List Operation :=
  let ptr := s.architecture.pointerRegister
  let tmp := s.architecture.valueRegister
  [.storeImmediate16 ptr tmp (disp + Entry.kindOffset) Entry.Kind.fetch.code,
    .storeImmediate16 ptr tmp (disp + Entry.sizeOffset) i.length,
    .storeImmediate16 ptr tmp (disp + Entry.opcodeOffset) i.opcode,
    .storeImmediate64 ptr tmp (disp + Entry.addrOffset) i.pc]

/-- The operations that lay down the entry of an access at `disp`. Scratch registers that the
address depends on get the program's values back first; the buffer pointer is loaded again behind
the address. -/
def accessOperations (s : Instrumentation) (kind : Entry.Kind) (m : MemoryOperand) (disp : Nat) :
    List Operation :=
  let ptr := s.architecture.pointerRegister
  let tmp := s.architecture.valueRegister
  [.storeImmediate16 ptr tmp (disp + Entry.kindOffset) kind.code,
    .storeImmediate16 ptr tmp (disp + Entry.sizeOffset) m.size] ++
  (if m.uses ptr then [.restore ptr .pointer] else []) ++
  (if m.uses tmp then [.restore tmp .value] else []) ++
  [.loadAddress m tmp ptr, .loadPointer ptr, .storeRegister ptr (disp + Entry.addrOffset) tmp]

/-- The operations that lay down the entries of accesses one after the other, from `disp` on. -/
def accessesOperations (s : Instrumentation) (disp : Nat) :
    List (Entry.Kind × MemoryOperand) → List Operation
  | [] => []
  | (kind, m) :: rest =>
    s.accessOperations kind m disp ++ s.accessesOperations (disp + Entry.byteSize) rest

/-- The number of entries that an instruction writes. -/
def entryCount (s : Instrumentation) (i : Instruction) : Nat :=
  if i.isTraced then (if s.fetches then 1 else 0) + i.accesses.length else 0

/-- All operations before an instruction, less the check for a delivery. -/
def operations (s : Instrumentation) (i : Instruction) : List Operation :=
  let ptr := s.architecture.pointerRegister
  let tmp := s.architecture.valueRegister
  if i.isTraced then
    [.spill ptr .pointer, .spill tmp .value, .loadPointer ptr] ++
    (if s.fetches then s.fetchOperations i 0 else []) ++
    s.accessesOperations (if s.fetches then Entry.byteSize else 0) i.accesses ++
    [.advance ptr (s.entryCount i * Entry.byteSize), .restore ptr .pointer, .restore tmp .value]
  else []

/-- Whether an instruction can carry the check of its block. -/
def canCheck (s : Instrumentation) (i : Instruction) : Bool :=
  i.isTraced && s.architecture.flushAllowed i

/-- The plan of an instruction, with the check for a delivery if it is to have one. -/
def plan (s : Instrumentation) (i : Instruction) (check : Bool) : InstructionPlan :=
  { operations := s.operations i ++ if check then [.flushCheck] else []
    entries := s.entryCount i }

/-- A block under way: whether its check was inserted, and the plans so far. -/
structure Draft where
  checked : Bool := false
  plans : Array InstructionPlan := #[]

/-- The bytes that one plan takes in the list of a block. -/
def planBytes : Nat := 32

/-- Starts a block of `count` instructions, whose plans have to fit one allocation. -/
def begin (count : Nat) : Except ResourceError Draft :=
  if allocationLimit < count * planBytes then .error .blockPlans else .ok {}

/-- Adds the plan of an instruction to a block. -/
def extend (s : Instrumentation) (d : Draft) (i : Instruction) : Draft :=
  let check := !d.checked && s.canCheck i
  { checked := d.checked || check, plans := d.plans.push (s.plan i check) }

/-- The plans of instructions, given whether their block has its check already. -/
def plansFrom (s : Instrumentation) (checked : Bool) : List Instruction → BlockPlan
  | [] => []
  | i :: rest =>
    let check := !checked && s.canCheck i
    s.plan i check :: plansFrom s (checked || check) rest

/-- The plans of a block. -/
def planBlock (s : Instrumentation) (instructions : List Instruction) :
    Except ResourceError BlockPlan :=
  (begin instructions.length).map fun d => (instructions.foldl s.extend d).plans.toList

theorem foldl_extend (s : Instrumentation) (d : Draft) (instructions : List Instruction) :
    (instructions.foldl s.extend d).plans.toList =
      d.plans.toList ++ s.plansFrom d.checked instructions := by
  induction instructions generalizing d with
  | nil => simp [plansFrom]
  | cons i rest ih => simp [ih, extend, plansFrom]

end Instrumentation

end AccessTrace
